import GameLink.Text.Bytes

/-! # JSON text tokens

Writing escapes the quote, the backslash and the characters below the blank,
and nothing else. Reading resolves escapes to UTF-8 bytes first and then asks
for well-formed UTF-8 as a whole; an escape beyond the first plane is a pair of
surrogates, and a lone surrogate is refused.
-/
namespace GameLink.Json.Text

def hexDigit (n : Nat) : Char := if n < 10 then Char.ofNat (48 + n) else Char.ofNat (87 + n)

/-- The escape after a backslash of the characters that have a short one. -/
def shortEscape? : Char → Option Char
  | '"' => some '"'
  | '\\' => some '\\'
  | '\x08' => some 'b'
  | '\x0c' => some 'f'
  | '\n' => some 'n'
  | '\r' => some 'r'
  | '\t' => some 't'
  | _ => none

def encodeChar (c : Char) : List Char :=
  match shortEscape? c with
  | some e => ['\\', e]
  | none =>
    if c.toNat < 0x20 then
      ['\\', 'u', '0', '0', hexDigit (c.toNat / 16), hexDigit (c.toNat % 16)]
    else [c]

def encode (s : String) : List Char := s.toList.flatMap encodeChar

/-! ## Reading -/

def hexValue (b : UInt8) : Nat :=
  if b < 0x40 then b.toNat - 48 else if b < 0x60 then b.toNat - 55 else b.toNat - 87

def codeUnit (a b c d : UInt8) : Nat :=
  4096 * hexValue a + 256 * hexValue b + 16 * hexValue c + hexValue d

/-- The byte that a short escape stands for. -/
def shortByte (b : UInt8) : UInt8 :=
  if b == 0x62 then 0x08
  else if b == 0x66 then 0x0C
  else if b == 0x6E then 0x0A
  else if b == 0x72 then 0x0D
  else if b == 0x74 then 0x09
  else b

/-- The character of a pair of surrogates. -/
def pairValue (high low : Nat) : Nat := 0x10000 + (high - 0xD800) * 1024 + (low - 0xDC00)

/-- Resolves the escapes of a scanned text token. -/
def unescape : Bytes → Option Bytes
  | 0x5C :: 0x75 :: a :: b :: c :: d :: rest =>
    let unit := codeUnit a b c d
    if 0xDC00 ≤ unit ∧ unit ≤ 0xDFFF then none
    else if 0xD800 ≤ unit ∧ unit ≤ 0xDBFF then
      match rest with
      | 0x5C :: 0x75 :: a' :: b' :: c' :: d' :: rest' =>
        let low := codeUnit a' b' c' d'
        if 0xDC00 ≤ low ∧ low ≤ 0xDFFF then
          (unescape rest').map (String.utf8EncodeChar (Char.ofNat (pairValue unit low)) ++ ·)
        else none
      | _ => none
    else (unescape rest).map (String.utf8EncodeChar (Char.ofNat unit) ++ ·)
  | 0x5C :: b :: rest => (unescape rest).map (shortByte b :: ·)
  | b :: rest => (unescape rest).map (b :: ·)
  | [] => some []

/-- The text of a scanned token. -/
def decode? (raw : Bytes) : Option String := (unescape raw).bind Bytes.text?

end GameLink.Json.Text
