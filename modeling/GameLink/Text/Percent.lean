import GameLink.Text.Bytes

/-! # Percent escapes

A query value keeps the unreserved characters (letters, digits and `-._~`) and
writes every other UTF-8 byte as `%` and two upper-case hex digits, so it can
hold no separator of its own.
-/
namespace GameLink.Percent

def isUnreserved (b : UInt8) : Bool :=
  (0x30 ≤ b && b ≤ 0x39) || (0x41 ≤ b && b ≤ 0x5A) || (0x61 ≤ b && b ≤ 0x7A) ||
    b == 0x2D || b == 0x2E || b == 0x5F || b == 0x7E

def hexDigit (n : Nat) : Char := if n < 10 then Char.ofNat (48 + n) else Char.ofNat (55 + n)

def encodeByte (b : UInt8) : List Char :=
  if isUnreserved b then [Char.ofNat b.toNat]
  else ['%', hexDigit (b.toNat / 16), hexDigit (b.toNat % 16)]

def encode (bytes : Bytes) : List Char := bytes.flatMap encodeByte

def hexValue? (c : Char) : Option Nat :=
  if '0' ≤ c ∧ c ≤ '9' then some (c.toNat - 48)
  else if 'A' ≤ c ∧ c ≤ 'F' then some (c.toNat - 55)
  else none

/-- The bytes of an escaped query value. -/
def decode? : List Char → Option Bytes
  | '%' :: h :: l :: rest =>
    match hexValue? h, hexValue? l, decode? rest with
    | some x, some y, some more => some (UInt8.ofNat (16 * x + y) :: more)
    | _, _, _ => none
  | c :: rest =>
    if c.toNat < 128 ∧ isUnreserved (UInt8.ofNat c.toNat) then
      (decode? rest).map (UInt8.ofNat c.toNat :: ·)
    else none
  | [] => some []

def encodeText (s : String) : String := String.ofList (encode (Bytes.ofText s))

end GameLink.Percent
