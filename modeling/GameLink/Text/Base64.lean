import GameLink.Text.Bytes

/-! # Base64

Three bytes become four characters, and one or two left over become two or
three. Tokens use the url alphabet without padding, binary payloads the
standard alphabet padded to a multiple of four. Reading is strict: the padding
is exact and the bits that stand for nothing are zero, so every text that reads
is the one that writing gives.
-/
namespace GameLink.Base64

/-- The two alphabets differ in their last two characters. -/
inductive Alphabet
  | standard
  | url
deriving DecidableEq

def Alphabet.plus : Alphabet → Char
  | .standard => '+'
  | .url => '-'

def Alphabet.slash : Alphabet → Char
  | .standard => '/'
  | .url => '_'

def Alphabet.char (a : Alphabet) (n : Nat) : Char :=
  if n < 26 then Char.ofNat (65 + n)
  else if n < 52 then Char.ofNat (71 + n)
  else if n < 62 then Char.ofNat (n - 4)
  else if n = 62 then a.plus
  else a.slash

def Alphabet.value? (a : Alphabet) (c : Char) : Option Nat :=
  if 'A' ≤ c ∧ c ≤ 'Z' then some (c.toNat - 65)
  else if 'a' ≤ c ∧ c ≤ 'z' then some (c.toNat - 71)
  else if '0' ≤ c ∧ c ≤ '9' then some (c.toNat + 4)
  else if c = a.plus then some 62
  else if c = a.slash then some 63
  else none

/-! ## Groups -/

def three (a : Alphabet) (x y z : UInt8) : List Char :=
  [a.char (x.toNat / 4), a.char (x.toNat % 4 * 16 + y.toNat / 16),
    a.char (y.toNat % 16 * 4 + z.toNat / 64), a.char (z.toNat % 64)]

def two (a : Alphabet) (x y : UInt8) : List Char :=
  [a.char (x.toNat / 4), a.char (x.toNat % 4 * 16 + y.toNat / 16), a.char (y.toNat % 16 * 4)]

def one (a : Alphabet) (x : UInt8) : List Char :=
  [a.char (x.toNat / 4), a.char (x.toNat % 4 * 16)]

def three? (a : Alphabet) (c d e f : Char) : Option Bytes :=
  match a.value? c, a.value? d, a.value? e, a.value? f with
  | some p, some q, some r, some s =>
    some [UInt8.ofNat (p * 4 + q / 16), UInt8.ofNat (q % 16 * 16 + r / 4),
      UInt8.ofNat (r % 4 * 64 + s)]
  | _, _, _, _ => none

def two? (a : Alphabet) (c d e : Char) : Option Bytes :=
  match a.value? c, a.value? d, a.value? e with
  | some p, some q, some r =>
    if r % 4 = 0 then some [UInt8.ofNat (p * 4 + q / 16), UInt8.ofNat (q % 16 * 16 + r / 4)]
    else none
  | _, _, _ => none

def one? (a : Alphabet) (c d : Char) : Option Bytes :=
  match a.value? c, a.value? d with
  | some p, some q => if q % 16 = 0 then some [UInt8.ofNat (p * 4 + q / 16)] else none
  | _, _ => none

/-! ## Without padding -/

def encode (a : Alphabet) : Bytes → List Char
  | x :: y :: z :: rest => three a x y z ++ encode a rest
  | [x, y] => two a x y
  | [x] => one a x
  | [] => []

def decode? (a : Alphabet) : List Char → Option Bytes
  | c :: d :: e :: f :: rest =>
    match three? a c d e f, decode? a rest with
    | some bytes, some more => some (bytes ++ more)
    | _, _ => none
  | [c, d, e] => two? a c d e
  | [c, d] => one? a c d
  | [_] => none
  | [] => some []

/-! ## With padding -/

def encodePadded (a : Alphabet) : Bytes → List Char
  | x :: y :: z :: rest => three a x y z ++ encodePadded a rest
  | [x, y] => two a x y ++ ['=']
  | [x] => one a x ++ ['=', '=']
  | [] => []

/-- Padding stands in the last group only. -/
def decodePadded? (a : Alphabet) : List Char → Option Bytes
  | c :: d :: e :: f :: rest =>
    if f = '=' ∧ rest = [] then
      if e = '=' then one? a c d else two? a c d e
    else
      match three? a c d e f, decodePadded? a rest with
      | some bytes, some more => some (bytes ++ more)
      | _, _ => none
  | [] => some []
  | _ => none

end GameLink.Base64
