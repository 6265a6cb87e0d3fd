import GameLink.Text.Bytes

/-! # Bytes in hex

Two lower-case digits a byte.
-/
namespace GameLink.Hex

def digit (n : Nat) : Char := if n < 10 then Char.ofNat (48 + n) else Char.ofNat (87 + n)

def value (c : Char) : Nat := if c ≤ '9' then c.toNat - 48 else c.toNat - 87

def encode (bytes : Bytes) : List Char :=
  bytes.flatMap (fun b => [digit (b.toNat / 16), digit (b.toNat % 16)])

/-- Reads pairs of digits up to the last whole one. -/
def decode : List Char → Bytes
  | a :: b :: rest => UInt8.ofNat (16 * value a + value b) :: decode rest
  | _ => []

end GameLink.Hex
