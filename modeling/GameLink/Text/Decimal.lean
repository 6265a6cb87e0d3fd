/-! # Decimal integers

A number in text is an optional sign and one or more ASCII digits. Any number
of leading zeros is harmless, and the range is checked on the exact value, so
no accepted text ever wraps around.
-/
namespace GameLink.Decimal

def digit? (c : Char) : Option Nat :=
  if '0' ≤ c ∧ c ≤ '9' then some (c.toNat - 48) else none

def digits? : List Char → Option (List Nat)
  | [] => some []
  | c :: rest => do
    let d ← digit? c
    let ds ← digits? rest
    return d :: ds

/-- The number written by `ds`, most significant digit first. -/
def ofDigits (ds : List Nat) : Nat := ds.foldl (fun n d => 10 * n + d) 0

/-- One or more digits. -/
def natural? (cs : List Char) : Option Nat :=
  match cs with
  | [] => none
  | _ => (digits? cs).map ofDigits

/-- Digits with at most one leading `+`. -/
def unsigned? : List Char → Option Nat
  | '+' :: rest => natural? rest
  | cs => natural? cs

/-- Digits with at most one leading `+` or `-`. -/
def signed? : List Char → Option Int
  | '-' :: rest => (natural? rest).map (fun n => -(n : Int))
  | '+' :: rest => (natural? rest).map (fun n => (n : Int))
  | cs => (natural? cs).map (fun n => (n : Int))

/-- The number in `text` when it lies between `lo` and `hi`. -/
def inRange? (lo hi : Nat) (text : String) : Option Nat :=
  (unsigned? text.toList).filter (fun n => lo ≤ n && n ≤ hi)

def minInt64 : Int := -9223372036854775808
def maxInt64 : Int := 9223372036854775807
def maxUInt64 : Int := 18446744073709551615

/-- The signed 64-bit number in `text`. -/
def int64? (text : String) : Option Int :=
  (signed? text.toList).filter (fun n => minInt64 ≤ n && n ≤ maxInt64)

end GameLink.Decimal
