import GameLink.Binary64.Basic

/-! # Reading a decimal numeral

A numeral is an integer part, a fraction and an exponent, all digits. An
integer that fits 64 bits stays exact. Anything else becomes a binary64 number:
as many digits as fit 64 bits are kept, later digits of the integer part only
shift the exponent, later digits of the fraction are dropped, and the kept
integer is scaled by one rounded power of ten. The scaling is fast rather than
exact to the last bit, so its steps are part of the format.
-/
namespace GameLink

/-- The parts of a number as written. -/
structure Numeral where
  negative : Bool
  whole : List Nat
  fraction : List Nat
  /-- Sign and digits of the exponent, if one is written. -/
  power : Option (Bool × List Nat)
deriving DecidableEq

/-- A number read from text. -/
inductive Number
  | int (n : Int)
  | float (x : Binary64)
deriving DecidableEq

namespace Numeral

def maxSignificand : Nat := 18446744073709551615

/-- Whether another digit would leave 64 bits. -/
def overflows (significand digit : Nat) : Bool := maxSignificand < 10 * significand + digit

/-- Digits kept of the integer part and the number of digits after them. -/
def keepWhole : Nat → List Nat → Nat × Nat
  | n, [] => (n, 0)
  | n, d :: ds => if overflows n d then (n, (d :: ds).length) else keepWhole (10 * n + d) ds

/-- Digits kept of the fraction and the number of them. -/
def keepFraction : Nat → Nat → List Nat → Nat × Nat
  | n, used, [] => (n, used)
  | n, used, d :: ds =>
    if overflows n d then (n, used) else keepFraction (10 * n + d) (used + 1) ds

/-- Powers of ten go up to `10^308` in one step. -/
def powerOfTen (k : Nat) : Binary64 := Binary64.ofNat (Nat.pow 10 k)

/-- Scales by `10^e`, stepping down by `10^308` while the exponent is out of reach.
Nothing if the result is infinite. -/
def scale : Nat → Binary64 → Int → Option Binary64
  | 0, _, _ => none
  | fuel + 1, x, e =>
    if e.natAbs ≤ 308 then
      if 0 ≤ e then
        let y := x.mul (powerOfTen e.natAbs)
        if y.finite then some y else none
      else some (x.div (powerOfTen e.natAbs))
    else if x.isZero then some x
    else if 0 ≤ e then none
    else scale fuel (x.div (powerOfTen 308)) (e + 308)

/-- A nonzero number below `2^64` vanishes after two steps of `10^308`. -/
def scaled? (significand : Nat) (e : Int) : Option Binary64 :=
  scale 8 (Binary64.ofNat significand) e

def minExponent : Int := -2147483648
def maxExponent : Int := 2147483647

/-- The written exponent, unless its digits leave 31 bits. -/
def exponentDigits : Nat → List Nat → Option Nat
  | n, [] => some n
  | n, d :: ds => if maxExponent < 10 * n + d then none else exponentDigits (10 * n + d) ds

def clampExponent (e : Int) : Int := max minExponent (min maxExponent e)

/-- Gives the magnitude of the binary64 number, or nothing when it is out of range. -/
def magnitude? (x : Numeral) : Option Binary64 :=
  let (kept, shifted) := keepWhole 0 x.whole
  let (significand, used) := keepFraction kept 0 x.fraction
  let start : Int := (shifted : Int) - used
  match x.power with
  | none => scaled? significand start
  | some (below, ds) =>
    match exponentDigits 0 ds with
    | none => if significand ≠ 0 ∧ ¬ below then none else some Binary64.zero
    | some e => scaled? significand (clampExponent (if below then start - e else start + e))

def isInteger (x : Numeral) : Bool := x.fraction.isEmpty && x.power.isNone

/-- The number written, or nothing for one beyond the binary64 range. -/
def number? (x : Numeral) : Option Number :=
  let n := Decimal.ofDigits x.whole
  if x.isInteger ∧ ¬ x.negative ∧ n ≤ maxSignificand then some (.int n)
  else if x.isInteger ∧ x.negative ∧ 0 < n ∧ n ≤ Nat.pow 2 63 then some (.int (-(n : Int)))
  else x.magnitude?.map (fun m => .float (if x.negative then m.neg else m))

end Numeral

end GameLink
