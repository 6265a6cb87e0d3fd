import GameLink.Binary64.Basic

/-! # Shortest decimal digits

The reals that round to a finite number form an interval around it, whose ends
belong to it when the significand is even. A grid is the set of multiples of
one power of ten. The coarsest grid with a point in the interval gives the
digits: no shorter decimal reads back as the number. Of two points the nearer
is taken. Only the two neighbours of the number on each grid have to be tried,
since every other point lies behind one of them.
-/
namespace GameLink.Binary64

/-- Digits `d` and scale `k`: the number written is `d · 10^k`. -/
structure Digits where
  digits : Nat
  scale : Int
deriving DecidableEq

/-- The interval that rounds to a number, in units of `10^scale`: bounds and the
number itself over one denominator. -/
structure Interval where
  low : Nat
  value : Nat
  high : Nat
  den : Nat
  closed : Bool

/-- Quarter steps make both half gaps whole: below a power of two the gap is half as wide. -/
def interval (x : Binary64) (scale : Int) : Interval :=
  let m := x.significand
  let e := x.exponent - 2
  let up := Nat.pow 2 e.toNat * Nat.pow 10 (-scale).toNat
  let below := if m = Nat.pow 2 52 ∧ -1074 < x.exponent then 1 else 2
  { low := (4 * m - below) * up
    value := 4 * m * up
    high := (4 * m + 2) * up
    den := Nat.pow 2 (-e).toNat * Nat.pow 10 scale.toNat
    closed := m % 2 == 0 }

def Interval.contains (i : Interval) (n : Nat) : Bool :=
  if i.closed then i.low ≤ n * i.den && n * i.den ≤ i.high
  else i.low < n * i.den && n * i.den < i.high

/-- The grid point that reads back, the nearer one of two. -/
def Interval.point? (i : Interval) : Option Nat :=
  let below := i.value / i.den
  let above := below + 1
  match i.contains below && below != 0, i.contains above with
  | true, true =>
    if i.value - below * i.den < above * i.den - i.value then some below
    else if above * i.den - i.value < i.value - below * i.den then some above
    else some (below + below % 2)
  | true, false => some below
  | false, true => some above
  | false, false => none

/-- Tries grids from `10^scale` downwards. -/
def firstGrid (x : Binary64) : Nat → Int → Digits
  | 0, scale => ⟨(interval x scale).value / (interval x scale).den, scale⟩
  | fuel + 1, scale =>
    match (interval x scale).point? with
    | some n => ⟨n, scale⟩
    | none => firstGrid x fuel (scale - 1)

/-- Raises `k` to the least power of ten above the number. -/
def raise (x : Binary64) : Nat → Int → Int
  | 0, k => k
  | fuel + 1, k =>
    if (interval x k).den ≤ (interval x k).value then raise x fuel (k + 1) else k

/-- The `k` with `10^(k-1) ≤ x < 10^k`. -/
def magnitude (x : Binary64) : Int :=
  raise x 4 ((x.exponent + (Nat.log2 x.significand : Int)) * 30103 / 100000 - 1)

/-- Seventeen digits always read back. -/
def shortest (x : Binary64) : Digits := firstGrid x 18 (x.magnitude)

end GameLink.Binary64
