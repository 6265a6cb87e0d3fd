import GameLink.Json.Basic
import GameLink.Json.Text
import GameLink.Binary64.Shortest

/-! # Compact JSON text

No blanks, members in the order of the list, and numbers with the fewest digits
that read back. A binary64 number is positional for decimal exponents from -5
to 15 and has at least one digit after the point; outside that range it has an
exponent with a sign.
-/
namespace GameLink.Json

/-! ## Numbers -/

def digitChars (n : Nat) : List Char := (Nat.toDigits 10 n)

def intChars (n : Int) : List Char :=
  if n < 0 then '-' :: digitChars n.natAbs else digitChars n.natAbs

/-- Cuts trailing zeros: `1200 · 10^k` and `12 · 10^(k+2)` have the same digits. -/
def trimZeros : Nat → Nat → Int → Nat × Int
  | 0, n, k => (n, k)
  | fuel + 1, n, k => if n ≠ 0 ∧ n % 10 = 0 then trimZeros fuel (n / 10) (k + 1) else (n, k)

/-- Digits with the point after the first, and the exponent of the first digit. -/
def scientific (ds : List Char) (exponent : Int) : List Char :=
  let lead :=
    match ds with
    | [] => []
    | [d] => [d]
    | d :: rest => d :: '.' :: rest
  lead ++ 'e' :: (if exponent < 0 then '-' else '+') :: digitChars exponent.natAbs

/-- Digits `ds` times `10^k`. -/
def positional (ds : List Char) (k : Int) : List Char :=
  let point : Int := ds.length + k
  if 0 ≤ k then ds ++ List.replicate k.toNat '0' ++ ['.', '0']
  else if 0 < point then ds.take point.toNat ++ '.' :: ds.drop point.toNat
  else '0' :: '.' :: List.replicate (-point).toNat '0' ++ ds

def magnitudeChars (x : Binary64) : List Char :=
  if x.isZero then ['0', '.', '0'] else
    let d := x.shortest
    let (n, k) := trimZeros 20 d.digits d.scale
    let ds := digitChars n
    let exponent : Int := ds.length + k - 1
    if -5 ≤ exponent ∧ exponent ≤ 15 then positional ds k else scientific ds exponent

def binary64Chars (x : Binary64) : List Char :=
  if x.negative then '-' :: magnitudeChars x else magnitudeChars x

def numberChars : Number → List Char
  | .int n => intChars n
  | .float x => if x.finite then binary64Chars x else "null".toList

/-! ## Values -/

def quoted (s : String) : List Char := '"' :: Text.encode s ++ ['"']

mutual
def chars : Json → List Char
  | .null => "null".toList
  | .bool b => (if b then "true" else "false").toList
  | .number n => numberChars n
  | .string s => quoted s
  | .array items => '[' :: itemChars items ++ [']']
  | .object members => '\x7b' :: memberChars members ++ ['\x7d']

def itemChars : List Json → List Char
  | [] => []
  | [v] => v.chars
  | v :: rest => v.chars ++ ',' :: itemChars rest

def memberChars : List (String × Json) → List Char
  | [] => []
  | [(k, v)] => quoted k ++ ':' :: v.chars
  | (k, v) :: rest => quoted k ++ ':' :: v.chars ++ ',' :: memberChars rest
end

/-- The text of a value. -/
def render (v : Json) : String := String.ofList v.chars

end GameLink.Json
