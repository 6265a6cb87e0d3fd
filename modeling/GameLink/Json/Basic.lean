import GameLink.Entries
import GameLink.Text.Bytes
import GameLink.Binary64.Numeral

/-! # JSON values

A value as programs hold it: numbers are integers of 64 bits or binary64, and
the members of an object are in key order, each key once. The type also admits
members in another order, which is how a document is laid out before it is
written; `sorted` puts them in order.
-/
namespace GameLink

inductive Json
  | null
  | bool (b : Bool)
  | number (n : Number)
  | string (s : String)
  | array (items : List Json)
  | object (members : List (String × Json))
deriving Inhabited

namespace Json

def ofInt (n : Int) : Json := .number (.int n)

def ofNat (n : Nat) : Json := .number (.int n)

/-- Infinities and NaN have no JSON number and become null. -/
def ofBinary64 (x : Binary64) : Json := if x.finite then .number (.float x) else .null

def ofStrings (ss : List String) : Json := .array (ss.map .string)

def isNull : Json → Bool
  | .null => true
  | _ => false

def isObject : Json → Bool
  | .object _ => true
  | _ => false

/-- The value of a member, if this is an object that has it. -/
def get? (key : String) : Json → Option Json
  | .object members => Entries.find? key members
  | _ => none

mutual
/-- Puts the members of every object in key order; of a repeated key the last stays. -/
def sorted : Json → Json
  | .array items => .array (sortedItems items)
  | .object members => .object (Entries.ofList (sortedMembers members))
  | v => v

def sortedItems : List Json → List Json
  | [] => []
  | v :: rest => v.sorted :: sortedItems rest

def sortedMembers : List (String × Json) → List (String × Json)
  | [] => []
  | (k, v) :: rest => (k, v.sorted) :: sortedMembers rest
end

mutual
/-- Every object has its keys in increasing order. -/
def Canonical : Json → Prop
  | .array items => CanonicalItems items
  | .object members => Entries.Sorted members ∧ CanonicalMembers members
  | _ => True

def CanonicalItems : List Json → Prop
  | [] => True
  | v :: rest => v.Canonical ∧ CanonicalItems rest

def CanonicalMembers : List (String × Json) → Prop
  | [] => True
  | (_, v) :: rest => v.Canonical ∧ CanonicalMembers rest
end

mutual
/-- The number of arrays and objects on the deepest path. -/
def depth : Json → Nat
  | .array items => depthItems items + 1
  | .object members => depthMembers members + 1
  | _ => 0

def depthItems : List Json → Nat
  | [] => 0
  | v :: rest => max v.depth (depthItems rest)

def depthMembers : List (String × Json) → Nat
  | [] => 0
  | (_, v) :: rest => max v.depth (depthMembers rest)
end

end Json

end GameLink
