import GameLink.Envelope

/-! # Pending requests

Each request gets the next id, the decimal text of a counter, and a slot under
it. A slot gets at most one outcome and leaves the table at that moment; the
outcome waits for the request to pick it up. A request that finishes or is
given up takes its slot along, so a late reply finds nothing. A slot that left
the table without an outcome counts as lost connection.
-/
namespace GameLink

/-- How a request ends. -/
abbrev Outcome := Except Failure Envelope

structure Registry where
  /-- Ids issued so far. -/
  issued : Nat := 0
  /-- Ids whose slot has no outcome yet, in order of issue. -/
  slots : List String := []
  /-- Outcomes not yet picked up. -/
  delivered : List (String × Outcome) := []

/-- The waiting side of one request. -/
structure Ticket where
  cid : String
  registeredAt : Nat
deriving DecidableEq

namespace Registry

def nextCid (r : Registry) : String := toString (r.issued + 1)

def register (r : Registry) (now : Nat) : Registry × Ticket :=
  ({ r with issued := r.issued + 1, slots := r.slots ++ [r.nextCid] }, ⟨r.nextCid, now⟩)

def contains (r : Registry) (cid : String) : Bool := r.slots.contains cid

def size (r : Registry) : Nat := r.slots.length

def isEmpty (r : Registry) : Bool := r.slots.isEmpty

/-- Gives a slot its outcome; false when there is no such slot. -/
def resolve (r : Registry) (cid : String) (outcome : Outcome) : Registry × Bool :=
  if r.contains cid then
    ({ r with slots := r.slots.erase cid, delivered := r.delivered ++ [(cid, outcome)] }, true)
  else (r, false)

/-- Takes a slot away without an outcome. -/
def remove (r : Registry) (cid : String) : Registry × Bool :=
  ({ r with slots := r.slots.erase cid }, r.contains cid)

/-- Ends every open slot with a failure and tells how many there were. -/
def drain (r : Registry) (failure : Failure) : Registry × Nat :=
  ({ r with slots := [], delivered := r.delivered ++ r.slots.map (fun c => (c, .error failure)) },
    r.size)

/-! ## The waiting side -/

/-- What the slot of `cid` says: its outcome, a lost slot, or nothing yet. -/
def poll (r : Registry) (cid : String) : Option Outcome :=
  match r.delivered.lookup cid with
  | some outcome => some outcome
  | none => if r.contains cid then none else some (.error .notConnected)

/-- Milliseconds have no bound here: no deadline lies beyond the clock, where a clock that ends
would fail, and a failure tells the timeout as it is, also from `2 ^ 64` milliseconds on. -/
def deadline (t : Ticket) (timeout : Nat) : Nat := t.registeredAt + timeout

/-- How a wait ends at `now`, if it does. An outcome counts even when the time is up. -/
def wait (r : Registry) (t : Ticket) (timeout now : Nat) : Option Outcome :=
  match r.poll t.cid with
  | some outcome => some outcome
  | none =>
    if deadline t timeout ≤ now then some (.error (.timeout t.cid timeout)) else none

/-- The request is over: nothing of it stays. -/
def release (r : Registry) (cid : String) : Registry :=
  { r with slots := r.slots.erase cid, delivered := r.delivered.filter (fun d => d.1 != cid) }

end Registry

end GameLink
