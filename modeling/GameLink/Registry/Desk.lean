import GameLink.Registry.Basic

/-! # Waiting under a clock

A desk is one registry with its requests and a clock in milliseconds. A request
is held, waits with a timeout, or is gone. Time moves from deadline to
deadline, and whatever can end at a moment ends before time goes on.
-/
namespace GameLink.Registry

inductive Stage
  | held
  | waiting (timeout : Nat)
  | gone
deriving DecidableEq

structure Request where
  ticket : Ticket
  stage : Stage
deriving DecidableEq

/-- The end of a wait. -/
structure Finished where
  handle : Nat
  moment : Nat
  outcome : Outcome

structure Desk where
  now : Nat := 0
  registry : Registry := {}
  requests : List Request := []

namespace Desk

def register (d : Desk) : Desk × String :=
  let (registry, ticket) := d.registry.register d.now
  ({ d with registry := registry, requests := d.requests ++ [⟨ticket, .held⟩] }, ticket.cid)

def stage (d : Desk) (handle : Nat) : Stage :=
  match d.requests[handle]? with
  | some r => r.stage
  | none => .gone

def setStage (d : Desk) (handle : Nat) (s : Stage) : Desk :=
  { d with requests := d.requests.modify handle (fun r => { r with stage := s }) }

/-- Ends a request and takes its slot along. -/
def retire (d : Desk) (handle : Nat) : Desk :=
  match d.requests[handle]? with
  | some r => { (d.setStage handle .gone) with registry := d.registry.release r.ticket.cid }
  | none => d

/-- Drops a request that is held; false if it is not. -/
def drop (d : Desk) (handle : Nat) : Desk × Bool :=
  match d.stage handle with
  | .held => (d.retire handle, true)
  | _ => (d, false)

/-- Starts waiting on a request that is held. -/
def wait (d : Desk) (handle timeout : Nat) : Desk × Bool :=
  match d.stage handle with
  | .held => (d.setStage handle (.waiting timeout), true)
  | _ => (d, false)

/-- Gives up a wait. -/
def abort (d : Desk) (handle : Nat) : Desk :=
  match d.stage handle with
  | .waiting _ => d.retire handle
  | _ => d

/-- The outcome of a waiting request at this moment. -/
def ending (d : Desk) (handle : Nat) : Option Outcome :=
  match d.requests[handle]? with
  | some ⟨ticket, .waiting timeout⟩ => d.registry.wait ticket timeout d.now
  | _ => none

/-- Ends every wait that can end now, in order of handles. -/
def settle (d : Desk) : Desk × List Finished :=
  (List.range d.requests.length).foldl
    (fun (acc : Desk × List Finished) handle =>
      match acc.1.ending handle with
      | some outcome => (acc.1.retire handle, acc.2 ++ [⟨handle, acc.1.now, outcome⟩])
      | none => acc)
    (d, [])

def deadlines (d : Desk) : List Nat :=
  d.requests.filterMap fun r =>
    match r.stage with
    | .waiting timeout => some (deadline r.ticket timeout)
    | _ => none

/-- The next deadline after now and not after `target`. -/
def nextDeadline (d : Desk) (target : Nat) : Option Nat :=
  (d.deadlines.filter (fun t => d.now < t && t ≤ target)).min?

/-- Lets time pass up to `target`; every stop ends at least one wait. -/
def runUntil (target : Nat) : Nat → Desk → Desk × List Finished
  | 0, d => ({ d with now := target }, [])
  | fuel + 1, d =>
    match d.nextDeadline target with
    | none => ({ d with now := target }, [])
    | some t =>
      let (settled, ended) := { d with now := t }.settle
      let (last, more) := runUntil target fuel settled
      (last, ended ++ more)

def advance (d : Desk) (ms : Nat) : Desk × List Finished :=
  let (settled, ended) := d.settle
  let (last, more) := runUntil (d.now + ms) d.requests.length settled
  (last, ended ++ more)

end Desk

end GameLink.Registry
