import GameLink.Client.Run

/-! # A schedule

Workers that can go on stand in a queue in the order in which they became able
to. The first one runs until it has to wait or has taken its share of steps;
whoever it wakes joins at the end, and it joins behind them if it can go on.
One worker may stand apart: it is never queued and runs when it is called.
All that a schedule does is one of the runs of the client (`Arises.reachable`).
-/
namespace GameLink.Client

structure Schedule where
  machine : Machine
  /-- Workers that can go on, the next one first. -/
  ready : List Machine.Worker := []
  apart : Option Machine.Worker := none

namespace Schedule

open Machine (Worker)

/-- Adds the workers that have become able to go on, except the one that is running. -/
def wake (running : Option Worker) (s : Schedule) : Schedule :=
  { s with ready := s.ready ++ s.machine.workers.filter (fun w =>
      s.machine.enabled w && !s.ready.contains w && running != some w && s.apart != some w) }

def act (a : Action) (s : Schedule) : Schedule :=
  { s with machine := s.machine.act a }.wake none

/-- Runs one worker until it has to wait or its steps are used up. -/
def runWorker (w : Worker) : Nat → Schedule → Schedule
  | 0, s => s.wake none
  | fuel + 1, s =>
    if s.machine.enabled w then
      runWorker w fuel ({ s with machine := s.machine.run w }.wake (some w))
    else s

/-- The steps a worker takes at most before it gives way; a reader takes a frame a step. -/
def burst : Nat := 128

/-- More turns than a script asks for. -/
def patience : Nat := 100000

/-- Takes a worker out of the queue. -/
def setApart (w : Worker) (s : Schedule) : Schedule :=
  { s with apart := some w, ready := s.ready.filter (· != w) }

/-- Puts the worker that stands apart in line. -/
def rejoin (s : Schedule) : Schedule := { s with apart := none }.wake none

/-- Runs workers until none can go on. -/
def settle : Nat → Schedule → Schedule
  | 0, s => s
  | fuel + 1, s =>
    match s.ready with
    | [] => s
    | w :: rest => settle fuel ({ s with ready := rest }.runWorker w burst)

/-! ## What a schedule reaches -/

section
variable {s : Schedule} {may : Move → Prop}

theorem runWorker_reachable (work : ∀ w, may (.work w)) (hs : s.machine.Reachable may)
    (w : Worker) (fuel : Nat) : (s.runWorker w fuel).machine.Reachable may := by
  induction fuel generalizing s with
  | zero => exact hs
  | succ fuel ih =>
    unfold runWorker
    split
    · rename_i enabled
      exact ih (hs.step (v := .work w) enabled (work w))
    · exact hs

theorem settle_reachable (work : ∀ w, may (.work w)) (hs : s.machine.Reachable may)
    (fuel : Nat) : (s.settle fuel).machine.Reachable may := by
  induction fuel generalizing s with
  | zero => exact hs
  | succ fuel ih =>
    unfold settle
    split
    · exact hs
    · rename_i w rest _
      exact ih (runWorker_reachable (s := { s with ready := rest }) work hs w burst)

/-- How a schedule comes about: a new client, permitted actions on it, and turns of its
workers. -/
inductive Arises (may : Move → Prop) : Schedule → Prop
  | new {m : Machine} (initial : m.Initial) : Arises may { machine := m }
  | act {s : Schedule} (h : Arises may s) {a : Action} (permits : s.machine.permits a = true)
    (allowed : may (.act a)) : Arises may (s.act a)
  | runWorker {s : Schedule} (h : Arises may s) (w : Worker) (fuel : Nat) :
    Arises may (s.runWorker w fuel)
  | settle {s : Schedule} (h : Arises may s) (fuel : Nat) : Arises may (s.settle fuel)
  | setApart {s : Schedule} (h : Arises may s) (w : Worker) : Arises may (s.setApart w)
  | rejoin {s : Schedule} (h : Arises may s) : Arises may s.rejoin

/-- The order in which a schedule lets workers run is one that runs of the client have. -/
theorem Arises.reachable (work : ∀ w, may (.work w)) (h : Arises may s) :
    s.machine.Reachable may := by
  induction h with
  | new initial => exact ⟨_, initial, .refl may _⟩
  | act _ permits allowed ih => exact ih.step (v := .act _) permits allowed
  | runWorker _ w fuel ih => exact runWorker_reachable work ih w fuel
  | settle _ fuel ih => exact settle_reachable work ih fuel
  | setApart _ _ ih | rejoin _ ih => exact ih

end

end Schedule

end GameLink.Client
