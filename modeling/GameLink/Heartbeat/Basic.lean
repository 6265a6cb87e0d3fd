import GameLink.Failure
import GameLink.Log

/-! # Heartbeats

A ticker is due at regular times. A tick that is consumed late by more than the
tolerance moves the schedule: the next one is a whole period after it, so late
ticks never bunch. The first tick is one period after the start.

A heartbeat probes at every tick and stops at the first failing probe. A
cancellation counts before anything else due at the same moment.
-/
namespace GameLink.Heartbeat

/-- Milliseconds have no bound here: the next tick never lies beyond the clock, where a clock
that ends would fail. -/
structure Ticker where
  period : Nat
  next : Nat
deriving DecidableEq

namespace Ticker

/-- Milliseconds by which a tick may be late without moving the schedule. -/
def tolerance : Nat := 5

def start (now period : Nat) : Ticker := ⟨period, now + period⟩

def isDue (t : Ticker) (now : Nat) : Bool := t.next ≤ now

/-- The ticker after a tick consumed at `now`. -/
def consume (t : Ticker) (now : Nat) : Ticker :=
  { t with next := (if t.next + tolerance < now then now else t.next) + t.period }

end Ticker

/-! ## A heartbeat over scripted probes -/

/-- A probe that ends after a while, or never. -/
inductive Probe
  | ends (after : Nat) (outcome : Except Failure Unit)
  | hangs

inductive Result
  | failed (failure : Failure)
  | cancelled
  | running
deriving DecidableEq

structure Run where
  result : Result
  /-- When the run ended or was left. -/
  stopped : Nat
  /-- When each probe started. -/
  calls : List Nat
  log : List Log.Entry

def okNote : Log.Entry := Log.trace "heartbeat ok" []

def failedNote (f : Failure) : Log.Entry := Log.warn "heartbeat probe failed" [("error", f.message)]

def zeroNote : Log.Entry := Log.warn "heartbeat interval is zero" []

/-- What cuts a wait until `moment` short: a cancellation up to it, or the end of the watch. -/
def interrupted (cancel : Option Nat) (limit moment : Nat) : Option (Result × Nat) :=
  match cancel with
  | some c =>
    if c ≤ moment ∧ c ≤ limit then some (.cancelled, c)
    else if limit < moment then some (.running, limit) else none
  | none => if limit < moment then some (.running, limit) else none

/-- What ends a wait for something that never comes. -/
def waitForever (cancel : Option Nat) (limit : Nat) : Result × Nat :=
  (interrupted cancel limit (limit + 1)).getD (.running, limit)

/-- A probe that starts at `tick` and never ends. -/
def unanswered (cancel : Option Nat) (limit tick : Nat) : Run :=
  match interrupted cancel limit tick with
  | some (result, stopped) => ⟨result, stopped, [], []⟩
  | none => ⟨(waitForever cancel limit).1, (waitForever cancel limit).2, [tick], []⟩

/-- Runs from `now`; probes past the script never end. -/
def runFrom (cancel : Option Nat) (limit : Nat) : Ticker → Nat → List Probe → Run
  | t, now, .ends after outcome :: rest =>
    let tick := max now t.next
    match interrupted cancel limit tick with
    | some (result, stopped) => ⟨result, stopped, [], []⟩
    | none =>
      match interrupted cancel limit (tick + after), outcome with
      | some (result, stopped), _ => ⟨result, stopped, [tick], []⟩
      | none, .error f => ⟨.failed f, tick + after, [tick], [failedNote f]⟩
      | none, .ok _ =>
        let more := runFrom cancel limit (t.consume tick) (tick + after) rest
        { more with calls := tick :: more.calls, log := okNote :: more.log }
  | t, now, .hangs :: _ => unanswered cancel limit (max now t.next)
  | t, now, [] => unanswered cancel limit (max now t.next)

/-- A heartbeat that starts at 0, cancelled at `cancel` and watched until `limit`. -/
def run (interval : Nat) (cancel : Option Nat) (limit : Nat) (probes : List Probe) : Run :=
  if interval = 0 then ⟨.failed .heartbeatTimeout, 0, [], [zeroNote]⟩
  else runFrom cancel limit (.start 0 interval) 0 probes

end GameLink.Heartbeat
