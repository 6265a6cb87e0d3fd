import GameLink.Event.Basic
import GameLink.Log

/-! # The event channel

Events go straight into a bounded queue while there is room. A lifecycle event
that finds no room starts a backlog and a forwarder, which moves events from the
backlog into the queue as the receiver makes room. While there is a backlog
every event queues behind it, so nothing overtakes; other events are dropped
once the backlog is as long as the queue may be. The backlog ends when the
forwarder finds it empty.

A forwarder is a task of its own: each of its steps takes one event or delivers
the one it holds. The forwarders stand in a list, so that there being at most
one is a fact about the channel and not an assumption.
-/
namespace GameLink.Event

structure Channel where
  capacity : Nat
  /-- Delivered and not yet received, oldest first. -/
  queue : List Event := []
  /-- Events waiting for a forwarder; present while one owns delivery. -/
  backlog : Option (List Event) := none
  /-- What each forwarder holds while it waits for room. -/
  forwarders : List (Option Event) := []
  receiverOpen : Bool := true
  /-- Tasks can be started. -/
  runtime : Bool := true

namespace Channel

/-- A channel holds at least one event. -/
def new (capacity : Nat) (runtime : Bool) : Channel :=
  { capacity := max capacity 1, runtime := runtime }

def hasRoom (c : Channel) : Bool := c.queue.length < c.capacity

def backlogLength (c : Channel) : Nat :=
  match c.backlog with
  | some es => es.length
  | none => 0

def dropped (message : String) (e : Event) : List Log.Entry :=
  [Log.warn message [("event", e.name)]]

/-! ## Sending -/

/-- An event while a backlog exists. -/
def queueBehind (c : Channel) (es : List Event) (e : Event) : Channel × List Log.Entry :=
  if e.isLifecycle || es.length < c.capacity then ({ c with backlog := some (es ++ [e]) }, [])
  else (c, dropped "event backlog full, dropping event" e)

/-- An event that finds the queue full. -/
def overflow (c : Channel) (e : Event) : Channel × List Log.Entry :=
  if !e.isLifecycle then (c, dropped "event channel full, dropping event" e)
  else if c.runtime then
    ({ c with backlog := some [e], forwarders := c.forwarders ++ [none] }, [])
  else (c, dropped "event channel full outside a runtime, dropping event" e)

def handle (c : Channel) (e : Event) : Channel × List Log.Entry :=
  match c.backlog with
  | some es => c.queueBehind es e
  | none =>
    if !c.receiverOpen then (c, [Log.debug "event channel closed, receiver dropped" []])
    else if c.hasRoom then ({ c with queue := c.queue ++ [e] }, [])
    else c.overflow e

/-! ## Forwarding -/

/-- Room that no waiting forwarder is due to take. -/
def mayDeliver (c : Channel) : Bool := !c.receiverOpen || c.hasRoom

/-- Whether a forwarder has something to do. -/
def forwarderReady (c : Channel) (held : Option Event) : Bool :=
  match held with
  | none => true
  | some _ => c.mayDeliver

/-- Replaces what forwarder `i` holds; `none` ends it. -/
def setForwarder (c : Channel) (i : Nat) (held : Option (Option Event)) : Channel :=
  match held with
  | some h => { c with forwarders := c.forwarders.set i h }
  | none => { c with forwarders := c.forwarders.eraseIdx i }

/-- One step of forwarder `i`. -/
def forward (c : Channel) (i : Nat) : Channel × List Log.Entry :=
  match c.forwarders[i]? with
  | none => (c, [])
  | some none =>
    match c.backlog with
    | some (e :: es) => ({ c with backlog := some es }.setForwarder i (some (some e)), [])
    | _ => ({ c with backlog := none }.setForwarder i none, [])
  | some (some e) =>
    if !c.receiverOpen then
      ({ c with backlog := none }.setForwarder i none,
        [Log.debug "event channel closed, discarding backlog" []])
    else if c.hasRoom then
      ({ c with queue := c.queue ++ [e] }.setForwarder i (some none), [])
    else (c, [])

/-! ## Receiving -/

def receive (c : Channel) : Channel × Option Event :=
  match c.queue with
  | e :: es => ({ c with queue := es }, some e)
  | [] => (c, none)

/-- The receiver goes away with everything it has not received. -/
def dropReceiver (c : Channel) : Channel := { c with receiverOpen := false, queue := [] }

/-! ## Running on its own -/

/-- Forwarders work until each waits for room or is done. -/
def settle : Nat → Channel → Channel × List Log.Entry
  | 0, c => (c, [])
  | fuel + 1, c =>
    match c.forwarders.findIdx? c.forwarderReady with
    | none => (c, [])
    | some i =>
      let (next, log) := c.forward i
      let (last, more) := settle fuel next
      (last, log ++ more)

/-- Every event takes two steps of a forwarder and its end one. -/
def work (c : Channel) : Nat := 2 * c.backlogLength + 4 * c.forwarders.length

def settled (c : Channel) : Channel × List Log.Entry := settle c.work c

end Channel

end GameLink.Event
