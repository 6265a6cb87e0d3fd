import GameLink.Client.Schedule

/-! # Rehearsals

A rehearsal plays a script against a client: callers' operations by name, what
the server ends do, and the passing of time. Whenever nothing else can go on,
the server side accepts the links that were dialed and reads its ends, which
may answer pings and calls by themselves.
-/
namespace GameLink.Client

/-- What the server ends answer by themselves. -/
inductive AutoReply
  | off
  | pong
  /-- Pings, and remote calls with the call itself. -/
  | echo
deriving DecidableEq

/-- What a server end has read: a frame, or the end of the client's writer. -/
structure Received where
  link : LinkId
  moment : Nat
  frame : Option String

structure Rehearsal where
  schedule : Schedule
  auto : AutoReply := .off
  /-- The names callers gave to their operations. -/
  names : List (TaskId × String) := []
  /-- The operations that can be given up, newest first; a name means the newest one. -/
  handles : List (String × TaskId) := []
  /-- How many links the server side has accepted, in the order they were dialed. -/
  accepted : Nat := 0
  /-- Links whose client end is known to be gone. -/
  ended : List LinkId := []
  /-- What the server ends have read since the last report. -/
  received : List Received := []

inductive Command
  | start (name : String) (op : Operation) (inline : Bool)
  | advance (ms : Nat)
  | abort (name : String)
  | dropClient
  | describe
  | receive
  | dialMode (mode : DialMode)
  | acceptDials
  | dialDelay (ms : Nat)
  | dialFailure (f : Failure)
  | closeMode (mode : CloseMode)
  | serverSend (link : Option LinkId) (bytes : Bytes)
  | serverFail (link : Option LinkId) (reason : String)
  | serverMode (link : Option LinkId) (mode : WriteMode)
  | serverClose (link : Option LinkId)
  | auto (mode : AutoReply)

/-- What a command answers by itself. -/
inductive Response
  | nothing
  | flag (b : Bool)
  | text (s : String)
  | event (e : Event)
  | noLink

/-- What is seen after a command. -/
structure Report where
  response : Response
  machine : Machine
  /-- Oldest first. -/
  records : List Record
  /-- Links that the server side has accepted, with their addresses. -/
  links : List (LinkId × String)
  received : List Received

namespace Rehearsal

open Machine (Worker)

def machine (r : Rehearsal) : Machine := r.schedule.machine

def act (a : Action) (r : Rehearsal) : Rehearsal := { r with schedule := r.schedule.act a }

/-! ## The server ends -/

/-- The body a server end answers by itself to a frame. -/
def autoBody (auto : AutoReply) (frame : Json) : Option Json :=
  if auto ≠ .off ∧ (frame.get? "ping").isSome then some (.object [("pong", .object [])])
  else if auto = .echo then (frame.get? "rpc").map (fun call => .object [("rpc", call)])
  else none

def answerFrame (link : LinkId) (text : String) (r : Rehearsal) : Rehearsal :=
  match Json.ofText? text with
  | none => r
  | some frame =>
    match autoBody r.auto frame with
    | none => r
    | some body =>
      r.act (.serverPush link (.data (Bytes.ofText (Link.replyBody frame body).render)))

def see (link : LinkId) (frame : Option String) (r : Rehearsal) : Rehearsal :=
  { r with received := r.received ++ [⟨link, r.machine.now, frame⟩] }

/-- Reads one link until it has nothing more. -/
def readLink (link : LinkId) : Nat → Rehearsal → Rehearsal
  | 0, r => r
  | fuel + 1, r =>
    match r.machine.links[link]? with
    | none => r
    | some l =>
      if !l.serverOpen then r
      else
        match l.take.2 with
        | .frame text =>
          let r := r.act (.serverTake link)
          readLink link fuel ((r.see link (some text)).answerFrame link text)
        | .closed =>
          if r.ended.contains link then r
          else
            { r with ended := link :: r.ended }.see link none
        | .nothing => r

/-- Accepts every link that was dialed and reads them all. -/
def readLinks (r : Rehearsal) : Rehearsal :=
  (List.range r.machine.links.length).foldl
    (fun r link =>
      match r.machine.links[link]? with
      | some l => readLink link (l.toServer.length + 1) r
      | none => r) { r with accepted := r.machine.links.length }

/-- The links accepted from number `start` on. -/
def acceptedFrom (start : Nat) (r : Rehearsal) : List (LinkId × String) :=
  ((List.range r.accepted).drop start).filterMap (fun link =>
    (r.machine.links[link]?).map (fun l => (link, l.url)))

/-! ## Running -/

/-- Works until nobody can go on and the server ends have read everything. -/
def quiesce : Nat → Rehearsal → Rehearsal
  | 0, r => r
  | fuel + 1, r =>
    let r := { r with schedule := r.schedule.settle Schedule.patience }.readLinks
    if r.schedule.ready.isEmpty then r else quiesce fuel r

def settled (r : Rehearsal) : Rehearsal := r.quiesce Schedule.patience

/-- Lets time pass to `moment`, which is no deadline later than the next one. -/
def moveTo (moment : Nat) (r : Rehearsal) : Rehearsal :=
  (r.act (.elapse (moment - r.machine.now))).settled

/-- Lets time pass from deadline to deadline; every stop takes at least a millisecond. -/
def advanceTo (target : Nat) : Nat → Rehearsal → Rehearsal
  | 0, r => r
  | fuel + 1, r =>
    match r.machine.nextDeadline with
    | some d => if d ≤ target then advanceTo target fuel (r.moveTo d) else r.moveTo target
    | none => r.moveTo target

def advance (ms : Nat) (r : Rehearsal) : Rehearsal :=
  advanceTo (r.machine.now + ms) (ms + 1) r.settled

/-! ## Operations -/

def nameOf (r : Rehearsal) (id : TaskId) : String := (r.names.lookup id).getD "redial"

/-- Waits for the worker of a task that stands apart. Others work until they wait for it or for
time; it goes first when time has passed. The server side does nothing meanwhile. -/
def await (id : TaskId) : Nat → Rehearsal → Rehearsal
  | 0, r => r
  | fuel + 1, r =>
    if (r.machine.task? id).isNone then r
    else
      let others := r.schedule.settle Schedule.patience
      let s := others.runWorker (.task id) Schedule.burst
      if (s.machine.task? id).isNone || !s.ready.isEmpty then await id fuel { r with schedule := s }
      else
        match s.machine.nextDeadline with
        | none => { r with schedule := s }
        | some d =>
          let s := s.act (.elapse (d - s.machine.now))
          await id fuel { r with schedule := s.runWorker (.task id) Schedule.burst }

/-- Runs a new task to its end at once instead of queueing it. -/
def runInline (id : TaskId) (r : Rehearsal) : Rehearsal :=
  let s := (r.schedule.setApart (.task id)).runWorker (.task id) Schedule.burst
  let r := await id Schedule.patience { r with schedule := s }
  { r with schedule := r.schedule.rejoin }

def start (name : String) (op : Operation) (inline : Bool) (r : Rehearsal) : Rehearsal :=
  let id := r.machine.nextTask
  let r := { r with names := (id, name) :: r.names }.act (.start op)
  if inline then r.runInline id else { r with handles := (name, id) :: r.handles }

def abort (name : String) (r : Rehearsal) : Rehearsal :=
  match r.handles.lookup name with
  | some id => if (r.machine.task? id).isSome then r.act (.abort id) else r
  | none => r

/-! ## Commands -/

def describe (m : Machine) : String :=
  let state := match m.state with
    | .idle => "Idle"
    | .connecting => "Connecting"
    | .open => "Open"
    | .closing => "Closing"
  "RealtimeClient \x7b state: " ++ state ++ ", pending: " ++ toString m.registry.size ++ ", .. \x7d"

/-- The server end meant: the one named, or the newest, if it is accepted and still there. -/
def serverLink (link : Option LinkId) (r : Rehearsal) : Option LinkId :=
  let id := link.getD (r.accepted - 1)
  if id < r.accepted ∧ r.machine.serverPresent id then some id else none

def onServer (link : Option LinkId) (r : Rehearsal)
    (f : LinkId → Rehearsal × Response) : Rehearsal × Response :=
  match r.serverLink link with
  | some id => f id
  | none => (r, .noLink)

def readerOpen (r : Rehearsal) (link : LinkId) : Bool :=
  match r.machine.links[link]? with
  | some l => l.readerOpen
  | none => false

def setDialer (f : Dialer → Dialer) (r : Rehearsal) : Rehearsal :=
  r.act (.setDialer (f r.machine.dialer))

def execute (c : Command) (r : Rehearsal) : Rehearsal × Response :=
  match c with
  | .start name op inline =>
    if r.machine.held then (r.start name op inline, .nothing) else (r, .noLink)
  | .advance ms => (r.advance ms, .nothing)
  | .abort name => (r.abort name, .nothing)
  | .dropClient => (r.act .dropHandle, .flag r.machine.held)
  | .describe => (r, if r.machine.held then .text (describe r.machine) else .nothing)
  | .receive =>
    match r.machine.receive.2 with
    | some e => (r.act .receive, .event e)
    | none => (r, .nothing)
  | .dialMode mode => (r.setDialer (fun d => { d with mode := mode }), .nothing)
  | .acceptDials => ((r.setDialer (fun _ => {})).act (.setCloseMode .normal), .nothing)
  | .dialDelay ms => (r.setDialer (fun d => { d with delay := ms }), .nothing)
  | .dialFailure f => (r.setDialer (fun d => { d with failure := some f }), .nothing)
  | .closeMode mode => (r.act (.setCloseMode mode), .nothing)
  | .serverSend link bytes =>
    r.onServer link fun id => (r.act (.serverPush id (.data bytes)), .flag (r.readerOpen id))
  | .serverFail link reason =>
    r.onServer link fun id => (r.act (.serverPush id (.fail reason)), .nothing)
  | .serverMode link mode => r.onServer link fun id => (r.act (.serverMode id mode), .nothing)
  | .serverClose link => r.onServer link fun id => (r.act (.serverClose id), .nothing)
  | .auto mode => ({ r with auto := mode }, .nothing)

/-- One command; without `pause` the next one follows before any task runs. -/
def play (c : Command) (pause : Bool) (r : Rehearsal) : Rehearsal × Report :=
  let mark := r.machine.history.length
  let known := r.accepted
  let (r, response) := r.execute c
  let r := if pause then r.settled else r
  let records := (r.machine.history.take (r.machine.history.length - mark)).reverse
  ({ r with received := [] }, ⟨response, r.machine, records, r.acceptedFrom known, r.received⟩)

end Rehearsal

/-- A rehearsal of a new client. -/
def rehearse (settings : Settings) (delivery : Delivery) (policy : Policy) (auto : AutoReply) :
    Except Failure Rehearsal :=
  (build settings delivery policy).map (fun m => { schedule := { machine := m }, auto := auto })

end GameLink.Client
