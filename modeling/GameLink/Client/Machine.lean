import GameLink.Client.Call
import GameLink.Event.Channel
import GameLink.Heartbeat.Basic
import GameLink.Link.Memory
import GameLink.Link.Url
import GameLink.Product
import GameLink.Registry.Basic
import GameLink.Session.Basic

/-! # The client as a machine

A client has at most one link at a time and moves through `idle`, `connecting`,
`open` and `closing`. Every accepted connect takes the next generation number;
a link, its two background tasks and its cancellation belong to a generation.
Writes are serialised by a lock whose holder is the head of a queue of tasks.

A task stands at a position between two pieces of code that run without
interruption. The machine holds the positions of all tasks, what they share,
the links with their server ends, and a history of everything that can be
observed, newest first.
-/
namespace GameLink.Client

inductive Lifecycle
  | idle
  | connecting
  | open
  | closing
deriving DecidableEq

def Lifecycle.name : Lifecycle → String
  | .idle => "idle"
  | .connecting => "connecting"
  | .open => "open"
  | .closing => "closing"

abbrev LinkId := Nat
abbrev TaskId := Nat
abbrev Generation := Nat

/-! ## What callers ask for -/

/-- How long a request may wait for its reply. Milliseconds have no bound, as in
`Registry.deadline`. -/
inductive Bound
  | standard
  | within (ms : Nat)
  /-- Up to a moment; a moment in the past leaves no time. -/
  | until (moment : Int)
deriving DecidableEq

inductive Operation
  | connect (session : Session) (appearOnline : Option Bool)
  /-- Starts a session over an access token and connects with it. -/
  | signIn (token : String) (appearOnline : Option Bool)
  | close (notify : Bool)
  | send (message : Outbound)
  | request (message : Outbound) (bound : Bound)
  | perform (call : Call)

/-- How an operation ends. -/
inductive Result
  | ok (answer : Answer)
  | failed (failure : Failure)
  | badToken (error : TokenError)
  | overflow (fault : Overflow)

/-! ## Tasks -/

/-- A message on its way, with the ticket of the reply it waits for. -/
structure Exchange where
  message : Outbound
  ticket : Option Ticket
  timeout : Nat

inductive ExchangeStage
  /-- In the queue for the writer, or at its head. -/
  | queued
  /-- Holds the writer while the write does not complete. -/
  | stalled (deadline : Nat)
  | awaiting
deriving DecidableEq

structure Teardown where
  generation : Generation
  cause : Cause
  notify : Bool
deriving DecidableEq

inductive TeardownStage
  | queued
  /-- Holds the writer's link, whose close does not complete. -/
  | closing (link : LinkId) (deadline : Nat)
deriving DecidableEq

inductive DialStage
  /-- Before the dial takes effect; a failure set when it began comes then. -/
  | delayed (wake : Nat) (failure : Option Failure)
  | hung
deriving DecidableEq

inductive Position
  | start
  | dialing (generation : Generation) (url : String) (deadline : Nat) (stage : DialStage)
  /-- In the queue for the writer with a link to install. -/
  | installing (generation : Generation) (link : LinkId)
  /-- Closing a link that came too late does not complete. -/
  | discarding (link : LinkId)
  | exchanging (x : Exchange) (stage : ExchangeStage)
  | tearing (t : Teardown) (stage : TeardownStage)
  | reading
  | ticking (ticker : Heartbeat.Ticker)
  | probing (ticker : Heartbeat.Ticker) (x : Exchange) (stage : ExchangeStage)

inductive Role
  | operation (op : Operation)
  | reader (generation : Generation) (link : LinkId)
  | heartbeat (generation : Generation)

structure Task where
  id : TaskId
  role : Role
  position : Position
  /-- The task is to be dropped where it stands. -/
  aborted : Bool := false

def Task.isOperation (t : Task) : Bool :=
  match t.role with
  | .operation _ => true
  | _ => false

/-! ## Surroundings -/

structure Dialer where
  mode : DialMode := .accept
  delay : Nat := 0
  /-- Dials that begin now fail with this. -/
  failure : Option Failure := none

/-- What closing a link writer does. -/
inductive CloseMode
  | normal
  | fail
  | hang
deriving DecidableEq

/-- How the application wants its events. -/
inductive Delivery
  /-- Each event as it happens. -/
  | direct
  /-- Through a bounded channel of the configured size. -/
  | channel
deriving DecidableEq

/-- Who receives events. -/
inductive Handler
  | direct
  | channel (c : Event.Channel)

def Handler.new (settings : Settings) : Delivery → Handler
  | .direct => .direct
  | .channel => .channel (.new settings.realtime.eventBufferSize.toNat true)

/-- What happens after a disconnect that the application did not ask for. -/
inductive Policy
  | notify
  | manual
  /-- Signs in again while the client is in use, at most `left` times. -/
  | redial (left : Nat) (token : String)

inductive Observation
  | event (e : Event)
  /-- What the client shows of itself while it hands an event on: the state, and how many requests
  are in its table. -/
  | shown (state : Lifecycle) (pending : Nat)
  | log (entry : Log.Entry)
  /-- The policy is told of a disconnect. -/
  | disconnect (cause : Cause)
  | dialed (task : TaskId) (link : LinkId) (url : String)
  | started (task : TaskId) (op : Operation)
  | finished (task : TaskId) (result : Result)
  /-- The link of a generation is installed. -/
  | opened (generation : Generation) (link : LinkId)
  /-- The teardown of a task takes effect. -/
  | closing (task : TaskId) (teardown : Teardown)
  /-- A teardown drains the requests. -/
  | closed (generation : Generation) (cause : Cause)
  /-- A request or a probe gets its id. -/
  | issued (task : TaskId) (cid : String)
  | answered (task : TaskId) (cid : String) (outcome : Except Failure Answer)
  /-- A write on a link completes; what it wrote is the text of the frame. -/
  | wrote (task : TaskId) (link : LinkId) (frame : Envelope.Outgoing)
  /-- The reader takes a frame from its link. -/
  | dispatched (link : LinkId) (frame : Bytes)
  /-- The server end puts something on its way. -/
  | pushed (link : LinkId) (frame : ServerFrame)
  /-- The server end reads a frame. -/
  | taken (link : LinkId) (frame : String)

/-- An observation and its moment. -/
structure Record where
  moment : Nat
  what : Observation

structure Machine where
  settings : Settings
  /-- The wall clock, in seconds since 1970. -/
  clock : Int := Product.presentSeconds
  /-- Milliseconds since the start. -/
  now : Nat := 0
  state : Lifecycle := .idle
  generation : Generation := 0
  /-- The generation whose cancellation is stored. -/
  cancel : Option Generation := none
  /-- The generations that are cancelled. -/
  cancelled : List Generation := []
  /-- The link that writes go to. -/
  writer : Option LinkId := none
  /-- The holder of the writer lock and the tasks behind it. -/
  lockQueue : List TaskId := []
  registry : Registry := {}
  links : List Link := []
  dialer : Dialer := {}
  closeMode : CloseMode := .normal
  handler : Handler := .direct
  policy : Policy := .notify
  tasks : List Task := []
  nextTask : TaskId := 0
  /-- The application still holds the client. -/
  held : Bool := true
  history : List Record := []

/-- A client over usable settings. -/
def build (settings : Settings) (delivery : Delivery) (policy : Policy) : Except Failure Machine :=
  match settings.invalid? with
  | some i => .error (.ofInvalid i)
  | none => .ok { settings := settings, handler := .new settings delivery, policy := policy }

namespace Machine

/-! ## Observing -/

def record (o : Observation) (m : Machine) : Machine :=
  { m with history := ⟨m.now, o⟩ :: m.history }

def log (entry : Log.Entry) (m : Machine) : Machine := m.record (.log entry)

def logAll (entries : List Log.Entry) (m : Machine) : Machine :=
  entries.foldl (fun m e => m.log e) m

def emit (e : Event) (m : Machine) : Machine :=
  let m := (m.record (.shown m.state m.registry.size)).record (.event e)
  match m.handler with
  | .direct => m
  | .channel c => { m with handler := .channel (c.handle e).1 }.logAll (c.handle e).2

/-! ## Tasks -/

def task? (m : Machine) (id : TaskId) : Option Task := m.tasks.find? (fun t => t.id == id)

def move (id : TaskId) (position : Position) (m : Machine) : Machine :=
  { m with tasks := m.tasks.map (fun t => if t.id = id then { t with position := position } else t) }

def spawn (role : Role) (m : Machine) : Machine :=
  { m with
    tasks := m.tasks ++ [⟨m.nextTask, role, .start, false⟩]
    nextTask := m.nextTask + 1 }

def start (op : Operation) (m : Machine) : Machine :=
  (m.spawn (.operation op)).record (.started m.nextTask op)

def isCancelled (m : Machine) (g : Generation) : Bool := m.cancelled.contains g

/-- Cancels the tasks of the stored generation. -/
def cancelStored (m : Machine) : Machine :=
  match m.cancel with
  | some g => { m with cancel := none, cancelled := g :: m.cancelled }
  | none => m

/-! ## Links -/

def updateLink (id : LinkId) (f : Link → Link) (m : Machine) : Machine :=
  { m with links := m.links.modify id f }

def closeWriter (id : LinkId) (m : Machine) : Machine := m.updateLink id Link.closeWriter

def closeReader (id : LinkId) (m : Machine) : Machine := m.updateLink id Link.closeReader

/-! ## The writer lock -/

def joinLock (id : TaskId) (m : Machine) : Machine := { m with lockQueue := m.lockQueue ++ [id] }

def leaveLock (id : TaskId) (m : Machine) : Machine := { m with lockQueue := m.lockQueue.erase id }

def holdsLock (m : Machine) (id : TaskId) : Bool := m.lockQueue.head? == some id

/-! ## The end of a task -/

/-- Somebody can still ask for something: the application holds the client, or an operation
that is under way does. -/
def inUse (m : Machine) : Bool := m.held || m.tasks.any Task.isOperation

/-- Nobody can ask for anything any more: the link's tasks are cancelled. -/
def releaseHandle (m : Machine) : Machine := if m.inUse then m else m.cancelStored

/-- Nothing uses the writer any more. -/
def releaseWriter (m : Machine) : Machine :=
  if m.held || !m.tasks.isEmpty then m
  else
    match m.writer with
    | some link => { m with writer := none }.closeWriter link
    | none => m

def release (m : Machine) : Machine := m.releaseHandle.releaseWriter

def removeTask (id : TaskId) (m : Machine) : Machine :=
  { m with tasks := m.tasks.filter (fun t => t.id != id) }.release

/-- Ends an operation with its result. -/
def finish (id : TaskId) (result : Result) (m : Machine) : Machine :=
  (m.record (.finished id result)).removeTask id

end Machine

end GameLink.Client
