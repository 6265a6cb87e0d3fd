import GameLink.Proofs.Client.Observed

/-! # What a step can do

Whatever happens to a machine is a course of changes. A change says what it asks
of the machine, what is observed, and what the machine is afterwards apart from
its history. Changes come in families: what happens outside, what the last owner
lets go, connecting, exchanging, the background tasks of a link, its teardown,
and the end of an operation. Only some changes of connecting and of a teardown
move the lifecycle, and a step has at most one of those (`Course`).
-/
namespace GameLink.Client

/-- The operation registers a request. -/
def Operation.requests : Operation → Bool
  | .request _ _ => true
  | .perform call => call.message.isOk && call.awaitsReply
  | _ => false

/-- The message that the operation is to send. -/
def Operation.message? : Operation → Option Outbound
  | .send message | .request message _ => some message
  | .perform call => call.message.toOption
  | _ => none

/-- The operation is to open a link. -/
def Operation.connects : Operation → Bool
  | .connect _ _ | .signIn _ _ => true
  | _ => false

theorem Operation.requests_eq_false {op : Operation} (h : op.message? = none) :
    op.requests = false := by
  cases op with
  | request message bound => cases h
  | perform call =>
    have silent : call.message.toOption = none := h
    cases hc : call.message with
    | error f => rw [requests, hc]; rfl
    | ok message => rw [hc] at silent; cases silent
  | _ => rfl

/-- Where a task of a role can stand. -/
inductive Fits : Role → Position → Prop
  | start {r} : Fits r .start
  | dialing {op g url d s} (hm : op.message? = none) : Fits (.operation op) (.dialing g url d s)
  | installing {op g l} (hm : op.message? = none) : Fits (.operation op) (.installing g l)
  | discarding {op l} (hm : op.message? = none) : Fits (.operation op) (.discarding l)
  | exchanging {op x s} (h : x.ticket.isSome = op.requests) (hm : op.message? = some x.message) :
      Fits (.operation op) (.exchanging x s)
  | closing {n g s} : Fits (.operation (.close n)) (.tearing ⟨g, .user, n⟩ s)
  | reading {g l} : Fits (.reader g l) .reading
  | remote {g l g' s} : Fits (.reader g l) (.tearing ⟨g', .remote, true⟩ s)
  | failed {g l g' reason s} :
      Fits (.reader g l) (.tearing ⟨g', .error (.transport reason), true⟩ s)
  | ticking {g k} : Fits (.heartbeat g) (.ticking k)
  | probing {g k x s} (h : x.ticket.isSome = true) (hm : x.message = .ping) :
      Fits (.heartbeat g) (.probing k x s)
  | silent {g g' s} : Fits (.heartbeat g) (.tearing ⟨g', .heartbeat, true⟩ s)

/-- The link that a connect has dialed and that is not installed. -/
def Position.held : Position → Option LinkId
  | .installing _ link => some link
  | .discarding link => some link
  | _ => none

/-- Tasks stand where their roles allow, each under an id of its own already given, readers and
connects on links that exist, and only operations are told to stop. -/
structure Fit (m : Machine) : Prop where
  nodup : (m.tasks.map Task.id).Nodup
  fits : ∀ i t, m.task? i = some t → Fits t.role t.position
  fresh : ∀ i t, m.task? i = some t → i < m.nextTask
  linked : ∀ i t g l, m.task? i = some t → t.role = .reader g l → l < m.links.length
  lodged : ∀ i t l, m.task? i = some t → t.position.held = some l → l < m.links.length
  told : ∀ i t, m.task? i = some t → t.aborted = true → t.isOperation = true

theorem Fit.not_aborted {m : Machine} {i : TaskId} {t : Task} (h : Fit m)
    (ht : m.task? i = some t) (hb : t.isOperation = false) : t.aborted = false := by
  rw [Bool.eq_false_iff]
  intro ha
  cases hb.symm.trans (h.told i t ht ha)

/-! ## What a frame says -/

/-- The request that a frame answers, and how it ends. -/
def replyIn (frame : Bytes) : Option (String × Outcome) :=
  match Envelope.decode frame with
  | .ok e => e.cid.map (fun cid => (cid, Machine.replyOutcome e))
  | .error _ => none

/-- What the application hears of a frame that answers no request. -/
def eventIn (frame : Bytes) : Option Event :=
  match Envelope.decode frame with
  | .error _ => some (.undecodable frame)
  | .ok e =>
    match e.cid, e.error with
    | some _, _ => none
    | none, some error => some (.serverError (.errorReply error))
    | none, none => some (.push e)

def hear (frame : Bytes) (r : Registry) : Registry :=
  match replyIn frame with
  | some (cid, outcome) => (r.resolve cid outcome).1
  | none => r

theorem hear_issued (frame : Bytes) (r : Registry) : (hear frame r).issued = r.issued := by
  unfold hear Registry.resolve
  split
  · split <;> rfl
  · rfl

/-- What is observed while the application hears of a frame. -/
def heard (m : Machine) (frame : Bytes) : List Observation :=
  match eventIn frame with
  | some e => [.shown m.state m.registry.size, .event e]
  | none => []

/-! ## Hosts of exchanges -/

/-- Who carries out an exchange: an operation, or a heartbeat with its ticker. -/
inductive Host
  | operation (op : Operation)
  | heartbeat (g : Generation) (ticker : Heartbeat.Ticker)

namespace Host

def role : Host → Role
  | .operation op => .operation op
  | .heartbeat g _ => .heartbeat g

def position : Host → Exchange → ExchangeStage → Position
  | .operation _, x, s => .exchanging x s
  | .heartbeat _ k, x, s => .probing k x s

/-- What is to be said: a heartbeat says the same each time. -/
def message? : Host → Option Outbound
  | .operation op => op.message?
  | .heartbeat _ _ => some .ping

/-- How long the reply is waited for. -/
def bound (m : Machine) : Host → Nat
  | .operation (.request _ bound) => m.boundMs bound
  | .operation _ => m.boundMs .standard
  | .heartbeat _ _ => m.interval

/-- Operations go on by themselves, a heartbeat while its link is not cancelled. -/
def Live (m : Machine) : Host → Prop
  | .operation _ => True
  | .heartbeat g _ => m.isCancelled g = false

/-- A request begins with its operation, or when a ticker is due. -/
def Ready (m : Machine) (t : Task) : Host → Prop
  | .operation op => t.role = .operation op ∧ t.position = .start ∧ op.requests = true
  | .heartbeat g k => ∃ old : Heartbeat.Ticker, t.role = .heartbeat g ∧ t.position = .ticking old ∧
      m.isCancelled g = false ∧ old.isDue m.now = true ∧ k = old.consume m.now

/-- At the end of its exchange an operation is over and a heartbeat ticks on. -/
def released (id : TaskId) : Host → List Task → List Task
  | .operation _, ts => without id ts
  | .heartbeat _ k, ts => placed id (.ticking k) ts

def farewell (id : TaskId) (outcome : Except Failure Answer) : Host → List Observation
  | .operation op => [.finished id (Machine.conclude op outcome)]
  | .heartbeat _ _ => []

end Host

/-! ## Families of changes -/

section
variable (m : Machine) (t : Task)

inductive Outside : List Observation → Machine → Prop
  | nothing : Outside [] m
  | started (op : Operation) (policy : Policy) (h : m.inUse = true) :
      Outside [.started m.nextTask op]
        { m with
          tasks := m.tasks ++ [⟨m.nextTask, .operation op, .start, false⟩]
          nextTask := m.nextTask + 1
          policy := policy }
  | aborted (id : TaskId) (h : (m.task? id).any Task.isOperation = true) :
      Outside []
        { m with
          tasks := m.tasks.map (fun t => if t.id = id then { t with aborted := true } else t) }
  | unheld : Outside [] { m with held := false }
  | ambient (dialer : Dialer) (closeMode : CloseMode) (clock : Int) :
      Outside [] { m with dialer := dialer, closeMode := closeMode, clock := clock }
  | elapsed (ms : Nat) (h : m.mayElapse ms = true) : Outside [] { m with now := m.now + ms }
  | pushed (link : LinkId) (l : Link) (frame : ServerFrame) (hl : m.links[link]? = some l)
      (hs : l.serverOpen = true) (hr : l.readerOpen = true) :
      Outside [.pushed link frame]
        { m with links := m.links.modify link (fun _ => (l.push frame).1) }
  | serverMode (link : LinkId) (mode : WriteMode) :
      Outside [] { m with links := m.links.modify link (fun l => l.setMode mode) }
  | serverClosed (link : LinkId) :
      Outside [] { m with links := m.links.modify link Link.closeServer }
  | taken (link : LinkId) (l : Link) (text : String) (hl : m.links[link]? = some l)
      (ht : l.take.2 = .frame text) :
      Outside [.taken link text] { m with links := m.links.modify link (fun _ => l.take.1) }

/-- The last owner of a client that the application has dropped lets go. -/
inductive Released : List Observation → Machine → Prop
  | cancelled (g : Generation) (hu : m.inUse = false) (hc : m.cancel = some g) :
      Released [] { m with cancel := none, cancelled := g :: m.cancelled }
  | emptied (link : LinkId) (hh : m.held = false) (ht : m.tasks = []) (hc : m.cancel = none)
      (hw : m.writer = some link) :
      Released [] { m with writer := none, links := m.links.modify link Link.closeWriter }

def replaceWriter (links : List Link) : Option LinkId → List Link
  | some old => links.modify old Link.closeWriter
  | none => links

inductive Connecting : List Observation → Machine → Prop
  | begun (op : Operation) (url : String) (deadline : Nat) (stage : DialStage)
      (hr : t.role = .operation op) (hp : t.position = .start) (hm : op.message? = none)
      (hs : m.state = .idle)
      (hd : deadline = m.now + m.settings.realtime.connectTimeout.toNat)
      (hw : ∃ wake failure, stage = .delayed wake failure ∧ m.now ≤ wake)
      (hc : op.connects = true) :
      Connecting []
        { m with
          state := .connecting
          generation := m.generation + 1
          tasks := placed t.id (.dialing (m.generation + 1) url deadline stage) m.tasks }
  | backedOut (n : Bool) (hr : t.role = .operation (.close n)) (hp : t.position = .start)
      (hs : m.state = .connecting) :
      Connecting [] { m with generation := m.generation + 1, state := .idle }
  | hung (op : Operation) (g : Generation) (url : String) (deadline wake : Nat)
      (hr : t.role = .operation op)
      (hp : t.position = .dialing g url deadline (.delayed wake none)) :
      Connecting [] { m with tasks := placed t.id (.dialing g url deadline .hung) m.tasks }
  | abandoned (g : Generation) (url : String) (deadline : Nat) (stage : DialStage)
      (hp : t.position = .dialing g url deadline stage) (hg : m.generation = g)
      (hs : m.state = .connecting) :
      Connecting [] { m with state := .idle }
  | dialed (op : Operation) (g : Generation) (url : String) (deadline : Nat) (stage : DialStage)
      (hr : t.role = .operation op) (hp : t.position = .dialing g url deadline stage) :
      Connecting [.dialed t.id m.links.length url]
        { m with
          links := m.links ++ [{ url := url }]
          lockQueue := m.lockQueue ++ [t.id]
          tasks := placed t.id (.installing g m.links.length) m.tasks }
  | installed (op : Operation) (g : Generation) (link : LinkId) (hr : t.role = .operation op)
      (hp : t.position = .installing g link) (hl : m.holdsLock t.id = true)
      (hg : m.generation = g) (hs : m.state = .connecting) :
      Connecting
        [.opened g link, .shown .open m.registry.size, .event .connected,
          .finished t.id (.ok .nothing)]
        { m with
          state := .open
          cancel := some g
          writer := some link
          links := replaceWriter m.links m.writer
          lockQueue := m.lockQueue.erase t.id
          tasks := without t.id (m.tasks ++ [⟨m.nextTask, .reader g link, .start, false⟩] ++
            [⟨m.nextTask + 1, .heartbeat g, .start, false⟩])
          nextTask := m.nextTask + 2 }
  | outdated (op : Operation) (g : Generation) (link : LinkId) (hr : t.role = .operation op)
      (hp : t.position = .installing g link) (hl : m.holdsLock t.id = true)
      (hg : ¬ (m.generation = g ∧ m.state = .connecting)) :
      Connecting []
        { m with
          lockQueue := m.lockQueue.erase t.id
          tasks := placed t.id (.discarding link) m.tasks }
  | discarded (op : Operation) (link : LinkId) (f : Failure) (hr : t.role = .operation op)
      (hp : t.position = .discarding link) :
      Connecting [.finished t.id (.failed f)]
        { m with
          links := (m.links.modify link Link.closeWriter).modify link Link.closeReader
          tasks := without t.id m.tasks }

/-- Why a message was not sent. -/
inductive NotSent (x : Exchange) : ExchangeStage → Failure → Prop
  | noWriter (hl : m.holdsLock t.id = true)
      (hw : m.writer.bind (fun l => (m.links[l]?).map (fun link => (l, link))) = none) :
      NotSent x .queued .notConnected
  | refused (l : LinkId) (link : Link) (f : Failure) (hl : m.holdsLock t.id = true)
      (hw : m.writer = some l) (hk : m.links[l]? = some link)
      (hf : (link.write (Machine.frameOf x).toText).2 = .failed f) : NotSent x .queued f
  | timedOut (deadline : Nat) (h : deadline ≤ m.now) :
      NotSent x (.stalled deadline) m.sendTimeoutFailure

inductive Exchanging : List Observation → Machine → Prop
  | sending (op : Operation) (message : Outbound) (hr : t.role = .operation op)
      (hp : t.position = .start) (hq : op.requests = false) (hs : m.state = .open)
      (hm : op.message? = some message) :
      Exchanging []
        { m with
          lockQueue := m.lockQueue ++ [t.id]
          tasks := placed t.id (.exchanging ⟨message, none, 0⟩ .queued) m.tasks }
  | requesting (host : Host) (x : Exchange) (hh : host.Ready m t)
      (hx : x.ticket = some (m.registry.register m.now).2) (hs : m.state = .open)
      (hm : host.message? = some x.message) (hb : x.timeout = host.bound m) :
      Exchanging [.issued t.id m.registry.nextCid]
        { m with
          registry := (m.registry.register m.now).1
          lockQueue := m.lockQueue ++ [t.id]
          tasks := placed t.id (host.position x .queued) m.tasks }
  | refused (host : Host) (hh : host.Ready m t) (hs : m.state ≠ .open) :
      Exchanging
        ([.issued t.id m.registry.nextCid,
          .answered t.id m.registry.nextCid (.error .notConnected)] ++
          host.farewell t.id (.error .notConnected))
        { m with
          registry := (m.registry.register m.now).1.release m.registry.nextCid
          tasks := host.released t.id m.tasks }
  | stalled (host : Host) (x : Exchange) (l : LinkId) (link : Link) (hr : t.role = host.role)
      (hv : host.Live m) (hp : t.position = host.position x .queued)
      (hl : m.holdsLock t.id = true) (hw : m.writer = some l) (hk : m.links[l]? = some link)
      (hf : (link.write (Machine.frameOf x).toText).2 = .stalls) :
      Exchanging []
        { m with
          tasks := placed t.id
            (host.position x (.stalled (m.now + m.settings.realtime.sendTimeout.toNat))) m.tasks }
  | written (host : Host) (x : Exchange) (l : LinkId) (link link' : Link) (hr : t.role = host.role)
      (hv : host.Live m) (hp : t.position = host.position x .queued)
      (hl : m.holdsLock t.id = true) (hw : m.writer = some l) (hk : m.links[l]? = some link)
      (hf : link.write (Machine.frameOf x).toText = (link', .sent)) :
      Exchanging [.wrote t.id l (Machine.frameOf x)]
        { m with
          links := m.links.modify l (fun _ => link')
          lockQueue := m.lockQueue.erase t.id
          tasks := placed t.id (host.position x .awaiting) m.tasks }
  | sent (op : Operation) (x : Exchange) (hr : t.role = .operation op)
      (hp : t.position = .exchanging x .awaiting) (hx : x.ticket = none) :
      Exchanging [.finished t.id (Machine.conclude op (.ok .nothing))]
        { m with tasks := without t.id m.tasks }
  | notSent (op : Operation) (x : Exchange) (stage : ExchangeStage) (f : Failure)
      (hr : t.role = .operation op) (hp : t.position = .exchanging x stage) (hx : x.ticket = none)
      (hn : NotSent m t x stage f) :
      Exchanging [.finished t.id (Machine.conclude op (.error f))]
        { m with lockQueue := m.lockQueue.erase t.id, tasks := without t.id m.tasks }
  | unsent (host : Host) (x : Exchange) (stage : ExchangeStage) (k : Ticket) (f : Failure)
      (hr : t.role = host.role) (hv : host.Live m) (hp : t.position = host.position x stage)
      (hx : x.ticket = some k) (hn : NotSent m t x stage f) :
      Exchanging (.answered t.id k.cid (.error f) :: host.farewell t.id (.error f))
        { m with
          registry := m.registry.release k.cid
          lockQueue := m.lockQueue.erase t.id
          tasks := host.released t.id m.tasks }
  | replied (host : Host) (x : Exchange) (k : Ticket) (outcome : Outcome) (hr : t.role = host.role)
      (hv : host.Live m) (hp : t.position = host.position x .awaiting) (hx : x.ticket = some k)
      (hw : m.registry.wait k x.timeout m.now = some outcome) :
      Exchanging
        (.answered t.id k.cid (outcome.map .envelope) ::
          host.farewell t.id (outcome.map .envelope))
        { m with
          registry := m.registry.release k.cid
          tasks := host.released t.id m.tasks }
  | givenUp (host : Host) (x : Exchange) (stage : ExchangeStage) (hr : t.role = host.role)
      (hp : t.position = host.position x stage) (hv : t.aborted = true ∨ ¬ host.Live m) :
      Exchanging []
        { m with
          registry := match x.ticket with
            | some k => m.registry.release k.cid
            | none => m.registry
          lockQueue := m.lockQueue.erase t.id
          tasks := without t.id m.tasks }

/-- The link of a generation is no longer the one that is open. -/
def Obsolete (g : Generation) : Prop :=
  m.isCancelled g = true ∨ ¬ (m.generation = g ∧ m.state = .open)

inductive Background : List Observation → Machine → Prop
  | readerStarted (g : Generation) (link : LinkId) (hr : t.role = .reader g link)
      (hp : t.position = .start) :
      Background [] { m with tasks := placed t.id .reading m.tasks }
  | heartbeatStarted (g : Generation) (hr : t.role = .heartbeat g) (hp : t.position = .start) :
      Background []
        { m with tasks := placed t.id (.ticking (.start m.now m.interval)) m.tasks }
  | dispatched (g : Generation) (link : LinkId) (l l' : Link) (frame : Bytes)
      (hr : t.role = .reader g link) (hp : t.position = .reading) (hc : m.isCancelled g = false)
      (hl : m.links[link]? = some l) (hf : l.receive = (l', .frame frame)) :
      Background (.dispatched link frame :: heard m frame)
        { m with
          links := m.links.modify link (fun _ => l')
          registry := hear frame m.registry }
  | readerLeft (g : Generation) (link : LinkId) (hr : t.role = .reader g link)
      (hp : t.position = .reading) (ho : Obsolete m g) :
      Background []
        { m with
          links := m.links.modify link Link.closeReader
          tasks := without t.id m.tasks }
  | heartbeatLeft (g : Generation) (k : Heartbeat.Ticker) (hr : t.role = .heartbeat g)
      (hp : t.position = .ticking k) (ho : Obsolete m g) :
      Background [] { m with tasks := without t.id m.tasks }

/-- What makes a task tear its link down, and the links after it. -/
inductive Begins : Teardown → List Link → Prop
  | close (n : Bool) (hr : t.role = .operation (.close n)) (hp : t.position = .start) :
      Begins ⟨m.generation, .user, n⟩ m.links
  | remote (g : Generation) (link : LinkId) (l l' : Link) (hr : t.role = .reader g link)
      (hp : t.position = .reading) (hc : m.isCancelled g = false) (hl : m.links[link]? = some l)
      (hf : l.receive = (l', .closed)) : Begins ⟨g, .remote, true⟩ m.links
  | failed (g : Generation) (link : LinkId) (l l' : Link) (f : Failure)
      (hr : t.role = .reader g link) (hp : t.position = .reading) (hc : m.isCancelled g = false)
      (hl : m.links[link]? = some l) (hf : l.receive = (l', .failed f)) :
      Begins ⟨g, .error f, true⟩ (m.links.modify link (fun _ => l'))
  | silent (g : Generation) (k : Heartbeat.Ticker) (hr : t.role = .heartbeat g)
      (hp : t.position = .ticking k) (hc : m.isCancelled g = false) :
      Begins ⟨g, .heartbeat, true⟩ m.links

/-- The writer is out of the way of a teardown. -/
inductive Vacated : TeardownStage → List Link → List TaskId → Prop
  | empty (hl : m.holdsLock t.id = true) (hw : m.writer = none) :
      Vacated .queued m.links (m.lockQueue.erase t.id)
  | closed (link : LinkId) (deadline : Nat) :
      Vacated (.closing link deadline) (m.links.modify link Link.closeWriter) m.lockQueue

/-- A reader that ends takes its half of the link along. -/
def closeEnd (links : List Link) : List Link :=
  match t.role with
  | .reader _ link => links.modify link Link.closeReader
  | _ => links

inductive Tearing : List Observation → Machine → Prop
  | begun (td : Teardown) (links : List Link) (hb : Begins m t td links)
      (hg : m.generation = td.generation) (hs : m.state = .open) :
      Tearing
        (.closing t.id td ::
          if td.cause = .heartbeat then [.shown .closing m.registry.size, .event .heartbeatTimeout]
          else [])
        { m with
          state := .closing
          cancel := none
          cancelled := m.cancel.toList ++ m.cancelled
          links := links
          lockQueue := m.lockQueue ++ [t.id]
          tasks := placed t.id (.tearing td .queued) m.tasks }
  | taken (td : Teardown) (link : LinkId) (hp : t.position = .tearing td .queued)
      (hl : m.holdsLock t.id = true) (hw : m.writer = some link) :
      Tearing []
        { m with
          writer := none
          lockQueue := m.lockQueue.erase t.id
          tasks := placed t.id
            (.tearing td (.closing link (m.now + m.settings.realtime.sendTimeout.toNat))) m.tasks }
  | ended (td : Teardown) (stage : TeardownStage) (links : List Link) (queue : List TaskId)
      (hf : Fits t.role t.position) (hp : t.position = .tearing td stage)
      (hv : Vacated m t stage links queue) :
      Tearing
        (.closed td.generation td.cause ::
          ((if td.notify then [.shown .idle 0, .event (.disconnected td.cause)] else []) ++
            (if td.cause = .user then [] else [.disconnect td.cause]) ++
            (if t.isOperation then [.finished t.id (.ok .nothing)] else [])))
        { m with
          state := .idle
          registry := (m.registry.drain td.cause.failure).1
          links := closeEnd t links
          lockQueue := queue
          tasks := without t.id m.tasks }

/-- What a task that is dropped gives back. -/
inductive Drops : Position → List Link → List TaskId → Prop
  | start : Drops .start m.links m.lockQueue
  | dialing (g : Generation) (url : String) (deadline : Nat) (stage : DialStage) :
      Drops (.dialing g url deadline stage) m.links m.lockQueue
  | reading : Drops .reading m.links m.lockQueue
  | ticking (k : Heartbeat.Ticker) : Drops (.ticking k) m.links m.lockQueue
  | installing (g : Generation) (link : LinkId) :
      Drops (.installing g link)
        ((m.links.modify link Link.closeWriter).modify link Link.closeReader)
        (m.lockQueue.erase t.id)
  | discarding (link : LinkId) :
      Drops (.discarding link)
        ((m.links.modify link Link.closeWriter).modify link Link.closeReader) m.lockQueue
  | queued (td : Teardown) : Drops (.tearing td .queued) m.links (m.lockQueue.erase t.id)
  | closing (td : Teardown) (link : LinkId) (deadline : Nat) :
      Drops (.tearing td (.closing link deadline)) (m.links.modify link Link.closeWriter)
        m.lockQueue

inductive Leaving : List Observation → Machine → Prop
  | finished (op : Operation) (r : Result) (hr : t.role = .operation op)
      (hp : (t.position = .start ∧ op.requests = false) ∨
        ∃ g url deadline stage, t.position = .dialing g url deadline stage)
      (hm : t.position = .start → op.message? = none ∨ r = .failed .notConnected)
      (hd : ∀ g url deadline stage, t.position = .dialing g url deadline stage →
        (∃ f, r = .failed f) ∧ ¬ (m.generation = g ∧ m.state = .connecting)) :
      Leaving [.finished t.id r] { m with tasks := without t.id m.tasks }
  | dropped (links : List Link) (queue : List TaskId) (ha : t.aborted = true)
      (hd : Drops m t t.position links queue) :
      Leaving [] { m with links := links, lockQueue := queue, tasks := without t.id m.tasks }

end

/-! ## Courses -/

inductive Change (m : Machine) : List Observation → Machine → Prop
  | outside {os n} (h : Outside m os n) : Change m os n
  | released {os n} (h : Released m os n) : Change m os n
  | connecting {os n} {t : Task} (ht : m.task? t.id = some t) (h : Connecting m t os n) :
      Change m os n
  | exchanging {os n} {t : Task} (ht : m.task? t.id = some t) (h : Exchanging m t os n) :
      Change m os n
  | background {os n} {t : Task} (ht : m.task? t.id = some t) (h : Background m t os n) :
      Change m os n
  | tearing {os n} {t : Task} (ht : m.task? t.id = some t) (h : Tearing m t os n) : Change m os n
  | leaving {os n} {t : Task} (ht : m.task? t.id = some t) (h : Leaving m t os n) : Change m os n

/-- What task `i` does itself in a step: no change from outside, but that the policy starts an
operation. -/
inductive Deed (i : TaskId) (m : Machine) : List Observation → Machine → Prop
  | nothing : Deed i m [] m
  | hires (op : Operation) (policy : Policy) (h : m.inUse = true) :
      Deed i m [.started m.nextTask op]
        { m with
          tasks := m.tasks ++ [⟨m.nextTask, .operation op, .start, false⟩]
          nextTask := m.nextTask + 1
          policy := policy }
  | released {os n} (h : Released m os n) : Deed i m os n
  | connecting {os n} {t : Task} (hi : t.id = i) (ht : m.task? t.id = some t)
      (h : Connecting m t os n) : Deed i m os n
  | exchanging {os n} {t : Task} (hi : t.id = i) (ht : m.task? t.id = some t)
      (h : Exchanging m t os n) : Deed i m os n
  | background {os n} {t : Task} (hi : t.id = i) (ht : m.task? t.id = some t)
      (h : Background m t os n) : Deed i m os n
  | tearing {os n} {t : Task} (hi : t.id = i) (ht : m.task? t.id = some t)
      (h : Tearing m t os n) : Deed i m os n
  | leaving {os n} {t : Task} (hi : t.id = i) (ht : m.task? t.id = some t)
      (h : Leaving m t os n) : Deed i m os n

theorem Deed.change {i : TaskId} {m n : Machine} {os : List Observation} (h : Deed i m os n) :
    Change m os n := by
  cases h with
  | nothing => exact .outside .nothing
  | hires op policy h => exact .outside (.started op policy h)
  | released h => exact .released h
  | connecting _ ht h => exact .connecting ht h
  | exchanging _ ht h => exact .exchanging ht h
  | background _ ht h => exact .background ht h
  | tearing _ ht h => exact .tearing ht h
  | leaving _ ht h => exact .leaving ht h

/-- What happens to a client while none of its tasks takes a step. -/
inductive Stir (m : Machine) : List Observation → Machine → Prop
  | outside {os n} (h : Outside m os n) : Stir m os n
  | released {os n} (h : Released m os n) : Stir m os n

theorem Stir.change {m n : Machine} {os : List Observation} (h : Stir m os n) : Change m os n := by
  cases h with
  | outside h => exact .outside h
  | released h => exact .released h

section
variable {R S : Machine → List Observation → Machine → Prop}

/-- A change, of a kind, and what is logged with it. -/
def Effect (R : Machine → List Observation → Machine → Prop) (m m' : Machine) : Prop :=
  ∃ os n, R m os n ∧ m.Shows os n m'

/-- What every change keeps, whatever is logged with it, an effect keeps. -/
theorem Effect.keeps {I : List Observation → Machine → Prop} {m m' : Machine} (h : Effect R m m')
    (keep : ∀ m os n tr, R m os n → I tr m → I (tr ++ os) n)
    (quiet : ∀ tr (n : Machine) handler history, I tr n →
      I tr { n with handler := handler, history := history }) (hm : I m.trace m) :
    I m'.trace m' := by
  obtain ⟨os, n, hc, hs⟩ := h
  obtain ⟨handler, history, rfl⟩ := hs.same
  rw [hs.trace_eq]
  exact quiet _ _ _ _ (keep _ _ _ _ hc hm)

/-- Effects one after the other, of which at most `k` move the lifecycle. -/
inductive Course (R : Machine → List Observation → Machine → Prop) (a : Machine) :
    Nat → Machine → Prop
  | refl {k} : Course R a k a
  | calm {k b c} (run : Course R a k b) (h : Effect R b c) (hs : c.state = b.state)
      (hg : c.generation = b.generation) : Course R a k c
  | leap {k b c} (run : Course R a k b) (h : Effect R b c) : Course R a (k + 1) c

namespace Course

theorem imp {a b : Machine} {k : Nat} (h : Course R a k b)
    (hrs : ∀ m os n, R m os n → S m os n) : Course S a k b := by
  have effect : ∀ {m m' : Machine}, Effect R m m' → Effect S m m' :=
    fun ⟨os, n, hc, hs⟩ => ⟨os, n, hrs _ _ _ hc, hs⟩
  induction h with
  | refl => exact .refl
  | calm _ h hs hg ih => exact .calm ih (effect h) hs hg
  | leap _ h ih => exact .leap ih (effect h)

theorem mono {a b : Machine} {j k : Nat} (h : Course R a j b) (hjk : j ≤ k) : Course R a k b := by
  induction h generalizing k with
  | refl => exact .refl
  | calm _ h hs hg ih => exact .calm (ih hjk) h hs hg
  | leap _ h ih =>
    cases k with
    | zero => omega
    | succ k => exact .leap (ih (by omega)) h

theorem trans {a b c : Machine} {j k : Nat} (hab : Course R a j b) (hbc : Course R b k c) :
    Course R a (j + k) c := by
  induction hbc with
  | refl => exact hab.mono (by omega)
  | calm _ h hs hg ih => exact .calm ih h hs hg
  | leap _ h ih => exact .leap ih h

theorem after_calm {a b c : Machine} {k : Nat} (hab : Course R a 0 b) (hbc : Course R b k c) :
    Course R a k c := by
  simpa using hab.trans hbc

theorem invariant {I : List Observation → Machine → Prop} {a b : Machine} {k : Nat}
    (h : Course R a k b) (base : I a.trace a)
    (keep : ∀ m os n tr, R m os n → I tr m → I (tr ++ os) n)
    (quiet : ∀ tr (n : Machine) handler history, I tr n →
      I tr { n with handler := handler, history := history }) : I b.trace b := by
  induction h with
  | refl => exact base
  | calm _ h _ _ ih => exact h.keeps keep quiet ih
  | leap _ h ih => exact h.keeps keep quiet ih

end Course

end

end GameLink.Client
