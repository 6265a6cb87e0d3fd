import GameLink.Client.Machine

/-! # Steps of the client

One step of a task is the code between two points where it may wait. `enabled`
says whether a task can go on from where it stands, `run` takes the step.
Cancellation is looked at before anything else a background task waits for, and
a time limit after what it limits.
-/
namespace GameLink.Client.Machine

/-! ## Dispatching a frame -/

/-- A frame that belongs to a request ends it or is stray. -/
def dispatchReply (cid : String) (outcome : Outcome) (m : Machine) : Machine :=
  let r := m.registry.resolve cid outcome
  if r.2 then { m with registry := r.1 }
  else m.log (Log.warn "reply for unknown cid dropped" [("cid", cid)])

/-- A frame that belongs to no request is an event. -/
def dispatchPush (e : Envelope) (m : Machine) : Machine :=
  match e.error with
  | some error =>
    let f := Failure.errorReply error
    (m.log (Log.warn "uncorrelated server error" [("error", f.message)])).emit (.serverError f)
  | none =>
    (m.log (Log.trace "push received" [("kind", e.pushKind.key)])).emit (.push e)

def replyOutcome (e : Envelope) : Outcome :=
  match e.error with
  | some error => .error (.errorReply error)
  | none => .ok e

def dispatch (frame : Bytes) (m : Machine) : Machine :=
  match Envelope.decode frame with
  | .error f =>
    (m.log (Log.warn "undecodable inbound frame"
      [("error", f.message), ("len", toString frame.length)])).emit (.undecodable frame)
  | .ok e =>
    match e.cid with
    | some cid => m.dispatchReply cid (replyOutcome e)
    | none => m.dispatchPush e

/-! ## Teardown -/

/-- After a teardown, or where there is nothing to tear down. -/
def afterTeardown (t : Task) (m : Machine) : Machine :=
  match t.role with
  | .operation _ => m.finish t.id (.ok .nothing)
  | .reader _ link => (m.closeReader link).removeTask t.id
  | .heartbeat _ => m.removeTask t.id

/-- Takes effect once for a generation, while its link is open. -/
def beginTeardown (t : Task) (td : Teardown) (m : Machine) : Machine :=
  if m.generation = td.generation ∧ m.state = .open then
    let m := ({ m with state := .closing }.record (.closing t.id td)).cancelStored
    let m := if td.cause = .heartbeat then m.emit .heartbeatTimeout else m
    (m.joinLock t.id).move t.id (.tearing td .queued)
  else m.afterTeardown t

def applyPolicy (cause : Cause) (m : Machine) : Machine :=
  let m := m.record (.disconnect cause)
  match m.policy with
  | .notify => m
  | .manual =>
    m.log (Log.info "realtime link lost; reconnect is left to the application"
      [("cause", cause.message)])
  | .redial left token =>
    if left = 0 ∨ !m.inUse then m
    else { m with policy := .redial (left - 1) token }.start (.signIn token none)

/-- The writer is closed: waiting requests fail, the client is idle and everybody is told. -/
def endTeardown (t : Task) (td : Teardown) (m : Machine) : Machine :=
  let drained := m.registry.drain td.cause.failure
  let m := { m with registry := drained.1 }.record (.closed td.generation td.cause)
  let m := m.log (Log.info "realtime link closed"
    [("generation", toString td.generation), ("cause", td.cause.message),
      ("drained", toString drained.2)])
  let m := { m with state := .idle }
  let m := if td.notify then m.emit (.disconnected td.cause) else m
  let m := if td.cause = .user then m else m.applyPolicy td.cause
  m.afterTeardown t

/-- Holds the lock: takes the writer out and closes it. -/
def tearWriter (t : Task) (td : Teardown) (m : Machine) : Machine :=
  let held := m.writer
  let m := { m with writer := none }.leaveLock t.id
  match held with
  | none => m.endTeardown t td
  | some link =>
    match m.closeMode with
    | .normal => (m.closeWriter link).endTeardown t td
    | .fail =>
      let f := Failure.transport "close failed"
      ((m.log (Log.debug "link close failed" [("error", f.message)])).closeWriter link).endTeardown t td
    | .hang => m.move t.id (.tearing td (.closing link (m.now + m.settings.realtime.sendTimeout.toNat)))

def runTeardown (t : Task) (td : Teardown) (stage : TeardownStage) (m : Machine) : Machine :=
  match stage with
  | .queued => m.tearWriter t td
  | .closing link _ =>
    ((m.log (Log.debug "link close timed out" [])).closeWriter link).endTeardown t td

/-! ## Exchanges -/

/-- Where an exchange is after a step. -/
inductive Exchanged
  | waiting (stage : ExchangeStage)
  | ended (outcome : Except Failure Answer)

/-- The message was not sent. -/
def notSent (x : Exchange) (f : Failure) (m : Machine) : Machine × Exchanged :=
  match x.ticket with
  | none => (m, .ended (.error f))
  | some ticket =>
    let m := m.log (Log.debug "request not sent"
      [("cid", ticket.cid), ("kind", x.message.kind), ("error", f.message)])
    ({ m with registry := m.registry.release ticket.cid }, .ended (.error f))

/-- The message was sent. -/
def wasSent (x : Exchange) (m : Machine) : Machine × Exchanged :=
  match x.ticket with
  | none => (m, .ended (.ok .nothing))
  | some ticket =>
    (m.log (Log.trace "request sent" [("cid", ticket.cid), ("kind", x.message.kind)]),
      .waiting .awaiting)

/-- Only an open client queues for the writer. -/
def beginExchange (id : TaskId) (x : Exchange) (m : Machine) : Machine × Exchanged :=
  if m.state = .open then (m.joinLock id, .waiting .queued) else m.notSent x .notConnected

def frameOf (x : Exchange) : Envelope.Outgoing := ⟨x.ticket.map Ticket.cid, x.message⟩

/-- Holds the lock: writes, and keeps the lock only while the write does not complete. -/
def writeFrame (id : TaskId) (x : Exchange) (m : Machine) : Machine × Exchanged :=
  match m.writer.bind (fun l => (m.links[l]?).map (fun link => (l, link))) with
  | none => (m.leaveLock id).notSent x .notConnected
  | some (l, link) =>
    match link.write (frameOf x).toText with
    | (_, .stalls) => (m, .waiting (.stalled (m.now + m.settings.realtime.sendTimeout.toNat)))
    | (_, .failed f) => (m.leaveLock id).notSent x f
    | (link, .sent) =>
      (((m.updateLink l (fun _ => link)).record (.wrote id l (frameOf x))).leaveLock id).wasSent x

def sendTimeoutFailure (m : Machine) : Failure :=
  .transport ("send timed out after " ++ toString m.settings.realtime.sendTimeout.toNat ++ "ms")

/-- The reply, if there is one: the request is over and its slot goes. -/
def takeReply (x : Exchange) (ticket : Ticket) (m : Machine) : Machine × Exchanged :=
  match m.registry.wait ticket x.timeout m.now with
  | none => (m, .waiting .awaiting)
  | some outcome =>
    let m := { m with registry := m.registry.release ticket.cid }
    let m :=
      match outcome with
      | .error (.timeout _ _) =>
        m.log (Log.debug "request timed out"
          [("cid", ticket.cid), ("kind", x.message.kind), ("timeout_ms", toString x.timeout)])
      | _ => m
    (m, .ended (outcome.map .envelope))

def runExchange (id : TaskId) (x : Exchange) (stage : ExchangeStage) (m : Machine) :
    Machine × Exchanged :=
  match stage with
  | .queued => m.writeFrame id x
  | .stalled _ => (m.leaveLock id).notSent x m.sendTimeoutFailure
  | .awaiting =>
    match x.ticket with
    | some ticket => m.takeReply x ticket
    | none => (m, .ended (.ok .nothing))

/-- Whether an exchange can go on. -/
def exchangeReady (id : TaskId) (x : Exchange) (stage : ExchangeStage) (m : Machine) : Bool :=
  match stage with
  | .queued => m.holdsLock id
  | .stalled deadline => deadline ≤ m.now
  | .awaiting =>
    match x.ticket with
    | some ticket => (m.registry.wait ticket x.timeout m.now).isSome
    | none => true

/-- Registers a request. -/
def newExchange (id : TaskId) (message : Outbound) (timeout : Nat) (m : Machine) :
    Machine × Exchange :=
  let r := m.registry.register m.now
  ({ m with registry := r.1 }.record (.issued id r.2.cid), ⟨message, some r.2, timeout⟩)

/-- Notes how a request or a probe ended. -/
def noteAnswer (id : TaskId) (x : Exchange) (outcome : Except Failure Answer) (m : Machine) :
    Machine :=
  match x.ticket with
  | some ticket => m.record (.answered id ticket.cid outcome)
  | none => m

/-- An exchange that is given up leaves nothing behind. -/
def dropExchange (id : TaskId) (x : Exchange) (m : Machine) : Machine :=
  let m := m.leaveLock id
  match x.ticket with
  | some ticket => { m with registry := m.registry.release ticket.cid }
  | none => m

/-! ## Operations -/

/-- What an operation makes of its exchange. -/
def conclude (op : Operation) (outcome : Except Failure Answer) : Result :=
  match outcome with
  | .error f => .failed f
  | .ok (.envelope e) =>
    match op with
    | .perform call =>
      match call.answer e with
      | .ok a => .ok a
      | .error f => .failed f
    | _ => .ok (.envelope e)
  | .ok a => .ok a

def settleExchange (t : Task) (op : Operation) (x : Exchange) (r : Machine × Exchanged) : Machine :=
  match r.2 with
  | .waiting stage => r.1.move t.id (.exchanging x stage)
  | .ended outcome => (r.1.noteAnswer t.id x outcome).finish t.id (conclude op outcome)

def boundMs (bound : Bound) (m : Machine) : Nat :=
  match bound with
  | .standard => m.settings.realtime.requestTimeout.toNat
  | .within ms => ms
  | .until moment => (moment - m.now).toNat

def beginSend (t : Task) (op : Operation) (message : Outbound) (m : Machine) : Machine :=
  let x : Exchange := ⟨message, none, 0⟩
  settleExchange t op x (m.beginExchange t.id x)

def beginRequest (t : Task) (op : Operation) (message : Outbound) (bound : Bound) (m : Machine) :
    Machine :=
  let r := m.newExchange t.id message (m.boundMs bound)
  settleExchange t op r.2 (r.1.beginExchange t.id r.2)

def beginCall (t : Task) (op : Operation) (call : Call) (m : Machine) : Machine :=
  match call.message with
  | .error f => m.finish t.id (.failed f)
  | .ok message =>
    if call.awaitsReply then m.beginRequest t op message .standard else m.beginSend t op message

def beginClose (t : Task) (notify : Bool) (m : Machine) : Machine :=
  match m.state with
  | .open => m.beginTeardown t ⟨m.generation, .user, notify⟩
  | .connecting =>
    -- the connect under way meets a newer generation and backs out
    { m with generation := m.generation + 1, state := .idle }.finish t.id (.ok .nothing)
  | .idle | .closing => m.finish t.id (.ok .nothing)

/-! ## Connecting -/

def refuseConnect (t : Task) (reason : String) (m : Machine) : Machine :=
  m.finish t.id (.failed (.connection reason))

/-- The checks are passed: a new generation starts dialing. -/
def beginDial (t : Task) (session : Session) (online : Bool) (m : Machine) : Machine :=
  let m := { m with state := .connecting, generation := m.generation + 1 }
  let server := m.settings.server
  let m := m.log (Log.info "connecting"
    [("url", Link.redactedAddress server online), ("generation", toString m.generation)])
  m.move t.id (.dialing m.generation (Link.address server session.token online)
    (m.now + m.settings.realtime.connectTimeout.toNat)
    (.delayed (m.now + m.dialer.delay) m.dialer.failure))

def beginConnect (t : Task) (session : Session) (appearOnline : Option Bool) (m : Machine) : Machine :=
  let expired :=
    if session.token.isEmpty then .ok true else session.accessExpired m.clock
  match expired with
  | .error fault => m.finish t.id (.overflow fault)
  | .ok true =>
    (m.log (Log.warn "refusing to connect with an expired session"
      [("user_id", session.userId)])).refuseConnect t "session token is expired"
  | .ok false =>
    if m.state = .idle then
      m.beginDial t session (appearOnline.getD m.settings.realtime.appearOnline)
    else m.refuseConnect t ("cannot connect while " ++ m.state.name)

def beginSignIn (t : Task) (token : String) (appearOnline : Option Bool) (m : Machine) : Machine :=
  match Session.start token "" false m.clock with
  | .error e => m.finish t.id (.badToken e)
  | .ok session => (m.log session.appliedNote).beginConnect t session appearOnline

/-- Back to idle, if the connect that failed is still the current one. -/
def abandonConnect (g : Generation) (m : Machine) : Machine :=
  if m.generation = g ∧ m.state = .connecting then { m with state := .idle } else m

def failConnect (t : Task) (g : Generation) (f : Failure) (m : Machine) : Machine :=
  let m := (m.abandonConnect g).log (Log.warn "connect failed"
    [("error", f.message), ("generation", toString g)])
  m.finish t.id (.failed f.asConnection)

/-- There is a link: it waits for the writer lock to be installed. -/
def linkDialed (t : Task) (g : Generation) (link : Link) (m : Machine) : Machine :=
  let id := m.links.length
  let m := { m with links := m.links ++ [link] }.record (.dialed t.id id link.url)
  (m.joinLock t.id).move t.id (.installing g id)

def dialTimeoutFailure (m : Machine) : Failure :=
  .connection ("connect timed out after " ++ toString m.settings.realtime.connectTimeout.toNat ++ "ms")

/-- The dial takes effect, unless only its time limit has been reached. -/
def runDial (t : Task) (g : Generation) (url : String) (deadline : Nat) (stage : DialStage)
    (m : Machine) : Machine :=
  match stage with
  | .hung => m.failConnect t g m.dialTimeoutFailure
  | .delayed wake failure =>
    if wake ≤ m.now then
      match failure with
      | some f => m.failConnect t g f
      | none =>
        match m.dialer.mode.dial true url with
        | .link link => m.linkDialed t g link
        | .failed f => m.failConnect t g f
        | .hangs => m.move t.id (.dialing g url deadline .hung)
    else m.failConnect t g m.dialTimeoutFailure

/-- A link replaces what the writer was. -/
def setWriter (link : LinkId) (m : Machine) : Machine :=
  match m.writer with
  | some old => { m.closeWriter old with writer := some link }
  | none => { m with writer := some link }

def installLink (t : Task) (g : Generation) (link : LinkId) (m : Machine) : Machine :=
  let m := { m with state := .open, cancel := some g }.record (.opened g link)
  let m := (m.setWriter link).leaveLock t.id
  let m := (m.log (Log.info "connected" [("generation", toString g)])).emit .connected
  ((m.spawn (.reader g link)).spawn (.heartbeat g)).finish t.id (.ok .nothing)

def endDiscard (t : Task) (g : Generation) (link : LinkId) (m : Machine) : Machine :=
  let m := (m.closeWriter link).log
    (Log.debug "link discarded, closed while connecting" [("generation", toString g)])
  (m.closeReader link).refuseConnect t "closed while connecting"

/-- Holds the lock: installs the link if its generation is still the one that connects. -/
def runInstall (t : Task) (g : Generation) (link : LinkId) (m : Machine) : Machine :=
  if m.generation = g ∧ m.state = .connecting then m.installLink t g link
  else
    let m := m.leaveLock t.id
    match m.closeMode with
    | .hang => m.move t.id (.discarding link)
    | .normal | .fail => m.endDiscard t g link

/-! ## Background tasks -/

def runReading (t : Task) (g : Generation) (link : LinkId) (m : Machine) : Machine :=
  if m.isCancelled g then (m.closeReader link).removeTask t.id
  else
    match m.links[link]? with
    | none => m.removeTask t.id
    | some l =>
      match l.receive with
      | (_, .nothing) => m
      | (l, .frame bytes) =>
        ((m.updateLink link (fun _ => l)).record (.dispatched link bytes)).dispatch bytes
      | (l, .failed f) =>
        ((m.updateLink link (fun _ => l)).log (Log.warn "link read failed" [("error", f.message)]))
          |>.beginTeardown t ⟨g, .error f, true⟩
      | (_, .closed) => m.beginTeardown t ⟨g, .remote, true⟩

/-- What the heartbeat makes of its probe. -/
def settleProbe (t : Task) (g : Generation) (ticker : Heartbeat.Ticker) (x : Exchange)
    (r : Machine × Exchanged) : Machine :=
  match r.2 with
  | .waiting stage => r.1.move t.id (.probing ticker x stage)
  | .ended outcome =>
    let m := r.1.noteAnswer t.id x outcome
    match outcome with
    | .ok _ => (m.log Heartbeat.okNote).move t.id (.ticking ticker)
    | .error f => (m.log (Heartbeat.failedNote f)).beginTeardown t ⟨g, .heartbeat, true⟩

def interval (m : Machine) : Nat := m.settings.realtime.heartbeatInterval.toNat

def runTick (t : Task) (g : Generation) (ticker : Heartbeat.Ticker) (m : Machine) : Machine :=
  if m.isCancelled g then m.removeTask t.id
  else
    let r := m.newExchange t.id .ping m.interval
    settleProbe t g (ticker.consume m.now) r.2 (r.1.beginExchange t.id r.2)

def runProbe (t : Task) (g : Generation) (ticker : Heartbeat.Ticker) (x : Exchange)
    (stage : ExchangeStage) (m : Machine) : Machine :=
  if m.isCancelled g then (m.dropExchange t.id x).removeTask t.id
  else settleProbe t g ticker x (m.runExchange t.id x stage)

/-! ## Dropping a task -/

/-- A task that is dropped gives back what it holds and is not reported. -/
def dropTask (t : Task) (m : Machine) : Machine :=
  let m :=
    match t.position with
    | .installing _ link => ((m.leaveLock t.id).closeWriter link).closeReader link
    | .discarding link => (m.closeWriter link).closeReader link
    | .exchanging x _ => m.dropExchange t.id x
    | .probing _ x _ => m.dropExchange t.id x
    | .tearing _ .queued => m.leaveLock t.id
    | .tearing _ (.closing link _) => m.closeWriter link
    | .start | .dialing _ _ _ _ | .reading | .ticking _ => m
  m.removeTask t.id

/-! ## One step -/

def runStart (t : Task) (m : Machine) : Machine :=
  match t.role with
  | .operation op =>
    match op with
    | .connect session online => m.beginConnect t session online
    | .signIn token online => m.beginSignIn t token online
    | .close notify => m.beginClose t notify
    | .send message => m.beginSend t op message
    | .request message bound => m.beginRequest t op message bound
    | .perform call => m.beginCall t op call
  | .reader _ _ => m.move t.id .reading
  | .heartbeat _ => m.move t.id (.ticking (.start m.now m.interval))

def runTask (t : Task) (m : Machine) : Machine :=
  if t.aborted then m.dropTask t
  else
    match t.role, t.position with
    | _, .start => m.runStart t
    | _, .tearing td stage => m.runTeardown t td stage
    | _, .dialing g url deadline stage => m.runDial t g url deadline stage
    | _, .installing g link => m.runInstall t g link
    | _, .discarding _ => m
    | .operation op, .exchanging x stage => settleExchange t op x (m.runExchange t.id x stage)
    | .reader g link, .reading => m.runReading t g link
    | .heartbeat g, .ticking ticker => m.runTick t g ticker
    | .heartbeat g, .probing ticker x stage => m.runProbe t g ticker x stage
    | _, _ => m

/-- Whether a reader has something to read. -/
def readable (link : LinkId) (m : Machine) : Bool :=
  match m.links[link]? with
  | some l => !l.toClient.isEmpty || !l.serverOpen
  | none => true

def taskEnabled (m : Machine) (t : Task) : Bool :=
  t.aborted ||
    match t.role, t.position with
    | _, .start => true
    | _, .tearing _ .queued => m.holdsLock t.id
    | _, .tearing _ (.closing _ deadline) => deadline ≤ m.now
    | _, .dialing _ _ deadline (.delayed wake _) => wake ≤ m.now || deadline ≤ m.now
    | _, .dialing _ _ deadline .hung => deadline ≤ m.now
    | _, .installing _ _ => m.holdsLock t.id
    | _, .discarding _ => false
    | .operation _, .exchanging x stage => m.exchangeReady t.id x stage
    | .reader g link, .reading => m.isCancelled g || m.readable link
    | .heartbeat g, .ticking ticker => m.isCancelled g || ticker.isDue m.now
    | .heartbeat g, .probing _ x stage => m.isCancelled g || m.exchangeReady t.id x stage
    | _, _ => false

/-- What can take a step: a task, or a forwarder of the event channel. -/
inductive Worker
  | task (id : TaskId)
  | forwarder (index : Nat)
deriving DecidableEq

def workers (m : Machine) : List Worker :=
  m.tasks.map (fun t => .task t.id) ++
    match m.handler with
    | .channel c => (List.range c.forwarders.length).map .forwarder
    | .direct => []

def enabled (m : Machine) : Worker → Bool
  | .task id =>
    match m.task? id with
    | some t => m.taskEnabled t
    | none => false
  | .forwarder i =>
    match m.handler with
    | .channel c =>
      match c.forwarders[i]? with
      | some held => c.forwarderReady held
      | none => false
    | .direct => false

def run (m : Machine) : Worker → Machine
  | .task id =>
    match m.task? id with
    | some t => m.runTask t
    | none => m
  | .forwarder i =>
    match m.handler with
    | .channel c => { m with handler := .channel (c.forward i).1 }.logAll (c.forward i).2
    | .direct => m

end GameLink.Client.Machine
