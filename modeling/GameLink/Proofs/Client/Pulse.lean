import GameLink.Proofs.Client.Beats
import GameLink.Proofs.Client.Writable

/-! # The steps of a heartbeat

A heartbeat starts, ticks, has its ping written, takes the answer and ticks on, or
tears its link down where there is none. Each step is taken in the state that the
one before it has left (`Pulse`).
-/
namespace GameLink.Client

/-! ## What is observed at the end -/

/-- The heartbeat `i` of generation `g` finds its link silent. -/
def alarm (i : TaskId) (g : Generation) (pending : Nat) : List Observation :=
  [.closing i ⟨g, .heartbeat, true⟩, .shown .closing pending, .event .heartbeatTimeout]

/-- The link of generation `g` is gone for its silence, and everybody is told. -/
def parting (g : Generation) : List Observation :=
  [.closed g .heartbeat, .shown .idle 0, .event (.disconnected .heartbeat), .disconnect .heartbeat]

namespace Machine

variable {m n : Machine} {t : Task} {g : Generation} {ticker : Heartbeat.Ticker} {x : Exchange}
  {c : Ticket} {l : LinkId}

/-! ## One step -/

/-- A step takes task `t` to `p`, with `os` observed, and leaves the lifecycle as it is. -/
structure Moved (m : Machine) (t : Task) (p : Position) (os : List Observation) (n : Machine) :
    Prop where
  task : n.task? t.id = some { t with position := p }
  seen : observed n.history = observed m.history ++ os.map (Record.mk m.now)
  now : n.now = m.now
  settings : n.settings = m.settings
  state : n.state = m.state
  generation : n.generation = m.generation

/-- A step that ends with a move of the task shows the rest before that. -/
theorem Moved.of_move {b : Machine} {p : Position} {os : List Observation}
    (ht : b.task? t.id = some t)
    (hs : observed b.history = observed m.history ++ os.map (Record.mk m.now))
    (hn : b.now = m.now) (hset : b.settings = m.settings) (hst : b.state = m.state)
    (hg : b.generation = m.generation) : Moved m t p os (b.move t.id p) :=
  ⟨task?_move_self ht p, hs, hn, hset, hst, hg⟩

/-- A step of task `t` begins to tear its link down, with `os` observed before. -/
structure Begun (m : Machine) (t : Task) (g : Generation) (os : List Observation) (n : Machine) :
    Prop where
  task : n.task? t.id = some { t with position := .tearing ⟨g, .heartbeat, true⟩ .queued }
  seen : ∃ pending, observed n.history = observed m.history ++
    (os ++ alarm t.id g pending).map (Record.mk m.now)
  now : n.now = m.now
  settings : n.settings = m.settings
  state : n.state = .closing
  generation : n.generation = g

/-- A step of task `t` takes it to the end of a teardown, and leaves a client at rest. -/
structure Ended (m : Machine) (t : Task) (g : Generation) (n : Machine) : Prop where
  task : n.task? t.id = none
  /-- After that at most the policy starts an operation. -/
  seen : ∃ hired, (∀ o ∈ hired, ∃ j op, o = .started j op) ∧ observed n.history =
    observed m.history ++ (parting g ++ hired).map (Record.mk m.now)
  now : n.now = m.now
  settings : n.settings = m.settings
  state : n.state = .idle
  slots : n.registry.slots = []

section
variable (ht : m.task? t.id = some t) (ha : t.aborted = false) (hr : t.role = .heartbeat g)
include ht ha hr

theorem run_heartbeat (hp : t.position = .start) :
    Moved m t (.ticking (.start m.now m.interval)) [] (m.run (.task t.id)) := by
  have run : m.run (.task t.id) = m.move t.id (.ticking (.start m.now m.interval)) := by
    simp only [Machine.run, ht, runTask, ha, hp, runStart, hr]
    rfl
  rw [run]
  exact .of_move ht (by simp) rfl rfl rfl rfl

/-- A tick that is due gives the probe its id and joins the queue for the writer. -/
theorem run_tick (hp : t.position = .ticking ticker) (hc : m.isCancelled g = false)
    (ho : m.state = .open) : ∃ x c, x.ticket = some c ∧ x.message = .ping ∧
      x.timeout = m.interval ∧ c.registeredAt = m.now ∧
      Moved m t (.probing (ticker.consume m.now) x .queued) [.issued t.id c.cid]
        (m.run (.task t.id)) := by
  have open' : (m.newExchange t.id .ping m.interval).1.state = .open := ho
  have run : m.run (.task t.id) = ((m.newExchange t.id .ping m.interval).1.joinLock t.id).move t.id
      (.probing (ticker.consume m.now) (m.newExchange t.id .ping m.interval).2 .queued) := by
    simp only [Machine.run, ht, runTask, ha, hp, hr, runTick, hc, beginExchange_open open',
      settleProbe]
    rfl
  refine ⟨(m.newExchange t.id .ping m.interval).2, (m.registry.register m.now).2, rfl, rfl, rfl,
    rfl, ?_⟩
  rw [run]
  exact .of_move ht (by simp [newExchange]) rfl rfl rfl rfl

/-- On a link that delivers the ping is written at once. -/
theorem run_written (hp : t.position = .probing ticker x .queued) (hc : m.isCancelled g = false)
    (hx : x.ticket = some c) (hw : m.writer = some l) {k : Link} (hk : m.links[l]? = some k)
    (hd : k.mode = .deliver) (hs : k.serverOpen = true) (ho : k.writerOpen = true) :
    Moved m t (.probing ticker x .awaiting) [.wrote t.id l (frameOf x)] (m.run (.task t.id)) := by
  have written : k.write (frameOf x).toText =
      ({ k with toServer := k.toServer ++ [(frameOf x).toText] }, .sent) := by
    simp [Link.write, hd, hs, ho]
  have run : m.run (.task t.id) = (((((m.updateLink l (fun _ =>
      { k with toServer := k.toServer ++ [(frameOf x).toText] })).record
      (.wrote t.id l (frameOf x))).leaveLock t.id).log
      (Log.trace "request sent" [("cid", c.cid), ("kind", x.message.kind)])).move t.id
      (.probing ticker x .awaiting)) := by
    simp only [Machine.run, ht, runTask, ha, hp, hr, runProbe, hc, runExchange, writeFrame, hw,
      Option.bind_some, hk, Option.map_some, written, wasSent, hx, settleProbe]
    rfl
  rw [run]
  exact .of_move ht (by simp) rfl rfl rfl rfl

/-- An answer lets the heartbeat tick on. -/
theorem run_answered (hp : t.position = .probing ticker x .awaiting)
    (hc : m.isCancelled g = false) (hx : x.ticket = some c) {e : Envelope}
    (hw : m.registry.wait c x.timeout m.now = some (.ok e)) :
    Moved m t (.ticking ticker) [.answered t.id c.cid (.ok (.envelope e))]
      (m.run (.task t.id)) := by
  have run : m.run (.task t.id) = (({ m with registry := m.registry.release c.cid }.record
      (.answered t.id c.cid (.ok (.envelope e)))).log Heartbeat.okNote).move t.id
      (.ticking ticker) := by
    simp only [Machine.run, ht, runTask, ha, hp, hr, runProbe, hc, runExchange, hx, takeReply, hw,
      settleProbe, noteAnswer]
    rfl
  rw [run]
  exact .of_move ht (by simp) rfl rfl rfl rfl

/-- A probe that fails tears the link down. -/
theorem run_failed (hp : t.position = .probing ticker x .awaiting)
    (hc : m.isCancelled g = false) (hx : x.ticket = some c) {f : Failure}
    (hw : m.registry.wait c x.timeout m.now = some (.error f)) (hg : m.generation = g)
    (ho : m.state = .open) :
    Begun m t g [.answered t.id c.cid (.error f)] (m.run (.task t.id)) := by
  obtain ⟨history, hfailed, hquiet⟩ : ∃ history, m.takeReply x c =
      ({ m with registry := m.registry.release c.cid, history := history }, .ended (.error f)) ∧
        observed history = observed m.history := by
    unfold takeReply
    rw [hw]
    cases f with
    | timeout cid ms => exact ⟨_, rfl, by simp⟩
    | _ => exact ⟨m.history, rfl, rfl⟩
  have run : m.run (.task t.id) =
      (({ m with registry := m.registry.release c.cid, history := history }.record
        (.answered t.id c.cid (.error f))).log (Heartbeat.failedNote f)).beginTeardown t
          ⟨g, .heartbeat, true⟩ := by
    simp only [Machine.run, ht, runTask, ha, hp, hr, runProbe, hc, runExchange, hx, hfailed,
      settleProbe, noteAnswer]
    rfl
  obtain ⟨handler, history', heq, hseen⟩ := @beginTeardown_eq
    (({ m with registry := m.registry.release c.cid, history := history }.record
      (.answered t.id c.cid (.error f))).log (Heartbeat.failedNote f)) t ⟨g, .heartbeat, true⟩ hg ho
  rw [run, heq]
  refine ⟨task?_move_self ht (.tearing _ .queued), ⟨(m.registry.release c.cid).size, ?_⟩, rfl, rfl,
    rfl, hg⟩
  exact hseen.trans (by simp [hquiet, alarm])

omit ht ha in
/-- Whoever has torn a link down and told everybody leaves. -/
theorem Ended.of_rest {b : Machine} {hired : List Observation} (hn : b.now = m.now)
    (hset : b.settings = m.settings) (hst : b.state = .idle) (hslots : b.registry.slots = [])
    (hh : ∀ o ∈ hired, ∃ j op, o = .started j op)
    (hs : observed b.history =
      observed m.history ++ (parting g ++ hired).map (Record.mk m.now)) :
    Ended m t g (b.afterTeardown t) := by
  have background : t.isOperation = false := by rw [Task.isOperation, hr]
  rw [afterTeardown_eq background]
  obtain ⟨_, _, _, _, hrel⟩ := release_eq
    { b with links := closeEnd t b.links, tasks := without t.id b.tasks }
  rw [hrel]
  exact ⟨findTask_without.trans (if_pos rfl), ⟨hired, hh, hs⟩, hn, hset, hst, hslots⟩

omit ht ha in
/-- The end of a heartbeat's teardown: the client is idle, and everybody is told. -/
theorem endTeardown_ended {b : Machine} (hs : observed b.history = observed m.history)
    (hn : b.now = m.now) (hset : b.settings = m.settings) :
    Ended m t g (b.endTeardown t ⟨g, .heartbeat, true⟩) := by
  obtain ⟨handler, told, htell, htold⟩ := told_eq ⟨g, .heartbeat, true⟩ b
  rw [endTeardown_eq, announce, if_neg (by simp), htell]
  obtain ⟨history, heq, hseen⟩ | ⟨op, policy, history, _, heq, hseen⟩ := applyPolicy_eq .heartbeat
    { b with
      registry := (b.registry.drain (Teardown.cause ⟨g, .heartbeat, true⟩).failure).1
      state := .idle
      handler := handler
      history := told }
  · rw [heq]
    refine .of_rest hr hn hset rfl rfl (List.forall_mem_nil _) ?_
    rw [hseen, htold, hs, hn]
    simp [parting]
  · rw [heq]
    have hired : ∀ o ∈ [Observation.started b.nextTask op], ∃ j op, o = .started j op :=
      fun o ho => ⟨_, _, List.mem_singleton.mp ho⟩
    refine .of_rest hr hn hset rfl rfl hired ?_
    rw [hseen, htold, hs, hn]
    simp [parting]

/-- With the lock the writer is taken out. The link goes at once, unless its close hangs. -/
theorem run_torn (hp : t.position = .tearing ⟨g, .heartbeat, true⟩ .queued) :
    Ended m t g (m.run (.task t.id)) ∨ m.closeMode = .hang ∧ ∃ link,
      Moved m t (.tearing ⟨g, .heartbeat, true⟩
        (.closing link (m.now + m.settings.realtime.sendTimeout.toNat))) []
        (m.run (.task t.id)) := by
  have run : m.run (.task t.id) = m.tearWriter t ⟨g, .heartbeat, true⟩ := by
    simp only [Machine.run, ht, runTask, ha, hp, hr, runTeardown]
    rfl
  have mode : ({ m with writer := none }.leaveLock t.id).closeMode = m.closeMode := rfl
  rw [run]
  unfold tearWriter
  dsimp only
  rw [mode]
  cases m.writer with
  | none => exact .inl (endTeardown_ended hr rfl rfl rfl)
  | some link =>
    cases m.closeMode with
    | normal => exact .inl (endTeardown_ended hr rfl rfl rfl)
    | fail => exact .inl (endTeardown_ended hr (by simp) rfl rfl)
    | hang =>
      exact .inr ⟨rfl, link, .of_move ht (by simp) rfl rfl rfl rfl⟩

/-- A close that hangs is given up at its deadline. -/
theorem run_closed {link : LinkId} {deadline : Nat}
    (hp : t.position = .tearing ⟨g, .heartbeat, true⟩ (.closing link deadline)) :
    Ended m t g (m.run (.task t.id)) := by
  have run : m.run (.task t.id) = ((m.log (Log.debug "link close timed out" [])).closeWriter
      link).endTeardown t ⟨g, .heartbeat, true⟩ := by
    simp only [Machine.run, ht, runTask, ha, hp, hr, runTeardown]
    rfl
  rw [run]
  exact endTeardown_ended hr (by simp) rfl rfl

end

end Machine

end GameLink.Client
