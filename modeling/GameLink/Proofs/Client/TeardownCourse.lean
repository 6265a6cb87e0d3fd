import GameLink.Proofs.Client.ExchangeCourse

/-! # Courses of the background tasks and of a teardown

The functions of a reader, of a heartbeat and of a teardown, taken apart into
changes.
-/
namespace GameLink.Client.Machine

variable {m : Machine} {t : Task}

/-! ## Dispatching -/

theorem dispatchReply_eq (cid : String) (outcome : Outcome) (m : Machine) :
    ∃ history, m.dispatchReply cid outcome =
        { m with registry := (m.registry.resolve cid outcome).1, history := history } ∧
      observed history = observed m.history := by
  unfold dispatchReply Registry.resolve
  split
  · exact ⟨_, rfl, rfl⟩
  · exact ⟨_, rfl, by simp⟩

theorem dispatch_eq (frame : Bytes) (m : Machine) :
    ∃ handler history, m.dispatch frame =
        { m with registry := hear frame m.registry, handler := handler, history := history } ∧
      observed history = observed m.history ++
        (heard m frame).map (Record.mk m.now) := by
  unfold dispatch hear heard replyIn eventIn
  cases hd : Envelope.decode frame with
  | error f =>
    obtain ⟨handler, history, heq, ho⟩ := emit_eq (.undecodable frame) (m.log
      (Log.warn "undecodable inbound frame" [("error", f.message), ("len", toString frame.length)]))
    exact ⟨handler, history, heq, by simpa using ho⟩
  | ok e =>
    dsimp only
    cases hc : e.cid with
    | some cid =>
      obtain ⟨history, heq, ho⟩ := dispatchReply_eq cid (replyOutcome e) m
      exact ⟨m.handler, history, heq, by simpa using ho⟩
    | none =>
      unfold dispatchPush
      cases he : e.error with
      | some error =>
        obtain ⟨handler, history, heq, ho⟩ := emit_eq (.serverError (.errorReply error)) (m.log
          (Log.warn "uncorrelated server error" [("error", (Failure.errorReply error).message)]))
        exact ⟨handler, history, heq, by simpa using ho⟩
      | none =>
        obtain ⟨handler, history, heq, ho⟩ := emit_eq (.push e) (m.log
          (Log.trace "push received" [("kind", e.pushKind.key)]))
        exact ⟨handler, history, heq, by simpa using ho⟩

/-! ## The beginning of a teardown -/

theorem cancelStored_eq (m : Machine) :
    m.cancelStored = { m with cancel := none, cancelled := m.cancel.toList ++ m.cancelled } := by
  unfold cancelStored
  cases m
  split <;> simp_all

theorem beginTeardown_eq {td : Teardown} (hg : m.generation = td.generation)
    (hs : m.state = .open) :
    ∃ handler history, m.beginTeardown t td =
        { m with
          state := .closing
          cancel := none
          cancelled := m.cancel.toList ++ m.cancelled
          lockQueue := m.lockQueue ++ [t.id]
          tasks := placed t.id (.tearing td .queued) m.tasks
          handler := handler
          history := history } ∧
      observed history = observed m.history ++
        (.closing t.id td ::
          if td.cause = .heartbeat then [.shown .closing m.registry.size, .event .heartbeatTimeout]
          else []).map (Record.mk m.now) := by
  unfold beginTeardown
  rw [if_pos ⟨hg, hs⟩, cancelStored_eq]
  split
  · obtain ⟨handler, history, heq, ho⟩ := emit_eq .heartbeatTimeout
      { { m with state := .closing }.record (.closing t.id td) with
        cancel := none, cancelled := m.cancel.toList ++ m.cancelled }
    refine ⟨handler, history, ?_, by simpa using ho⟩
    simp only [record] at heq ⊢
    rw [heq]
    rfl
  · exact ⟨m.handler, _, rfl, by simp⟩

/-- A background task or a close that finds its link gone just ends. -/
theorem afterTeardown_eq (hr : t.isOperation = false) (m : Machine) :
    m.afterTeardown t =
      { m with links := closeEnd t m.links, tasks := without t.id m.tasks }.release := by
  unfold afterTeardown closeEnd
  cases hk : t.role with
  | operation op => simp [Task.isOperation, hk] at hr
  | reader g link => rfl
  | heartbeat g => rfl

theorem modify_read {links : List Link} {link : LinkId} {l l' : Link} {r : Link.Received}
    (hl : links[link]? = some l) (hf : l.receive = (l', r)) :
    (links.modify link (fun _ => l')).modify link Link.closeReader =
      links.modify link Link.closeReader := by
  have hread : l'.closeReader = l.closeReader := by
    have h : l' = l.receive.1 := by rw [hf]
    rw [h]
    unfold Link.receive
    split <;> rfl
  apply List.ext_getElem?
  intro i
  simp only [List.getElem?_modify]
  by_cases hi : link = i
  · subst hi
    simp [hl, hread]
  · simp [hi]

/-- A teardown begins, or its task ends where there is nothing to tear down. -/
theorem course_beginTeardown {u : Task} {td : Teardown} (links : List Link) (ts : List Task)
    (history : List Record) (hu : m.task? u.id = some u) (hid : t.id = u.id)
    (hrole : t.role = u.role) (hb : Begins m u td links)
    (hc : u.isOperation = true → m.state = .open)
    (hplaced : ∀ p, placed u.id p ts = placed u.id p m.tasks)
    (hwithout : without u.id ts = without u.id m.tasks)
    (ho : observed history = observed m.history) :
    Course (Deed t.id) m 1 ({ m with links := links, tasks := ts, history := history }.beginTeardown t td) := by
  by_cases h : m.generation = td.generation ∧ m.state = .open
  · obtain ⟨handler, history', heq, ho'⟩ := beginTeardown_eq (t := t)
      (m := { m with links := links, tasks := ts, history := history }) h.1 h.2
    rw [heq, hid, hplaced]
    refine .one ((Deed.tearing rfl hu (.begun td links hb h.1 h.2)).effect handler history' ?_)
    rw [ho', ho, hid]
  · have hn : u.isOperation = false := by
      cases ho : u.isOperation with
      | false => rfl
      | true =>
        cases hb with
        | close n hr hp => exact absurd ⟨rfl, hc ho⟩ h
        | remote g link l l' hr | failed g link l l' f hr | silent g k hr =>
          simp [Task.isOperation, hr] at ho
    have ht : t.isOperation = false := by rw [Task.isOperation, hrole]; exact hn
    unfold beginTeardown
    rw [if_neg h, afterTeardown_eq ht, hid, hwithout]
    refine (Course.trans (j := 1) ?_ (course_release .released _))
    cases hb with
    | close n hr hp => simp [Task.isOperation, hr] at hn
    | remote g link l l' hr hp hcc hl hf =>
      rw [closeEnd, hrole, hr]
      exact .one ((Deed.background rfl hu (.readerLeft g link hr hp (.inr h))).effect _ _
        (by simpa using ho))
    | failed g link l l' f hr hp hcc hl hf =>
      rw [closeEnd, hrole, hr]
      dsimp only
      rw [modify_read hl hf]
      exact .one ((Deed.background rfl hu (.readerLeft g link hr hp (.inr h))).effect _ _
        (by simpa using ho))
    | silent g k hr hp hcc =>
      rw [closeEnd, hrole, hr]
      exact .one ((Deed.background rfl hu (.heartbeatLeft g k hr hp (.inr h))).effect _ _
        (by simpa using ho))

/-! ## Readers and heartbeats -/

theorem course_runReading {g : Generation} {link : LinkId} (hm : Fit m)
    (ht : m.task? t.id = some t) (hr : t.role = .reader g link) (hp : t.position = .reading) :
    Course (Deed t.id) m 1 (m.runReading t g link) := by
  unfold runReading
  split
  · rename_i hc
    exact ((Course.one ((Deed.background rfl ht (.readerLeft g link hr hp (.inl hc))).effect m.handler
      m.history (by simp))).trans (course_release .released _))
  · rename_i hc
    have hc : m.isCancelled g = false := by simpa using hc
    have hlt := hm.linked _ _ _ _ ht hr
    rw [List.getElem?_eq_getElem hlt]
    have hl : m.links[link]? = some m.links[link] := List.getElem?_eq_getElem hlt
    generalize m.links[link] = l at hl
    dsimp only
    split
    · exact .refl
    · rename_i l' frame hf
      obtain ⟨handler, history, heq, ho⟩ := dispatch_eq frame
        ((m.updateLink link (fun _ => l')).record (.dispatched link frame))
      rw [heq]
      refine .one ((Deed.background rfl ht (.dispatched g link l l' frame hr hp hc hl hf)).effect
        handler history ?_)
      have same : heard ((m.updateLink link (fun _ => l')).record (.dispatched link frame)) frame =
          heard m frame := rfl
      rw [ho, same]
      simp
    · rename_i l' f hf
      exact course_beginTeardown _ _ _ ht rfl rfl (.failed g link l l' f hr hp hc hl hf)
        (by simp [Task.isOperation, hr]) (fun _ => rfl) rfl (by simp)
    · rename_i l' hf
      exact course_beginTeardown _ _ m.history ht rfl rfl
        (.remote g link l l' hr hp hc hl hf) (by simp [Task.isOperation, hr]) (fun _ => rfl) rfl rfl

/-- A heartbeat goes on as every host does, and tears its link down where its probe has failed. -/
theorem course_settleProbe {g : Generation} {k : Heartbeat.Ticker} {x : Exchange}
    {r : Machine × Exchanged} (ht : r.1.task? t.id = some t) (hr : t.role = .heartbeat g)
    (hc : r.1.isCancelled g = false) :
    Course (Deed t.id) (proceed t (.heartbeat g k) x r) 1 (settleProbe t g k x r) := by
  unfold settleProbe proceed
  cases r.2 with
  | waiting stage => exact .refl
  | ended outcome =>
    cases outcome with
    | ok a => exact (Course.log Heartbeat.okNote _).mono (by omega)
    | error f =>
      have noted : ∃ history,
          r.1.noteAnswer t.id x (.error f) = { r.1 with history := history } := by
        unfold noteAnswer
        split
        · exact ⟨_, rfl⟩
        · exact ⟨_, rfl⟩
      obtain ⟨history, hn⟩ := noted
      dsimp only
      rw [hn]
      let u : Task := { t with position := .ticking k }
      have hu : (r.1.move t.id (.ticking k)).task? u.id = some u := task?_move_self ht _
      exact course_beginTeardown r.1.links r.1.tasks _ hu rfl rfl (.silent g k hr rfl hc)
        (by simp [u, Task.isOperation, hr]) (fun p => placed_placed.symm) without_placed.symm
        (by simp [leave, Host.farewell])

/-- An exchange leaves the tasks and the cancellations as they are. -/
theorem runExchange_frame (id : TaskId) (x : Exchange) (stage : ExchangeStage) (m : Machine) :
    (m.runExchange id x stage).1.tasks = m.tasks ∧
      (m.runExchange id x stage).1.cancelled = m.cancelled := by
  have notSent : ∀ (f : Failure) (n : Machine),
      (n.notSent x f).1.tasks = n.tasks ∧ (n.notSent x f).1.cancelled = n.cancelled := by
    intro f n
    unfold Machine.notSent
    split <;> exact ⟨rfl, rfl⟩
  cases stage with
  | queued =>
    simp only [runExchange, writeFrame]
    split
    · exact notSent _ _
    · split
      · exact ⟨rfl, rfl⟩
      · exact notSent _ _
      · unfold wasSent
        split <;> exact ⟨rfl, rfl⟩
  | stalled deadline => exact notSent _ _
  | awaiting =>
    simp only [runExchange, takeReply]
    split
    · split
      · exact ⟨rfl, rfl⟩
      · dsimp only
        split <;> exact ⟨rfl, rfl⟩
    · exact ⟨rfl, rfl⟩

theorem newExchange_frame (id : TaskId) (message : Outbound) (timeout : Nat) (m : Machine) :
    ((m.newExchange id message timeout).1.beginExchange id
        (m.newExchange id message timeout).2).1.tasks = m.tasks ∧
      ((m.newExchange id message timeout).1.beginExchange id
        (m.newExchange id message timeout).2).1.cancelled = m.cancelled := by
  unfold beginExchange
  split
  · exact ⟨rfl, rfl⟩
  · exact ⟨rfl, rfl⟩

theorem course_runTick {g : Generation} {k : Heartbeat.Ticker} (ht : m.task? t.id = some t)
    (hr : t.role = .heartbeat g) (hp : t.position = .ticking k)
    (he : m.isCancelled g = true ∨ k.isDue m.now = true) : Course (Deed t.id) m 1 (m.runTick t g k) := by
  unfold runTick
  split
  · rename_i hc
    exact ((Course.one ((Deed.background rfl ht (.heartbeatLeft g k hr hp (.inl hc))).effect m.handler
      m.history (by simp))).trans (course_release .released _))
  · rename_i hc
    have hc : m.isCancelled g = false := by simpa using hc
    have hd : k.isDue m.now = true := by simpa [hc] using he
    obtain ⟨hts, hcs⟩ := newExchange_frame t.id .ping m.interval m
    have hh : (Host.heartbeat g (k.consume m.now)).Ready m t := ⟨k, hr, hp, hc, hd, rfl⟩
    exact (course_newExchange m.interval ht hh rfl rfl).after_calm
      (course_settleProbe (by rw [task?_eq, hts]; exact ht) hr
        (by rw [isCancelled, hcs]; exact hc))

theorem course_dropExchange (host : Host) {x : Exchange} {stage : ExchangeStage}
    (ht : m.task? t.id = some t) (hr : t.role = host.role) (hp : t.position = host.position x stage)
    (hv : t.aborted = true ∨ ¬ host.Live m) :
    Course (Deed t.id) m 0 ((m.dropExchange t.id x).removeTask t.id) := by
  refine Course.trans (j := 0) ?_ (course_release .released _)
  have gone := Deed.exchanging rfl ht (.givenUp host x stage hr hp hv)
  unfold dropExchange
  cases hx : x.ticket with
  | none =>
    rw [hx] at gone
    exact .one_calm (gone.effect m.handler m.history (by simp)) rfl rfl
  | some k =>
    rw [hx] at gone
    exact .one_calm (gone.effect m.handler m.history (by simp)) rfl rfl

theorem course_runProbe {g : Generation} {k : Heartbeat.Ticker} {x : Exchange}
    {stage : ExchangeStage} (ht : m.task? t.id = some t) (hr : t.role = .heartbeat g)
    (hp : t.position = .probing k x stage) (hx : x.ticket.isSome = true)
    (he : m.isCancelled g = true ∨ m.exchangeReady t.id x stage = true) :
    Course (Deed t.id) m 1 (m.runProbe t g k x stage) := by
  unfold runProbe
  split
  · rename_i hc
    exact (course_dropExchange (.heartbeat g k) ht hr hp
      (.inr (by simp [Host.Live, hc]))).mono (by omega)
  · rename_i hc
    have hc : m.isCancelled g = false := by simpa using hc
    have hready : m.exchangeReady t.id x stage = true := by simpa [hc] using he
    obtain ⟨hts, hcs⟩ := runExchange_frame t.id x stage m
    exact (course_runExchange (.heartbeat g k) ht hr hc hp (fun hn => by simp [hn] at hx)
      hready).after_calm
        (course_settleProbe (by rw [task?_eq, hts]; exact ht) hr
          (by rw [isCancelled, hcs]; exact hc))

/-! ## The end of a teardown -/

/-- Waiting requests have failed and the client is idle; nobody has been told yet. -/
def goIdle (td : Teardown) (m : Machine) : Machine :=
  let drained := m.registry.drain td.cause.failure
  let m := { m with registry := drained.1 }.record (.closed td.generation td.cause)
  let m := m.log (Log.info "realtime link closed"
    [("generation", toString td.generation), ("cause", td.cause.message),
      ("drained", toString drained.2)])
  { m with state := .idle }

def tell (td : Teardown) (m : Machine) : Machine :=
  if td.notify then m.emit (.disconnected td.cause) else m

/-- The application and the policy hear of the end of a link, and the task ends. -/
def announce (t : Task) (td : Teardown) (m : Machine) : Machine :=
  (if td.cause = .user then m.tell td else (m.tell td).applyPolicy td.cause).afterTeardown t

theorem endTeardown_eq (t : Task) (td : Teardown) (m : Machine) :
    m.endTeardown t td = (m.goIdle td).announce t td := rfl

/-- The policy either leaves the client alone or starts an operation on it. -/
theorem applyPolicy_eq (cause : Cause) (m : Machine) :
    (∃ history, m.applyPolicy cause = { m with history := history } ∧
      observed history = observed m.history ++ [⟨m.now, .disconnect cause⟩]) ∨
    ∃ op policy history, m.inUse = true ∧ m.applyPolicy cause =
        { m with
          policy := policy
          tasks := m.tasks ++ [⟨m.nextTask, .operation op, .start, false⟩]
          nextTask := m.nextTask + 1
          history := history } ∧
      observed history = observed m.history ++
        [⟨m.now, .disconnect cause⟩, ⟨m.now, .started m.nextTask op⟩] := by
  unfold applyPolicy
  dsimp only
  split
  · exact .inl ⟨_, rfl, by simp⟩
  · exact .inl ⟨_, rfl, by simp⟩
  · rename_i left token hpol
    split
    · exact .inl ⟨_, rfl, by simp⟩
    · rename_i h
      have hu : m.inUse = true := by
        cases hn : m.inUse with
        | true => rfl
        | false => exact absurd (.inr (by simpa [inUse, record] using hn)) h
      exact .inr ⟨.signIn token none, .redial (left - 1) token, _, hu, rfl, by simp; rfl⟩

/-- The part of a teardown's end that is the same for every task. -/
theorem told_eq (td : Teardown) (m : Machine) :
    ∃ handler history, (m.goIdle td).tell td =
        { m with
          registry := (m.registry.drain td.cause.failure).1
          state := .idle
          handler := handler
          history := history } ∧
      observed history = observed m.history ++ (.closed td.generation td.cause ::
        if td.notify then [.shown .idle 0, .event (.disconnected td.cause)]
        else []).map (Record.mk m.now) := by
  unfold tell
  split
  · obtain ⟨handler, history, heq, ho⟩ := emit_eq (.disconnected td.cause) (m.goIdle td)
    have idle : (m.goIdle td).state = .idle ∧ (m.goIdle td).registry.size = 0 := ⟨rfl, rfl⟩
    exact ⟨handler, history, heq, by rw [ho, idle.1, idle.2]; simp [goIdle]⟩
  · exact ⟨m.handler, _, rfl, by simp⟩

theorem course_endTeardown {u : Task} {td : Teardown} {stage : TeardownStage} {links : List Link}
    {queue : List TaskId} {ts : List Task} (history : List Record)
    (hu : m.task? u.id = some u) (hid : t.id = u.id) (hrole : t.role = u.role)
    (hnext : u.id < m.nextTask) (hf : Fits u.role u.position) (hp : u.position = .tearing td stage)
    (hv : Vacated m u stage links queue) (hwithout : without u.id ts = without u.id m.tasks)
    (hin : u.isOperation = false → (m.held || ts.any Task.isOperation) = true →
      (m.held || (without u.id ts).any Task.isOperation) = true)
    (ho : observed history = observed m.history) :
    Course (Deed t.id) m 1 ({ m with
      links := links
      lockQueue := queue
      tasks := ts
      history := history }.endTeardown t td) := by
  have gone := Deed.tearing rfl hu (.ended td stage links queue hf hp hv)
  obtain ⟨handler, told, heq, hotold⟩ := told_eq td
    { m with links := links, lockQueue := queue, tasks := ts, history := history }
  rw [endTeardown_eq]
  unfold announce
  rw [heq]
  have hclose : closeEnd t = closeEnd u := by
    funext l
    rw [closeEnd, closeEnd, hrole]
  cases hop : u.isOperation with
  | true =>
    -- only a close is an operation that tears down, and the policy does not hear of it
    have hcause : td.cause = .user := by
      rw [hp] at hf
      cases hr : u.role <;> simp [Task.isOperation, hr] at hop
      rw [hr] at hf
      cases hf
      rfl
    rw [if_pos hcause]
    obtain ⟨op, hr⟩ : ∃ op, t.role = .operation op := by
      cases hr : u.role <;> simp [Task.isOperation, hr] at hop
      exact ⟨_, hrole.trans hr⟩
    unfold afterTeardown
    rw [hr]
    have hstay : closeEnd u links = links := by rw [closeEnd, ← hrole, hr]
    rw [hstay] at gone
    have ended := gone.effect handler (⟨m.now, .finished t.id (.ok .nothing)⟩ :: told)
      (by simp [hotold, ho, hcause, hop, hid])
    rw [← hwithout, ← hid] at ended
    exact (Course.one ended).trans (course_release .released _)
  | false =>
    have htop : t.isOperation = false := by rw [Task.isOperation, hrole]; exact hop
    have hcause : td.cause ≠ .user := by
      rw [hp] at hf
      cases hr : u.role <;> simp [Task.isOperation, hr] at hop <;> rw [hr] at hf <;> cases hf <;>
        simp
    rw [if_neg hcause]
    have ended := gone.effect handler (⟨m.now, .disconnect td.cause⟩ :: told)
      (by simp [hotold, ho, hcause, hop])
    rw [← hwithout, ← hid, ← hclose] at ended
    rcases applyPolicy_eq td.cause
        { m with
          registry := (m.registry.drain td.cause.failure).1
          state := .idle
          links := links
          lockQueue := queue
          tasks := ts
          handler := handler
          history := told } with ⟨history', hpol, hnote⟩ | ⟨op, policy, history', hu', hpol, hnote⟩
    · rw [hpol, afterTeardown_eq htop]
      have ended := gone.effect handler history' (by simp [hnote, hotold, ho, hcause, hop])
      rw [← hwithout, ← hid, ← hclose] at ended
      exact (Course.one ended).trans (course_release .released _)
    · rw [hpol, afterTeardown_eq htop]
      have hnew : without t.id (ts ++ [⟨m.nextTask, .operation op, .start, false⟩]) =
          without t.id ts ++ [⟨m.nextTask, .operation op, .start, false⟩] := by
        have hne : (m.nextTask != t.id) = true := by simpa [hid] using Nat.ne_of_gt hnext
        simp [without, hne]
      rw [hnew]
      refine Course.trans (j := 1) ((Course.one ended).calm ?_ ?_ ?_) (course_release .released _)
      · exact (Deed.hires op policy (hid ▸ hin hop hu')).effect handler history'
          (by simp [hnote, hotold])
      · rfl
      · rfl

theorem inUse_without {u : Task} (hm : Fit m) (hu : m.task? u.id = some u)
    (ho : u.isOperation = false) (h : (m.held || m.tasks.any Task.isOperation) = true) :
    (m.held || (without u.id m.tasks).any Task.isOperation) = true := by
  rcases (Bool.or_eq_true _ _).mp h with h | h
  · simp [h]
  · obtain ⟨w, hw, hop⟩ := List.any_eq_true.mp h
    have hne : w.id ≠ u.id := by
      intro he
      have hf := findTask_of_mem hm.nodup hw
      rw [he, ← task?_eq, hu] at hf
      rw [← Option.some.inj hf, ho] at hop
      cases hop
    have hmem : w ∈ without u.id m.tasks := List.mem_filter.mpr ⟨hw, by simpa using hne⟩
    rw [Bool.or_eq_true]
    exact .inr (List.any_eq_true.mpr ⟨w, hmem, hop⟩)

theorem course_runTeardown {td : Teardown} {stage : TeardownStage} (hm : Fit m)
    (ht : m.task? t.id = some t) (hp : t.position = .tearing td stage)
    (he : stage = .queued → m.holdsLock t.id = true) : Course (Deed t.id) m 1 (m.runTeardown t td stage) := by
  have hf := hm.fits _ _ ht
  have hnext := hm.fresh _ _ ht
  have hin := fun ho => inUse_without hm ht ho
  cases stage with
  | closing link deadline =>
    exact course_endTeardown _ ht rfl rfl hnext hf hp (.closed link deadline) rfl hin (by simp)
  | queued =>
    have hl := he rfl
    simp only [runTeardown, tearWriter]
    cases hw : m.writer with
    | none =>
      have hsame : ({ m with writer := none }.leaveLock t.id) = m.leaveLock t.id := by
        rw [← hw]
      rw [hsame]
      exact course_endTeardown m.history ht rfl rfl hnext hf hp (.empty hl hw) rfl hin rfl
    | some link =>
      have taken := (Deed.tearing rfl ht (.taken td link hp hl hw)).effect m.handler m.history
        (by simp)
      let p : Position :=
        .tearing td (.closing link (m.now + m.settings.realtime.sendTimeout.toNat))
      let u : Task := { t with position := p }
      have hu : ({ m with writer := none }.leaveLock t.id |>.move t.id p).task? u.id = some u :=
        task?_move_self (m := { m with writer := none }.leaveLock t.id) ht _
      have fits : Fits u.role u.position := by
        rw [hp] at hf
        change Fits t.role (.tearing td (.closing link _))
        generalize t.role = r at hf
        cases hf <;> constructor
      dsimp only
      split
      · refine (Course.one_calm taken rfl rfl).after_calm ?_
        exact course_endTeardown m.history hu rfl rfl hnext fits rfl (.closed link _)
          without_placed.symm hin rfl
      · refine (Course.one_calm taken rfl rfl).after_calm ?_
        exact course_endTeardown _ hu rfl rfl hnext fits rfl (.closed link _)
          without_placed.symm hin (by simp)
      · exact (Course.one_calm taken rfl rfl).mono (by omega)

end GameLink.Client.Machine
