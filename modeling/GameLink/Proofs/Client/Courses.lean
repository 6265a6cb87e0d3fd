import GameLink.Proofs.Client.TeardownCourse

/-! # Every move is a course of changes

The functions of connecting, taken apart into changes, and with them every step
of a worker that can go on and every action: where tasks fit their roles, each is
a course with at most one move of the lifecycle (`course_after`).
-/
namespace GameLink.Client.Machine

variable {m : Machine} {t : Task}

/-! ## Connecting -/

/-- An operation that is to send nothing ends as it begins. -/
theorem course_finishStart {op : Operation} (ht : m.task? t.id = some t)
    (hr : t.role = .operation op) (hp : t.position = .start) (hm : op.message? = none)
    (r : Result) :
    Course (Deed t.id) m 0 (m.finish t.id r) :=
  course_finish ht r hr (.inl ⟨hp, Operation.requests_eq_false hm⟩) (fun _ => .inl hm)
    fun _ _ _ _ hd => by cases hp.symm.trans hd

theorem course_refuseConnect {op : Operation} (ht : m.task? t.id = some t)
    (hr : t.role = .operation op) (hp : t.position = .start) (hm : op.message? = none)
    (reason : String) : Course (Deed t.id) m 0 (m.refuseConnect t reason) :=
  course_finishStart ht hr hp hm _

theorem course_beginConnect {op : Operation} (ht : m.task? t.id = some t)
    (hr : t.role = .operation op) (hp : t.position = .start) (hm : op.message? = none)
    (hc : op.connects = true) (session : Session) (online : Option Bool) :
    Course (Deed t.id) m 1 (m.beginConnect t session online) := by
  unfold beginConnect
  dsimp only
  split
  · exact (course_finishStart ht hr hp hm _).mono (by omega)
  · exact ((Course.log _ m).after_calm
      (course_refuseConnect (m := m.log _) ht hr hp hm _)).mono (by omega)
  · split
    · rename_i hs
      exact .one ((Deed.connecting rfl ht (.begun op _ _ _ hr hp hm hs rfl
        ⟨_, _, rfl, Nat.le_add_right _ _⟩ hc)).effect m.handler _ (by simp))
    · exact (course_refuseConnect ht hr hp hm _).mono (by omega)

theorem course_beginSignIn {op : Operation} (ht : m.task? t.id = some t)
    (hr : t.role = .operation op) (hp : t.position = .start) (hm : op.message? = none)
    (hc : op.connects = true) (token : String) (online : Option Bool) :
    Course (Deed t.id) m 1 (m.beginSignIn t token online) := by
  unfold beginSignIn
  split
  · exact (course_finishStart ht hr hp hm _).mono (by omega)
  · exact (Course.log _ m).after_calm (course_beginConnect (m := m.log _) ht hr hp hm hc _ _)

theorem course_beginClose {n : Bool} (ht : m.task? t.id = some t)
    (hr : t.role = .operation (.close n)) (hp : t.position = .start) :
    Course (Deed t.id) m 1 (m.beginClose t n) := by
  unfold beginClose
  split
  · rename_i hs
    exact course_beginTeardown _ m.tasks m.history ht rfl rfl (.close n hr hp)
      (fun _ => hs) (fun _ => rfl) rfl rfl
  · rename_i hs
    exact (Course.one ((Deed.connecting rfl ht (.backedOut n hr hp hs)).effect m.handler m.history
      (by simp))).trans
        (course_finishStart (m := { m with generation := m.generation + 1, state := .idle })
        ht hr hp rfl _)
  · exact (course_finishStart ht hr hp rfl _).mono (by omega)
  · exact (course_finishStart ht hr hp rfl _).mono (by omega)

theorem course_failConnect {op : Operation} {g : Generation} {url : String} {deadline : Nat}
    {stage : DialStage} (ht : m.task? t.id = some t) (hr : t.role = .operation op)
    (hp : t.position = .dialing g url deadline stage) (f : Failure) :
    Course (Deed t.id) m 1 (m.failConnect t g f) := by
  have abandoned : Course (Deed t.id) m 1 (m.abandonConnect g) := by
    unfold abandonConnect
    split
    · rename_i h
      exact .one
        ((Deed.connecting rfl ht (.abandoned g url deadline stage hp h.1 h.2)).effect m.handler
        m.history (by simp))
    · exact .refl
  have htasks : (m.abandonConnect g).task? t.id = some t := by
    unfold abandonConnect
    split
    · exact ht
    · exact ht
  have past : ¬ ((m.abandonConnect g).generation = g ∧
      (m.abandonConnect g).state = .connecting) := by
    unfold abandonConnect
    split
    · exact fun h => nomatch h.2
    · assumption
  refine abandoned.trans ((Course.log _ _).after_calm
    (course_finish (m := (m.abandonConnect g).log _) htasks _ hr
      (.inr ⟨g, url, deadline, stage, hp⟩) (fun hs => by cases hp.symm.trans hs) ?_))
  intro g' _ _ _ h
  cases hp.symm.trans h
  exact ⟨⟨_, rfl⟩, past⟩

theorem dial_link {mode : DialMode} {url : String} {link : Link}
    (h : mode.dial true url = .link link) : link = { url := url } := by
  cases mode with
  | accept => simpa [DialMode.dial, eq_comm] using h
  | refuse reason => simp [DialMode.dial] at h
  | hang => simp [DialMode.dial] at h

theorem course_runDial {op : Operation} {g : Generation} {url : String} {deadline : Nat}
    {stage : DialStage} (ht : m.task? t.id = some t) (hr : t.role = .operation op)
    (hp : t.position = .dialing g url deadline stage) :
    Course (Deed t.id) m 1 (m.runDial t g url deadline stage) := by
  cases stage with
  | hung => exact course_failConnect ht hr hp _
  | delayed wake failure =>
    simp only [runDial]
    split
    · cases failure with
      | some f => exact course_failConnect ht hr hp f
      | none =>
        dsimp only
        split
        · rename_i link hd
          rw [dial_link hd]
          exact .calm .refl
            ((Deed.connecting rfl ht (.dialed op g url deadline _ hr hp)).effect m.handler
            _ (observed_cons _ _)) rfl rfl
        · exact course_failConnect ht hr hp _
        · exact .calm .refl
            ((Deed.connecting rfl ht (.hung op g url deadline wake hr hp)).effect m.handler
            m.history (by simp)) rfl rfl
    · exact course_failConnect ht hr hp _

theorem setWriter_eq (link : LinkId) (m : Machine) :
    m.setWriter link =
      { m with writer := some link, links := replaceWriter m.links m.writer } := by
  unfold setWriter
  split
  · rename_i old hw
    rw [hw]
    rfl
  · rename_i hw
    rw [hw]
    rfl

theorem course_installLink {op : Operation} {g : Generation} {link : LinkId}
    (ht : m.task? t.id = some t) (hr : t.role = .operation op)
    (hp : t.position = .installing g link)
    (hl : m.holdsLock t.id = true) (hg : m.generation = g) (hs : m.state = .connecting) :
    Course (Deed t.id) m 1 (m.installLink t g link) := by
  unfold installLink
  dsimp only
  obtain ⟨handler, history, heq, ho⟩ := emit_eq .connected
    (((({ m with state := .open, cancel := some g }.record (.opened g link)).setWriter
      link).leaveLock t.id).log (Log.info "connected" [("generation", toString g)]))
  rw [heq]
  rw [setWriter_eq] at ho ⊢
  have installed := (Deed.connecting rfl ht (.installed op g link hr hp hl hg hs)).effect handler
    (⟨m.now, .finished t.id (.ok .nothing)⟩ :: history) (by rw [observed_cons, ho]; simp)
  exact (Course.one installed).trans (course_release .released _)

theorem course_runInstall {op : Operation} {g : Generation} {link : LinkId}
    (ht : m.task? t.id = some t) (hr : t.role = .operation op)
    (hp : t.position = .installing g link)
    (hl : m.holdsLock t.id = true) : Course (Deed t.id) m 1 (m.runInstall t g link) := by
  unfold runInstall
  split
  · rename_i h
    exact course_installLink ht hr hp hl h.1 h.2
  · rename_i h
    have outdated := (Deed.connecting rfl ht (.outdated op g link hr hp hl h)).effect m.handler
      m.history (by simp)
    let u : Task := { t with position := .discarding link }
    have hu : ((m.leaveLock t.id).move t.id (.discarding link)).task? u.id = some u :=
      task?_move_self (m := m.leaveLock t.id) ht _
    have discard : Course (Deed t.id) m 0 ((m.leaveLock t.id).endDiscard t g link) := by
      refine (Course.one_calm outdated rfl rfl).after_calm
        (Course.trans (j := 0) ?_ (course_release .released _))
      have ended := (Deed.connecting rfl hu
        (.discarded op link (.connection "closed while connecting") hr rfl)).effect m.handler
          (closeReader link (log (Log.debug "link discarded, closed while connecting"
              [("generation", toString g)]) (closeWriter link m))
            |>.record (.finished t.id (.failed (.connection "closed while connecting")))).history
          (by simp [u])
      have moved : ((m.leaveLock t.id).move t.id (.discarding link)).tasks =
          placed t.id (.discarding link) m.tasks := rfl
      rw [moved, without_placed] at ended
      exact .one_calm ended rfl rfl
    dsimp only
    split
    · exact (Course.one_calm outdated rfl rfl).mono (by omega)
    · exact discard.mono (by omega)
    · exact discard.mono (by omega)

/-! ## Starting and dropping a task -/

theorem course_beginRequest {op : Operation} (ht : m.task? t.id = some t)
    (hr : t.role = .operation op) (hp : t.position = .start) (hq : op.requests = true)
    {message : Outbound} (hm : op.message? = some message) {bound : Bound}
    (hb : m.boundMs bound = (Host.operation op).bound m) :
    Course (Deed t.id) m 0 (m.beginRequest t op message bound) :=
  have ready : (Host.operation op).Ready m t := ⟨hr, hp, hq⟩
  (course_newExchange _ ht ready hm hb).trans (course_settleExchange _ _ _ _)

theorem course_beginCall {call : Call} (ht : m.task? t.id = some t)
    (hr : t.role = .operation (.perform call)) (hp : t.position = .start) :
    Course (Deed t.id) m 0 (m.beginCall t (.perform call) call) := by
  unfold beginCall
  split
  · rename_i f hc
    have hm : (Operation.perform call).message? = none := by
      rw [Operation.message?, hc]
      rfl
    exact course_finishStart ht hr hp hm _
  · rename_i message hc
    have hm : (Operation.perform call).message? = some message := by
      rw [Operation.message?, hc]
      rfl
    split
    · rename_i ha
      have hq : (Operation.perform call).requests = true := by
        simp [Operation.requests, hc, ha, Except.isOk, Except.toBool]
      exact course_beginRequest ht hr hp hq hm rfl
    · rename_i ha
      have hq : (Operation.perform call).requests = false := by simp [Operation.requests, ha]
      exact course_beginSend ht hr hp hq hm

theorem course_runStart (ht : m.task? t.id = some t) (hp : t.position = .start) :
    Course (Deed t.id) m 1 (m.runStart t) := by
  unfold runStart
  cases hr : t.role with
  | operation op =>
    cases op with
    | connect session online => exact course_beginConnect ht hr hp rfl rfl session online
    | signIn token online => exact course_beginSignIn ht hr hp rfl rfl token online
    | close n => exact course_beginClose ht hr hp
    | send message => exact (course_beginSend ht hr hp rfl rfl).mono (by omega)
    | request message bound => exact (course_beginRequest ht hr hp rfl rfl rfl).mono (by omega)
    | perform call => exact (course_beginCall ht hr hp).mono (by omega)
  | reader g link =>
    exact .calm .refl
      ((Deed.background rfl ht (.readerStarted g link hr hp)).effect m.handler m.history
      (by simp)) rfl rfl
  | heartbeat g =>
    exact .calm .refl ((Deed.background rfl ht (.heartbeatStarted g hr hp)).effect m.handler m.history
      (by simp)) rfl rfl

theorem course_dropTask (hm : Fit m) (ht : m.task? t.id = some t) (ha : t.aborted = true) :
    Course (Deed t.id) m 0 (m.dropTask t) := by
  have hf := hm.fits _ _ ht
  have dropped : ∀ {links : List Link} {queue : List TaskId}, Drops m t t.position links queue →
      Course (Deed t.id) m 0 (removeTask t.id { m with links := links, lockQueue := queue }) := by
    intro links queue hd
    exact (Course.one_calm
      ((Deed.leaving rfl ht (.dropped links queue ha hd)).effect m.handler m.history
      (by simp)) rfl rfl).after_calm (course_release .released _)
  unfold dropTask
  cases hp : t.position with
  | start => exact dropped (hp ▸ .start)
  | dialing g url deadline stage => exact dropped (hp ▸ .dialing g url deadline stage)
  | installing g link => exact dropped (hp ▸ .installing g link)
  | discarding link => exact dropped (hp ▸ .discarding link)
  | tearing td stage =>
    cases stage with
    | queued => exact dropped (hp ▸ .queued td)
    | closing link deadline => exact dropped (hp ▸ .closing td link deadline)
  | reading => exact dropped (hp ▸ .reading)
  | ticking k => exact dropped (hp ▸ .ticking k)
  | exchanging x stage =>
    rw [hp] at hf
    cases hr : t.role with
    | operation op => exact course_dropExchange (.operation op) ht hr hp (.inl ha)
    | reader g link => rw [hr] at hf; cases hf
    | heartbeat g => rw [hr] at hf; cases hf
  | probing k x stage =>
    rw [hp] at hf
    cases hr : t.role with
    | operation op => rw [hr] at hf; cases hf
    | reader g link => rw [hr] at hf; cases hf
    | heartbeat g => exact course_dropExchange (.heartbeat g k) ht hr hp (.inl ha)

/-! ## Steps and actions -/

theorem course_runTask (hm : Fit m) (ht : m.task? t.id = some t) (he : m.taskEnabled t = true) :
    Course (Deed t.id) m 1 (m.runTask t) := by
  have hf := hm.fits _ _ ht
  unfold runTask
  unfold taskEnabled at he
  cases ha : t.aborted with
  | true => exact (course_dropTask hm ht ha).mono (by omega)
  | false =>
    rw [ha, Bool.false_or] at he
    rw [if_neg (by simp)]
    generalize hr : t.role = r at hf he
    generalize hp : t.position = p at hf he
    cases hf with
    | start => exact course_runStart ht hp
    | dialing => exact course_runDial ht hr hp
    | installing => exact course_runInstall ht hr hp he
    | discarding => exact .refl
    | exchanging hx =>
      have run := course_runExchange (.operation _) ht hr trivial hp (fun _ => ⟨_, rfl⟩) he
      exact (run.trans (course_settleExchange _ _ _ _)).mono (by omega)
    | @closing n g s =>
      exact course_runTeardown hm ht hp (fun hs => by subst hs; exact he)
    | reading => exact course_runReading hm ht hr hp
    | @remote g l g' s =>
      exact course_runTeardown hm ht hp (fun hs => by subst hs; exact he)
    | @failed g l g' reason s =>
      exact course_runTeardown hm ht hp (fun hs => by subst hs; exact he)
    | ticking => exact course_runTick ht hr hp (by simpa using he)
    | probing hx => exact course_runProbe ht hr hp hx (by simpa using he)
    | @silent g g' s =>
      exact course_runTeardown hm ht hp (fun hs => by subst hs; exact he)

/-- What a worker does is the doing of its task; a forwarder only hands events on. -/
theorem course_run (hm : Fit m) {w : Worker} (h : m.enabled w = true) {i : TaskId}
    (hi : ∀ j, w = .task j → j = i) : Course (Deed i) m 1 (m.run w) := by
  cases w with
  | task id =>
    simp only [enabled, run] at h ⊢
    cases ht : m.task? id with
    | none => exact .refl
    | some t =>
      obtain rfl := hi id rfl
      obtain rfl := findTask_id ht
      rw [ht] at h
      exact course_runTask hm ht h
  | forwarder k =>
    simp only [run]
    split
    · rename_i c _
      obtain ⟨history, heq, ho⟩ := logAll_eq (c.forward k).2
        { m with handler := .channel (c.forward k).1 }
      rw [heq]
      have quiet : Course (Deed i) m 0
          { m with handler := .channel (c.forward k).1, history := history } :=
        Course.quiet _ _ ho
      exact quiet.mono (by omega)
    · exact .refl

theorem course_act {a : Action} (h : m.permits a = true) : Course Stir m 0 (m.act a) := by
  have outside : ∀ {n : Machine}, Outside m [] n → n.history = m.history → n.handler = m.handler →
      n.state = m.state → n.generation = m.generation → Course Stir m 0 n := by
    intro n hn hh hd hs hg
    have he : Effect Stir m _ := .of (.outside hn) m.handler m.history (by simp)
    rw [← hh, ← hd] at he
    exact .one_calm he hs hg
  cases a with
  | start op =>
    have hu : m.inUse = true := by
      have hh : m.held = true := h
      simp [inUse, hh]
    exact .one_calm (.of (.outside (.started op m.policy hu)) m.handler _ (observed_cons _ _))
      rfl rfl
  | abort id => exact outside (.aborted id h) rfl rfl rfl rfl
  | dropHandle =>
    exact (outside .unheld rfl rfl rfl rfl).after_calm (course_release .released _)
  | setDialer d => exact outside (.ambient d m.closeMode m.clock) rfl rfl rfl rfl
  | setCloseMode c => exact outside (.ambient m.dialer c m.clock) rfl rfl rfl rfl
  | setClock seconds => exact outside (.ambient m.dialer m.closeMode seconds) rfl rfl rfl rfl
  | serverPush link frame =>
    simp only [act, serverPush]
    have hp : m.serverPresent link = true := h
    unfold serverPresent at hp
    split
    · exact .refl
    · rename_i l hl
      rw [hl] at hp
      split
      · rename_i l' hf
        have hr : l.readerOpen = true := by
          unfold Link.push at hf
          split at hf
          · assumption
          · cases hf
        have hl' : l' = (l.push frame).1 := by rw [hf]
        subst hl'
        exact .one_calm (.of (.outside (.pushed link l frame hl hp hr)) m.handler _
          (observed_cons _ _)) rfl rfl
      · exact .refl
  | serverMode link mode => exact outside (.serverMode link mode) rfl rfl rfl rfl
  | serverClose link => exact outside (.serverClosed link) rfl rfl rfl rfl
  | serverTake link =>
    simp only [act, serverTake]
    split
    · exact .refl
    · rename_i l hl
      split
      · rename_i l' text hf
        have hl' : l' = l.take.1 := by rw [hf]
        subst hl'
        exact .one_calm (.of (.outside (.taken link l text hl (by rw [hf]))) m.handler _
          (observed_cons _ _)) rfl rfl
      · exact .refl
  | receive =>
    simp only [act, receive]
    split
    · rename_i c _
      exact .one_calm (.of (.outside .nothing) (.channel c.receive.1) m.history (by simp)) rfl rfl
    · exact .refl
  | elapse ms => exact outside (.elapsed ms h) rfl rfl rfl rfl

/-- Every step is one of some task, the forwarder's of any. -/
theorem exists_course_run (hm : Fit m) {w : Worker} (h : m.enabled w = true) :
    ∃ i, Course (Deed i) m 1 (m.run w) := by
  cases w with
  | task i => exact ⟨i, course_run hm h fun _ hj => (Worker.task.inj hj).symm⟩
  | forwarder _ => exact ⟨0, course_run hm h (by simp)⟩

/-- Every move is a course of changes, at most one of which moves the lifecycle. -/
theorem course_after (hm : Fit m) {v : Move} (h : m.allows v = true) :
    Course Change m 1 (m.after v) := by
  cases v with
  | work w =>
    obtain ⟨i, course⟩ := exists_course_run hm h
    exact course.imp fun _ _ _ h => h.change
  | act a => exact ((course_act h).imp fun _ _ _ h => h.change).mono (by omega)

end GameLink.Client.Machine
