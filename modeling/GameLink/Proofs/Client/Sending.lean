import GameLink.Proofs.Client.Accounted
import GameLink.Proofs.Client.Speech

/-! # How the sending of a message ends

A call sends its message as it begins, where the client is not open, or at the
writer. Where that fails, the call is spent (`SendFails.unsent`); where it does
not, its frame is written on the link that the writer is for
(`Machine.runExchange_sent`).
-/
namespace GameLink.Client

open Function (update)

/-- In the next step of a task the sending of a message fails. -/
inductive SendFails (m : Machine) (t : Task) : Option String → Failure → Prop
  | message (op : Operation) (message : Outbound) (f : Failure) (hr : t.role = .operation op)
      (hp : t.position = .start) (hq : op.requests = false) (hm : op.message? = some message)
      (hf : (m.beginExchange t.id ⟨message, none, 0⟩).2 = .ended (.error f)) : SendFails m t none f
  | request (host : Host) (message : Outbound) (timeout : Nat) (f : Failure) (hh : host.Ready m t)
      (hm : host.message? = some message)
      (hf : ((m.newExchange t.id message timeout).1.beginExchange t.id
        (m.newExchange t.id message timeout).2).2 = .ended (.error f)) :
      SendFails m t (some m.registry.nextCid) f
  | writer (host : Host) (x : Exchange) (stage : ExchangeStage) (f : Failure)
      (hr : t.role = host.role) (hv : host.Live m) (hp : t.position = host.position x stage)
      (hs : stage ≠ .awaiting) (hf : (m.runExchange t.id x stage).2 = .ended (.error f)) :
      SendFails m t (x.ticket.map Ticket.cid) f

namespace Machine

section
variable {m : Machine} {t : Task} {host : Host} {x : Exchange} {stage : ExchangeStage}
  {f : Failure}

/-! ## The functions of an exchange -/

theorem notSent_failed (x : Exchange) (f : Failure) (m : Machine) :
    (m.notSent x f).2 = .ended (.error f) := by
  unfold notSent
  split <;> rfl

theorem beginExchange_failed {id : TaskId} (h : (m.beginExchange id x).2 = .ended (.error f)) :
    m.state ≠ .open ∧ f = .notConnected := by
  unfold beginExchange at h
  split at h
  · cases h
  · rename_i hs
    rw [notSent_failed] at h
    cases h
    exact ⟨hs, rfl⟩

theorem runExchange_failed (he : m.exchangeReady t.id x stage = true) (hs : stage ≠ .awaiting)
    (h : (m.runExchange t.id x stage).2 = .ended (.error f)) :
    NotSent m t x stage f ∧ m.runExchange t.id x stage = (m.leaveLock t.id).notSent x f := by
  cases stage with
  | awaiting => exact absurd rfl hs
  | stalled deadline =>
    have hf := (notSent_failed x m.sendTimeoutFailure (m.leaveLock t.id)).symm.trans h
    cases hf
    exact ⟨.timedOut deadline (by simpa [exchangeReady] using he), rfl⟩
  | queued =>
    have hl : m.holdsLock t.id = true := he
    simp only [runExchange, writeFrame] at h ⊢
    split at h
    · rename_i hw
      rw [notSent_failed] at h
      cases h
      exact ⟨.noWriter hl hw, rfl⟩
    · rename_i l link hw
      obtain ⟨hw, hk⟩ : m.writer = some l ∧ m.links[l]? = some link := by
        simpa [Option.bind_eq_some_iff] using hw
      split at h
      · cases h
      · rename_i f' hf
        rw [notSent_failed] at h
        cases h
        exact ⟨.refused l link f hl hw hk (by rw [hf]), rfl⟩
      · unfold wasSent at h
        split at h <;> cases h

/-- Where the sending succeeds, the link has taken the frame. -/
theorem runExchange_sent (hs : stage ≠ .awaiting)
    (h : (m.runExchange t.id x stage).2 = .waiting .awaiting ∨
      ∃ a, (m.runExchange t.id x stage).2 = .ended (.ok a)) :
    ∃ l k k', m.writer = some l ∧ m.links[l]? = some k ∧ k.write (frameOf x).toText = (k', .sent) ∧
      m.runExchange t.id x stage =
        (((m.updateLink l (fun _ => k')).record (.wrote t.id l (frameOf x))).leaveLock t.id).wasSent
          x := by
  have failed : ∀ {n : Machine} {f : Failure}, ¬ ((n.notSent x f).2 = .waiting .awaiting ∨
      ∃ a, (n.notSent x f).2 = .ended (.ok a)) := by
    intro n f
    rw [notSent_failed]
    rintro (h | ⟨_, h⟩) <;> cases h
  cases stage with
  | awaiting => exact absurd rfl hs
  | stalled deadline => exact absurd h failed
  | queued =>
    simp only [runExchange, writeFrame] at h ⊢
    split at h
    · exact absurd h failed
    · rename_i l link hw
      obtain ⟨hw, hk⟩ : m.writer = some l ∧ m.links[l]? = some link := by
        simpa [Option.bind_eq_some_iff] using hw
      split at h
      · rcases h with h | ⟨_, h⟩ <;> cases h
      · exact absurd h failed
      · rename_i link' hf
        exact ⟨l, link, link', hw, hk, hf, rfl⟩

/-! ## The step of a task -/

theorem runStart_message {op : Operation} {message : Outbound} (hr : t.role = .operation op)
    (hq : op.requests = false) (hm : op.message? = some message) :
    m.runStart t = settleExchange t op ⟨message, none, 0⟩
      (m.beginExchange t.id ⟨message, none, 0⟩) := by
  rw [runStart, hr]
  cases op with
  | send message' =>
    cases hm
    rfl
  | perform call =>
    have hm : call.message.toOption = some message := hm
    dsimp only
    unfold beginCall
    cases hc : call.message with
    | error f => rw [hc] at hm; cases hm
    | ok message' =>
      rw [hc] at hm
      cases hm
      have ha : call.awaitsReply = false := by
        simpa [Operation.requests, hc, Except.isOk, Except.toBool] using hq
      simp only [ha]
      rfl
  | request message' bound => cases hq
  | connect session online => cases hm
  | signIn token online => cases hm
  | close n => cases hm

theorem runStart_request {op : Operation} {message : Outbound} (hr : t.role = .operation op)
    (hq : op.requests = true) (hm : op.message? = some message) {timeout : Nat}
    (hb : timeout = (Host.operation op).bound m) :
    m.runStart t = settleExchange t op (m.newExchange t.id message timeout).2
      ((m.newExchange t.id message timeout).1.beginExchange t.id
        (m.newExchange t.id message timeout).2) := by
  rw [runStart, hr, hb]
  cases op with
  | request message' bound =>
    cases hm
    rfl
  | perform call =>
    have hm : call.message.toOption = some message := hm
    dsimp only
    unfold beginCall
    cases hc : call.message with
    | error f => rw [hc] at hm; cases hm
    | ok message' =>
      rw [hc] at hm
      cases hm
      have ha : call.awaitsReply = true := by
        simpa [Operation.requests, hc, Except.isOk, Except.toBool] using hq
      simp only [ha]
      rfl
  | send message' => cases hq
  | connect session online => cases hm
  | signIn token online => cases hm
  | close n => cases hm

/-- A step of an exchange is one of its host. -/
theorem course_hosted (ht : m.task? t.id = some t) (ha : t.aborted = false)
    (hr : t.role = host.role) (hv : host.Live m) (hp : t.position = host.position x stage) :
    Course (Deed t.id) (proceed t host x (m.runExchange t.id x stage)) 1 (m.runTask t) := by
  cases host with
  | operation op =>
    have run : m.runTask t = settleExchange t op x (m.runExchange t.id x stage) := by
      rw [runTask, ha, hr, hp]
      rfl
    rw [run]
    exact (course_settleExchange t op x _).mono (by omega)
  | heartbeat g k =>
    have hc : m.isCancelled g = false := hv
    have run : m.runTask t = settleProbe t g k x (m.runExchange t.id x stage) := by
      rw [runTask, ha, hr, hp]
      show m.runProbe t g k x stage = _
      rw [runProbe, hc]
      rfl
    obtain ⟨hts, hcs⟩ := runExchange_frame t.id x stage m
    rw [run]
    exact course_settleProbe (by rw [task?_eq, hts]; exact ht) hr
      (by rw [isCancelled, hcs]; exact hc)

/-- A step in which a request or a probe begins is one of its host. -/
theorem course_begun (ht : m.task? t.id = some t) (ha : t.aborted = false) (hh : host.Ready m t)
    {message : Outbound} (hm : host.message? = some message) {timeout : Nat}
    (hb : timeout = host.bound m) :
    Course (Deed t.id) (proceed t host (m.newExchange t.id message timeout).2
      ((m.newExchange t.id message timeout).1.beginExchange t.id
        (m.newExchange t.id message timeout).2)) 1 (m.runTask t) := by
  cases host with
  | operation op =>
    obtain ⟨hr, hp, hq⟩ := hh
    have run : m.runTask t = m.runStart t := by
      rw [runTask, ha, hp]
      rfl
    rw [run, runStart_request hr hq hm hb]
    exact (course_settleExchange t op _ _).mono (by omega)
  | heartbeat g k =>
    obtain ⟨old, hr, hp, hc, hd, rfl⟩ := hh
    obtain rfl : timeout = m.interval := hb
    cases hm
    have run : m.runTask t = m.runTick t g old := by
      rw [runTask, ha, hr, hp]
      rfl
    obtain ⟨hts, hcs⟩ := newExchange_frame t.id .ping m.interval m
    rw [run, runTick, hc]
    exact course_settleProbe (by rw [task?_eq, hts]; exact ht) hr
      (by rw [isCancelled, hcs]; exact hc)

/-! ## Spent calls -/

theorem trace_leave (t : Task) (host : Host) (outcome : Except Failure Answer) (m : Machine) :
    (m.leave t host outcome).trace = m.trace ++ host.farewell t.id outcome := by
  rw [trace, leave, observed_farewell, List.map_append, List.map_map]
  exact congrArg (m.trace ++ ·) (List.map_id _)

/-- Of a message that is not sent, the writer is left with nothing. -/
theorem line_notSent (t : Task) (host : Host) (x : Exchange) (f : Failure) (m : Machine) :
    (proceed t host x (m.notSent x f)).line (proceed t host x (m.notSent x f)).trace =
      { m.line m.trace with stances := Client.view stances (host.released t.id m.tasks) } := by
  have unwritten : utterances (proceed t host x (m.notSent x f)).trace = utterances m.trace := by
    cases hk : x.ticket with
    | none =>
      simp only [proceed, notSent, noteAnswer, hk]
      rw [trace_leave, utterances_append, host.utterances_farewell, List.append_nil]
    | some k =>
      simp only [proceed, notSent, noteAnswer, hk]
      rw [trace_leave, utterances_append, host.utterances_farewell, List.append_nil]
      simp [trace, Observation.utterance, utterances]
  cases hk : x.ticket with
  | none =>
    simp only [proceed, notSent, noteAnswer, hk] at unwritten ⊢
    exact congrArg (Line.mk _ _ _ _) unwritten
  | some k =>
    simp only [proceed, notSent, noteAnswer, hk] at unwritten ⊢
    exact congrArg (Line.mk _ _ _ _) unwritten

/-- A call that has not been written and is given up is spent. -/
theorem spent_notSent {cid : Option String} (host : Host) (x : Exchange) (f : Failure)
    (ht : m.task? t.id = some t) (hw : ∀ u ∈ utterances m.trace, u.call ≠ (t.id, cid))
    (hlt : t.id < m.nextTask) (hg : ∀ s, cid = some s → s ∈ Registry.cids m.registry.issued) :
    ((proceed t host x (m.notSent x f)).line (proceed t host x (m.notSent x f)).trace).Spent t.id
      cid := by
  rw [line_notSent, host.stances_released ht]
  refine ⟨hw, hlt, hg, fun _ hs => ?_, fun frame hs => ?_⟩
  · exact (of_update_none hs).1 rfl
  · exact absurd rfl (of_update_none hs).1

end

end Machine

section
variable {may : Move → Prop} {m : Machine} {t : Task} {cid : Option String} {f : Failure}

/-- In the next step of a task a call of its is given up, and then the step goes on. -/
def Spends (m : Machine) (t : Task) (cid : Option String) : Prop :=
  ∃ p, Course (Deed t.id) m 0 p ∧ (p.line p.trace).Spent t.id cid ∧
    Course (Deed t.id) p 1 (m.runTask t)

theorem spends_message (hm : m.Reachable may) (ht : m.task? t.id = some t)
    (ha : t.aborted = false) {op : Operation} {message : Outbound} (hr : t.role = .operation op)
    (hp : t.position = .start) (hq : op.requests = false) (hmsg : op.message? = some message)
    (hs : m.state ≠ .open) : Spends m t none := by
  have begun := Machine.course_newSend ht hr hp hq hmsg
  have run : m.runTask t = m.runStart t := by
    rw [Machine.runTask, ha, hp]
    rfl
  have settled := Machine.course_settleExchange t op ⟨message, none, 0⟩
    (m.beginExchange t.id ⟨message, none, 0⟩)
  rw [← Machine.runStart_message hr hq hmsg, ← run] at settled
  rw [Machine.beginExchange_refused hs] at begun settled
  refine ⟨_, begun, ?_, settled.mono (by omega)⟩
  have new : m.view stances t.id = some .new := by
    refine (view_of ht).trans ?_
    rw [hr, hp]
    rfl
  refine Machine.spent_notSent _ _ _ ht ?_ (hm.fit.fresh _ _ ht) (fun _ h => nomatch h)
  exact fun u hu he => hm.voiced.new t.id new u hu (Prod.mk.inj he).1

theorem spends_request (hm : m.Reachable may) (ht : m.task? t.id = some t)
    (ha : t.aborted = false) {host : Host} {message : Outbound} (hh : host.Ready m t)
    (hmsg : host.message? = some message) (hs : m.state ≠ .open) :
    Spends m t (some m.registry.nextCid) := by
  obtain ⟨timeout, hb⟩ : ∃ timeout, timeout = host.bound m := ⟨_, rfl⟩
  have settled := Machine.course_begun ht ha hh hmsg hb
  have begun := Machine.course_newExchange timeout ht hh hmsg hb
  rw [Machine.beginExchange_refused (m := (m.newExchange t.id message timeout).1) hs]
    at begun settled
  refine ⟨_, begun, ?_, settled⟩
  have quiet : utterances (m.newExchange t.id message timeout).1.trace = utterances m.trace := by
    simp [Machine.trace, Machine.newExchange, utterances, Observation.utterance]
  refine Machine.spent_notSent (m := (m.newExchange t.id message timeout).1) _ _ _ ht ?_
    (hm.fit.fresh _ _ ht) ?_
  · -- the id is new, so nothing was written under it
    rw [quiet]
    intro u hu he
    exact Registry.nextCid_not_mem _ (hm.ranked.given hu (Prod.mk.inj he).2)
  · intro s hcid
    cases hcid
    show m.registry.nextCid ∈ Registry.cids (m.registry.issued + 1)
    rw [Registry.cids_succ]
    exact List.mem_append_right _ (.head _)

theorem spends_writer (hm : m.Reachable may) (ht : m.task? t.id = some t)
    (ha : t.aborted = false) {host : Host} {x : Exchange} {stage : ExchangeStage}
    (hr : t.role = host.role) (hv : host.Live m) (hp : t.position = host.position x stage)
    (hs : stage ≠ .awaiting) (ready : m.exchangeReady t.id x stage = true)
    (hrun : m.runExchange t.id x stage = (m.leaveLock t.id).notSent x f) :
    Spends m t (x.ticket.map Ticket.cid) := by
  have asks : x.ticket = none → ∃ op, host = .operation op := by
    intro hx
    have fits := hm.fit.fits _ _ ht
    rw [hr, hp] at fits
    cases host with
    | operation op => exact ⟨op, rfl⟩
    | heartbeat g k => cases fits with | probing h hm => rw [hx] at h; cases h
  have proceeds := Machine.course_runExchange host ht hr hv hp asks ready
  have settled := Machine.course_hosted ht ha hr hv hp
  rw [hrun] at proceeds settled
  refine ⟨_, proceeds, ?_, settled⟩
  have drafted : m.view stances t.id = some (.line (some (Machine.frameOf x))) := by
    refine (view_of ht).trans ?_
    rw [hp, host.stances_position]
    cases stage with
    | awaiting => exact absurd rfl hs
    | queued => rfl
    | stalled deadline => rfl
  refine Machine.spent_notSent (m := m.leaveLock t.id) host x f ht ?_ (hm.fit.fresh _ _ ht) ?_
  · exact hm.voiced.unwritten t.id _ drafted
  · intro s hcid
    obtain ⟨k, hx, rfl⟩ := Option.map_eq_some_iff.mp hcid
    have ticket : t.ticket? = some k := by
      rw [Task.ticket?, hp]
      cases host <;> exact hx
    have issued := hm.accounts.held.issuer t.id k.cid (Machine.waits_of_ticket hm.fit ht ticket)
    have given := List.mem_map_of_mem (f := Prod.snd) issued
    rwa [hm.accounts.numbered] at given

/-- A host that is at the writer is enabled when its exchange can go on. -/
theorem Host.exchangeReady {host : Host} {x : Exchange} {stage : ExchangeStage}
    (he : m.taskEnabled t = true) (ha : t.aborted = false) (hr : t.role = host.role)
    (hv : host.Live m) (hp : t.position = host.position x stage) :
    m.exchangeReady t.id x stage = true := by
  unfold Machine.taskEnabled at he
  rw [ha, hr, hp] at he
  cases host with
  | operation op => exact he
  | heartbeat g k =>
    have hc : m.isCancelled g = false := hv
    simpa [Host.role, Host.position, hc] using he

/-- The step in which a sending fails leads through a machine in which its call is spent. -/
theorem SendFails.spends (hm : m.Reachable may) (ht : m.task? t.id = some t)
    (he : m.taskEnabled t = true) (ha : t.aborted = false) (h : SendFails m t cid f) :
    (f = .notConnected ∨ ∃ reason, f = .transport reason) ∧ Spends m t cid := by
  cases h with
  | message op message f hr hp hq hmsg hf =>
    obtain ⟨hs, rfl⟩ := Machine.beginExchange_failed hf
    exact ⟨.inl rfl, spends_message hm ht ha hr hp hq hmsg hs⟩
  | request host message timeout f hh hmsg hf =>
    obtain ⟨hs, rfl⟩ := Machine.beginExchange_failed hf
    exact ⟨.inl rfl, spends_request hm ht ha hh hmsg hs⟩
  | writer host x stage f hr hv hp hs hf =>
    have ready := Host.exchangeReady he ha hr hv hp
    obtain ⟨hn, hrun⟩ := Machine.runExchange_failed ready hs hf
    exact ⟨hn.failure.2, spends_writer hm ht ha hr hv hp hs ready hrun⟩

/-- A call whose sending has failed is never written. -/
theorem SendFails.unsent (hm : m.Reachable may) (ht : m.task? t.id = some t)
    (he : m.taskEnabled t = true) (ha : t.aborted = false) (h : SendFails m t cid f) :
    (f = .notConnected ∨ ∃ reason, f = .transport reason) ∧
      ((m.runTask t).line (m.runTask t).trace).Spent t.id cid := by
  obtain ⟨hf, p, reach, spent, rest⟩ := h.spends hm ht he ha
  have reach := reach.imp fun _ _ _ h => h.change
  have fit : Fit p := reach.invariant hm.fit fit_invariant.keep fit_invariant.quiet
  exact ⟨hf, Machine.spent_of_course fit spent (rest.imp fun _ _ _ h => h.change)⟩

end

end GameLink.Client
