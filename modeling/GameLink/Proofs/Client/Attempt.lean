import GameLink.Proofs.Client.Admission

/-! # A connect that fails

A connect that dials takes its steps while anything else happens to the client. Each of
them opens the link of the generation that the connect has begun, which needs that
generation to be the current one, or is unobtrusive (`Yields`): it fails, and gives up
being about to connect only if it is the one that is, or it goes on. A connect that has
failed has therefore taken none but unobtrusive steps (`connect_contained`).
-/
namespace GameLink.Client

/-- A step of a connect of generation `g` that brings nothing up. -/
inductive Yields (i : TaskId) (g : Generation) (a b : Machine) : Prop
  | fails (reason : String)
    (quiet : Unobtrusive i a [.finished i (.failed (.connection reason))] b)
    (generation : b.generation = a.generation)
    (state : b.state = if a.generation = g ∧ a.state = .connecting then .idle else a.state)
    (gone : b.task? i = none)
  | goesOn (os : List Observation) (quiet : Unobtrusive i a os b)
    (dials : os = [] ∨ ∃ url, os = [.dialed i a.links.length url])
    (generation : b.generation = a.generation) (state : b.state = a.state)
    (there : ∃ u, b.task? i = some u)

/-- A step of a connect of generation `g` that opens its link. -/
structure Opens (i : TaskId) (g : Generation) (a b : Machine) : Prop where
  current : a.generation = g
  connecting : a.state = .connecting
  done : .finished i (.ok .nothing) ∈ b.trace

theorem asConnection_eq (f : Failure) : ∃ reason, f.asConnection = .connection reason := by
  cases f <;> exact ⟨_, rfl⟩

/-- A task may do what it likes with the link that it holds. -/
theorem Unobtrusive.updateLink {i : TaskId} {a c : Machine} {os : List Observation} {t : Task}
    (h : Unobtrusive i a os c) (ht : a.task? i = some t) {link : LinkId}
    (holds : t.position.held = some link) (f : Link → Link) :
    Unobtrusive i a os (c.updateLink link f) := by
  refine ⟨h.trace, h.handler, h.registry, h.nextTask, h.others, fun used => ?_⟩
  obtain ⟨writer, cancel, cancelled, links⟩ := h.shared used
  refine ⟨writer, cancel, cancelled, fun l hl others => ?_⟩
  have other : link ≠ l := by
    rintro rfl
    exact others t ht holds
  rw [← links l hl others]
  simp [Machine.updateLink, other]

namespace Machine

variable {may : Move → Prop} {m n a : Machine} {i : TaskId} {t : Task} {g : Generation}

/-! ## One step -/

theorem failConnect_yields (t : Task) (g : Generation) (f : Failure) (m : Machine) :
    Yields t.id g m (m.failConnect t g f) := by
  obtain ⟨reason, connection⟩ := asConnection_eq f
  obtain ⟨state, generation, _⟩ := finish_fields t.id (.failed f.asConnection)
    ((m.abandonConnect g).log (Log.warn "connect failed"
      [("error", f.message), ("generation", toString g)]))
  have abandoned : Unobtrusive t.id m [] (m.abandonConnect g) ∧
      (m.abandonConnect g).generation = m.generation ∧ (m.abandonConnect g).state =
        if m.generation = g ∧ m.state = .connecting then .idle else m.state := by
    unfold abandonConnect
    split
    · exact ⟨(Unobtrusive.refl t.id m).state _, rfl, rfl⟩
    · exact ⟨.refl t.id m, rfl, rfl⟩
  obtain ⟨quiet, same, left⟩ := abandoned
  have ended := (quiet.log (Log.warn "connect failed"
    [("error", f.message), ("generation", toString g)])).finish (.failed f.asConnection)
  rw [List.nil_append, connection] at ended
  refine .fails reason ?_ ?_ ?_ (finish_gone _ _)
  · rw [failConnect, connection]
    exact ended
  · exact generation.trans same
  · exact state.trans left

theorem linkDialed_yields (ht : m.task? t.id = some t) (link : Link) :
    Yields t.id g m (m.linkDialed t g link) := by
  refine .goesOn [.dialed t.id m.links.length link.url] (Unobtrusive.move ?_ _)
    (.inr ⟨link.url, rfl⟩) rfl rfl ⟨_, task?_move_self ht _⟩
  refine ⟨by simp [joinLock, trace], rfl, rfl, rfl, fun _ _ => rfl,
    fun _ => ⟨rfl, rfl, rfl, fun l hl _ => ?_⟩⟩
  exact List.getElem?_append_left hl

theorem runDial_yields (ht : m.task? t.id = some t) (g : Generation) (url : String)
    (deadline : Nat) (stage : DialStage) : Yields t.id g m (m.runDial t g url deadline stage) := by
  cases stage with
  | hung => exact failConnect_yields t g _ m
  | delayed wake failure =>
    simp only [runDial]
    split
    · cases failure with
      | some f => exact failConnect_yields t g f m
      | none =>
        dsimp only
        split
        · exact linkDialed_yields ht _
        · exact failConnect_yields t g _ m
        · exact .goesOn [] ((Unobtrusive.refl t.id m).move _) (.inl rfl) rfl rfl
            ⟨_, task?_move_self ht _⟩
    · exact failConnect_yields t g _ m

theorem installLink_opens (t : Task) (link : LinkId) (current : m.generation = g)
    (connecting : m.state = .connecting) : Opens t.id g m (m.installLink t g link) := by
  refine ⟨current, connecting, ?_⟩
  rw [installLink, finish_trace]
  exact List.mem_append_right _ (.head _)

theorem runInstall_yields (ht : m.task? t.id = some t) {link : LinkId}
    (hp : t.position = .installing g link) :
    Yields t.id g m (m.runInstall t g link) ∨ Opens t.id g m (m.runInstall t g link) := by
  have holds : t.position.held = some link := by rw [hp]; rfl
  unfold runInstall
  split
  · rename_i current
    exact .inr (installLink_opens t link current.1 current.2)
  · rename_i past
    have left : Unobtrusive t.id m [] (m.leaveLock t.id) := (Unobtrusive.refl t.id m).leaveLock
    have discards : Yields t.id g m ((m.leaveLock t.id).endDiscard t g link) := by
      have closed := refuseConnect_quiet (((left.updateLink ht holds Link.closeWriter).log
        (Log.debug "link discarded, closed while connecting"
          [("generation", toString g)])).updateLink ht holds Link.closeReader)
        "closed while connecting"
      obtain ⟨quiet, state, generation⟩ := closed
      exact .fails _ quiet generation (state.trans (if_neg past).symm) (finish_gone _ _)
    refine .inl ?_
    dsimp only
    split
    · exact .goesOn [] (left.move _) (.inl rfl) rfl rfl ⟨_, task?_move_self ht _⟩
    · exact discards
    · exact discards

/-- A connect that has begun fails, goes on or opens its link. -/
theorem run_yields (ht : m.task? i = some t) (ha : t.aborted = false)
    (he : m.enabled (.task i) = true) {url : String} {deadline : Nat} {stage : DialStage}
    (hq : Trails (.dialing g url deadline stage) t.position) :
    Yields i g m (m.run (.task i)) ∨ Opens i g m (m.run (.task i)) := by
  obtain rfl := findTask_id ht
  have run : m.run (.task t.id) = m.runTask t := by rw [Machine.run, ht]
  rw [run]
  generalize hp : t.position = p at hq
  cases hq with
  | @dialing _ _ _ _ stage' hq =>
    cases hq
    have dials : m.runTask t = m.runDial t g url deadline stage' := by rw [runTask, ha, hp]; rfl
    rw [dials]
    exact .inl (runDial_yields ht g url deadline stage')
  | @installing g' link hq =>
    cases hq
    have installs : m.runTask t = m.runInstall t g link := by rw [runTask, ha, hp]; rfl
    rw [installs]
    exact runInstall_yields ht hp
  | discarding =>
    rw [enabled, ht] at he
    dsimp only at he
    rw [taskEnabled, ha, hp] at he
    cases he

theorem dropExchange_history (id : TaskId) (x : Exchange) (m : Machine) :
    (m.dropExchange id x).history = m.history := by
  unfold dropExchange
  split <;> rfl

/-- Nobody hears of a task that is dropped. -/
theorem run_dropTask (ht : m.task? i = some t) (ha : t.aborted = true) :
    (m.run (.task i)).history = m.history := by
  have run : m.run (.task i) = m.dropTask t := by
    rw [Machine.run, ht]
    dsimp only
    rw [runTask, if_pos ha]
  rw [run, dropTask, removeTask_history]
  split <;> first | rfl | exact dropExchange_history _ _ _

/-! ## A whole run -/

theorem task?_of_enabled (he : m.enabled (.task i) = true) : ∃ t, m.task? i = some t := by
  cases ht : m.task? i with
  | none =>
    rw [enabled, ht] at he
    cases he
  | some t => exact ⟨t, rfl⟩

theorem others_trace (h : Bystander i m n) :
    ∃ os, n.trace = m.trace ++ os ∧ ∀ o ∈ os, o.actor? ≠ some i := by
  obtain ⟨rs, hrs, silent⟩ := h.records
  refine ⟨rs.map Record.what, by rw [trace, hrs, List.map_append]; rfl, fun o ho => ?_⟩
  obtain ⟨r, hr, rfl⟩ := List.mem_map.mp ho
  exact silent r hr

/-- Who is gone does nothing any more. -/
theorem Reachable.retired (hm : m.Reachable may) (hi : i < m.nextTask) (hg : m.task? i = none)
    (h : Reaches may m n) : n.task? i = none ∧ ∃ os, n.trace = m.trace ++ os ∧
      ∀ o ∈ os, o.actor? ≠ some i := by
  have kept : Reaches may m n ∧ i < n.nextTask ∧ n.task? i = none ∧
      ∃ os, n.trace = m.trace ++ os ∧ ∀ o ∈ os, o.actor? ≠ some i := by
    refine h.invariant (I := fun n => Reaches may m n ∧ i < n.nextTask ∧ n.task? i = none ∧
      ∃ os, n.trace = m.trace ++ os ∧ ∀ o ∈ os, o.actor? ≠ some i)
      ⟨.refl may m, hi, hg, [], by simp, by simp⟩ ?_
    rintro a v ⟨reached, hlt, gone, os, hos, silent⟩ hv hmay
    have others : v ≠ .work (.task i) := by
      rintro rfl
      obtain ⟨t, ht⟩ := task?_of_enabled hv
      cases gone.symm.trans ht
    have bystands := bystander (hm.reaches reached).fit hv others
    obtain ⟨os', hos', silent'⟩ := others_trace bystands
    refine ⟨reached.step hv hmay, Nat.lt_of_lt_of_le hlt bystands.next_le,
      bystands.gone hlt gone, os ++ os', by rw [hos', hos, List.append_assoc], fun o ho => ?_⟩
    rcases List.mem_append.mp ho with ho | ho
    · exact silent o ho
    · exact silent' o ho
  exact kept.2.2

/-- A connect that has begun stays one, of the same generation. -/
theorem Reachable.trails (hm : m.Reachable may) (ht : m.task? i = some t) {q : Position}
    (hq : Trails q t.position) (h : Reaches may m n) :
    ∀ u, n.task? i = some u → Trails q u.position := fun _ hu =>
  h.keeps_position hm (P := Trails q) (fun hgoes hq => hq.goes hgoes) ht hq hu

/-- Whoever has finished is gone. -/
theorem Reachable.finished_gone (hm : m.Reachable may) {r : Result} (h : .finished i r ∈ m.trace) :
    i < m.nextTask ∧ m.task? i = none := by
  obtain ⟨known, gone⟩ := (errands_invariant.reached hm).2.ended i r (mem_results.mpr h)
  refine ⟨known, ?_⟩
  cases ht : m.task? i with
  | none => rfl
  | some t => cases gone.symm.trans (view_eq_some.mpr ⟨t, ht, rfl⟩)

/-- Nobody finishes twice. -/
theorem Reachable.finished_once (hm : m.Reachable may) {r r' : Result}
    (h : .finished i r ∈ m.trace) (h' : .finished i r' ∈ m.trace) : r = r' := by
  have once := (errands_invariant.reached hm).2.once
  exact (Prod.mk.inj (List.inj_on_of_nodup_map once (mem_results.mpr h) (mem_results.mpr h')
    rfl)).2

/-- What a connect that has begun returns, if it returns with its next step. -/
theorem run_result (after : (m.run (.task i)).Reachable may) (ht : m.task? i = some t)
    (he : m.enabled (.task i) = true) {url : String} {deadline : Nat} {stage : DialStage}
    (hq : Trails (.dialing g url deadline stage) t.position) {r : Result}
    (hr : .finished i r ∈ (m.run (.task i)).trace) :
    .finished i r ∈ m.trace ∨ r = .ok .nothing ∨ ∃ reason, r = .failed (.connection reason) := by
  cases ha : t.aborted with
  | true =>
    have dropped : (m.run (.task i)).trace = m.trace :=
      congrArg (fun h => (observed h).map Record.what) (run_dropTask ht ha)
    exact .inl (dropped ▸ hr)
  | false =>
    rcases run_yields ht ha he hq with step | step
    · cases step with
      | fails reason quiet _ _ _ =>
        refine (List.mem_append.mp (quiet.trace ▸ hr)).imp_right fun new => .inr ⟨reason, ?_⟩
        cases List.mem_singleton.mp new
        rfl
      | goesOn os quiet dials _ _ _ =>
        refine (List.mem_append.mp (quiet.trace ▸ hr)).imp_right fun new => ?_
        rcases dials with rfl | ⟨url, rfl⟩
        · cases new
        · cases List.mem_singleton.mp new
    · exact .inr (.inl (after.finished_once hr step.done))

/-- A connect that has begun ends with nothing but a link or a failure to connect. -/
theorem Reachable.connect_result (hm : m.Reachable may) (ht : m.task? i = some t)
    {url : String} {deadline : Nat} {stage : DialStage}
    (hq : Trails (.dialing g url deadline stage) t.position) (h : Reaches may m n) {r : Result}
    (hr : .finished i r ∈ n.trace) :
    r = .ok .nothing ∨ ∃ reason, r = .failed (.connection reason) := by
  have kept : Reaches may m n ∧ ∀ r, .finished i r ∈ n.trace →
      r = .ok .nothing ∨ ∃ reason, r = .failed (.connection reason) := by
    refine h.invariant (I := fun n => Reaches may m n ∧ ∀ r, .finished i r ∈ n.trace →
      r = .ok .nothing ∨ ∃ reason, r = .failed (.connection reason))
      ⟨.refl may m, fun r hr => ?_⟩ ?_
    · cases ht.symm.trans (hm.finished_gone hr).2
    · rintro a v ⟨reached, ends⟩ hv hmay
      have next : Reaches may m (a.after v) := reached.step hv hmay
      refine ⟨next, fun r hr => ?_⟩
      by_cases own : v = .work (.task i)
      · subst own
        obtain ⟨u, hu⟩ := task?_of_enabled hv
        exact (run_result (hm.reaches next) hu hv (hm.trails ht hq reached u hu) hr).elim
          (ends r) id
      · obtain ⟨os, hos, silent⟩ := others_trace (bystander (hm.reaches reached).fit hv own)
        rw [hos] at hr
        rcases List.mem_append.mp hr with hr | hr
        · exact ends r hr
        · exact absurd rfl (silent _ hr)
  exact kept.2 r hr

/-! ## The whole of a connect -/

/-- Who has ended with its first step has never dialed, and never will. -/
theorem Reachable.undialed (hm : m.Reachable may) (ht : m.task? t.id = some t)
    (hp : t.position = .start) (reached : a.Reachable may) {r : Result}
    (ended : a.trace = m.trace ++ [.finished t.id r]) (h : Reaches may a n) :
    n.task? t.id = none ∧ ∀ link url, .dialed t.id link url ∉ n.trace := by
  obtain ⟨known, gone⟩ :=
    reached.finished_gone (r := r) (ended ▸ List.mem_append_right _ (.head _))
  obtain ⟨still, os, hos, silent⟩ := reached.retired known gone h
  refine ⟨still, fun link url dialed => ?_⟩
  rw [hos, ended] at dialed
  rcases List.mem_append.mp dialed with dialed | dialed
  · rcases List.mem_append.mp dialed with dialed | dialed
    · have holds := hm.dialed.holds t.id t link ht (mem_dialings dialed)
      rw [hp] at holds
      cases holds
    · exact nomatch List.mem_singleton.mp dialed
  · exact absurd rfl (silent _ dialed)

/-- What is true of a connect of task `i` with `session` that is called at `called`. -/
structure Contained (may : Move → Prop) (i : TaskId) (session : Session) (called : Machine) :
    Prop where
  /-- One that the client does not admit ends at once and leaves all as it was. -/
  refused : ¬called.Admits session → ∃ reason,
    Unobtrusive i called [.finished i (.failed (.connection reason))]
      (called.after (.work (.task i))) ∧
    (called.after (.work (.task i))).state = called.state ∧
    (called.after (.work (.task i))).generation = called.generation
  /-- One that it admits is about to connect with the next generation, and dials. -/
  admitted : called.Admits session →
    Unobtrusive i called [] (called.after (.work (.task i))) ∧
    (called.after (.work (.task i))).state = .connecting ∧
    (called.after (.work (.task i))).generation = called.generation + 1 ∧
    ∃ t online deadline stage, (called.after (.work (.task i))).task? i = some t ∧
      t.position = .dialing (called.generation + 1)
        (Link.address called.settings.server session.token online) deadline stage
  /-- No other dials. -/
  dials : ∀ n, Reaches may (called.after (.work (.task i))) n →
    ((∃ t, n.task? i = some t) ∨ ∃ link url, .dialed i link url ∈ n.trace) →
    called.Admits session
  /-- Each of its later steps opens its link or brings nothing up. -/
  steps : ∀ a t, Reaches may (called.after (.work (.task i))) a → a.task? i = some t →
    t.aborted = false → a.enabled (.task i) = true →
    Yields i (called.generation + 1) a (a.run (.task i)) ∨
      Opens i (called.generation + 1) a (a.run (.task i))
  /-- Where it has failed, none of them has opened a link. -/
  failed : ∀ n f, Reaches may (called.after (.work (.task i))) n →
    .finished i (.failed f) ∈ n.trace →
    ∀ a t, Reaches may (called.after (.work (.task i))) a → a.task? i = some t →
      t.aborted = false → a.enabled (.task i) = true → Reaches may (a.run (.task i)) n →
      Yields i (called.generation + 1) a (a.run (.task i))
  /-- It returns a link or a failure to connect. -/
  results : ∀ n r, Reaches may (called.after (.work (.task i))) n → .finished i r ∈ n.trace →
    r = .ok .nothing ∨ ∃ reason, r = .failed (.connection reason)

theorem connect_contained {may : Move → Prop} {called : Machine} {i : TaskId} {t : Task}
    {op : Operation} {session : Session} (hc : called.Reachable may) (hmay : may (.work (.task i)))
    (ht : called.task? i = some t) (ha : t.aborted = false) (hr : t.role = .operation op)
    (hp : t.position = .start) (presents : Presents called.clock session op)
    (computes : session.token = "" ∨ ∃ b, session.accessExpired called.clock = .ok b) :
    Contained may i session called := by
  obtain rfl := findTask_id ht
  have reached : (called.after (.work (.task t.id))).Reachable may :=
    hc.reaches (reaches_first hmay ht hp)
  have refused := after_refused ht ha hr hp presents computes
  have admitted := after_admitted ht ha hr hp presents
  have dials : ∀ n, Reaches may (called.after (.work (.task t.id))) n →
      ((∃ u, n.task? t.id = some u) ∨ ∃ link url, .dialed t.id link url ∈ n.trace) →
      called.Admits session := by
    intro n h there
    by_contra none
    obtain ⟨reason, quiet, -⟩ := refused none
    obtain ⟨gone, undialed⟩ := hc.undialed ht hp reached quiet.trace h
    rcases there with ⟨u, hu⟩ | ⟨link, url, dialed⟩
    · cases gone.symm.trans hu
    · exact undialed link url dialed
  have begun : called.Admits session → ∃ s url deadline stage,
      (called.after (.work (.task t.id))).task? t.id = some s ∧
      Trails (.dialing (called.generation + 1) url deadline stage) s.position := by
    intro admits
    obtain ⟨_, _, _, s, online, deadline, stage, hs, hpos⟩ := admitted admits
    refine ⟨s, Link.address called.settings.server session.token online, deadline, stage, hs, ?_⟩
    rw [hpos]
    exact .dialing rfl
  have steps : ∀ a u, Reaches may (called.after (.work (.task t.id))) a → a.task? t.id = some u →
      u.aborted = false → a.enabled (.task t.id) = true →
      Yields t.id (called.generation + 1) a (a.run (.task t.id)) ∨
        Opens t.id (called.generation + 1) a (a.run (.task t.id)) := by
    intro a u h hu hua he
    obtain ⟨s, url, deadline, stage, hs, trails⟩ := begun (dials a h (.inl ⟨u, hu⟩))
    exact run_yields hu hua he (reached.trails hs trails h u hu)
  refine ⟨refused, admitted, dials, steps, ?_, ?_⟩
  · intro n f h hf a u ha hu hua he onward
    refine (steps a u ha hu hua he).resolve_right fun opens => ?_
    have stepped : (a.run (.task t.id)).Reachable may :=
      (reached.reaches ha).reaches ((Reaches.refl may a).step (v := .work (.task t.id)) he hmay)
    cases (reached.reaches h).finished_once hf (onward.mem_trace stepped opens.done)
  · intro n r h hr
    by_cases admits : called.Admits session
    · obtain ⟨s, url, deadline, stage, hs, trails⟩ := begun admits
      exact reached.connect_result hs trails h hr
    · obtain ⟨reason, quiet, -⟩ := refused admits
      have ended : .finished t.id (.failed (.connection reason)) ∈ n.trace :=
        h.mem_trace reached (quiet.trace ▸ List.mem_append_right _ (.head _))
      exact .inr ⟨reason, (reached.reaches h).finished_once hr ended⟩

/-- A connect that a close overtakes fails, and the one that comes after it succeeds. -/
theorem connect_contained_overtaken :
    Contained (fun _ => True) 0 guest (fresh.replay (overtaken.take 1)) ∧
      (fresh.replay (overtaken.take 1)).Admits guest ∧
      .finished 0 (.failed (.connection "closed while connecting")) ∈
        (fresh.replay overtaken).trace ∧
      .finished 2 (.ok .nothing) ∈ (fresh.replay overtaken).trace :=
  ⟨connect_contained (t := ⟨0, .operation (.connect guest none), .start, false⟩)
      (reachable_replay (by decide +kernel)) trivial rfl rfl rfl rfl (.connect none)
      (.inr ⟨false, rfl⟩),
    ⟨by decide, rfl, rfl⟩, List.mem_of_getElem? (i := 4) rfl, List.mem_of_getElem? (i := 10) rfl⟩

end Machine

end GameLink.Client
