import GameLink.Proofs.Client.Overtaken
import GameLink.Proofs.Client.Replay
import GameLink.Proofs.Client.Sending

/-! # A close is final

Once a close has returned, a client opens no link before a connect that begins
after that return does: until then it is not open, no call writes anything, and
only disconnects are heard of (`close_final`). A connect that was on its way when
the close began fails, and its link is closed; only where closing that link does
not complete it does not come to its end (`discard_lingering`).
-/
namespace GameLink.Client

namespace Machine

variable {may : Move → Prop} {called before p m n : Machine} {i j : TaskId} {t u : Task}

/-! ## Calls on a client that is not open -/

/-- A call that has a message to send ends in its first step. -/
theorem run_refused (ht : m.task? i = some t) (ha : t.aborted = false) {op : Operation}
    (hr : t.role = .operation op) (hp : t.position = .start) {message : Outbound}
    (hm : op.message? = some message) (hs : m.state ≠ .open) :
    ∃ os, (m.run (.task i)).trace = m.trace ++ os ++ [.finished i (.failed .notConnected)] ∧
      (∀ link frame, .wrote i link frame ∉ os) ∧ (m.run (.task i)).task? i = none := by
  obtain rfl := findTask_id ht
  have run : m.run (.task t.id) = m.runStart t := by
    rw [Machine.run, ht]
    dsimp only
    rw [runTask, ha, hp]
    rfl
  cases hq : op.requests with
  | false =>
    rw [run, runStart_message hr hq hm, beginExchange_refused hs]
    exact ⟨[], by rw [List.append_nil]; exact finish_trace _ _, fun _ _ => List.not_mem_nil,
      finish_gone _ _⟩
  | true =>
    have refused : (m.newExchange t.id message ((Host.operation op).bound m)).1.state ≠ .open := hs
    rw [run, runStart_request hr hq hm rfl, beginExchange_refused refused]
    refine ⟨[.issued t.id m.registry.nextCid,
      .answered t.id m.registry.nextCid (.error .notConnected)], ?_, ?_, finish_gone _ _⟩
    · refine (finish_trace _ _).trans (congrArg (· ++ _) ?_)
      simp [newExchange, notSent, noteAnswer, trace, Registry.register]
    · intro link frame h
      simp at h

/-- A task that is about to start can. -/
theorem enabled_start (ht : m.task? i = some t) (hp : t.position = .start) :
    m.enabled (.task i) = true := by
  rw [enabled, ht]
  dsimp only
  rw [taskEnabled, hp]
  exact Bool.or_true _

theorem reaches_first (hmay : may (.work (.task i))) (ht : m.task? i = some t)
    (hp : t.position = .start) : Reaches may m (m.after (.work (.task i))) :=
  (Reaches.refl may m).step (v := .work (.task i)) (enabled_start ht hp) hmay

/-- Who is gone and has written nothing writes nothing. -/
theorem Reachable.unwritten (hm : m.Reachable may) (hi : i < m.nextTask) (hg : m.task? i = none)
    (hw : ∀ link frame, .wrote i link frame ∉ m.trace) (h : Reaches may m n) :
    ∀ link frame, .wrote i link frame ∉ n.trace := by
  have kept := h.kept (I := fun rs k => (i < k.nextTask ∧ k.task? i = none) ∧
    ∀ (link : LinkId) (frame : Envelope.Outgoing),
      Observation.wrote i link frame ∉ rs.map Record.what) hm fit_invariant ?_
    (fun _ _ _ _ h => h) ⟨⟨hi, hg⟩, hw⟩
  · exact kept.2
  · rintro a os b rs hc hf ⟨⟨hlt, gone⟩, silent⟩
    refine ⟨⟨Nat.lt_of_lt_of_le hlt (hc.regroup hf).next_le, ?_⟩, fun link frame hw => ?_⟩
    · exact hc.task?_eq_none hlt gone
    · rw [List.map_append, List.mem_append] at hw
      rcases hw with hw | hw
      · exact silent link frame hw
      · have wrote : .wrote i link frame ∈ os := by simpa [Function.comp_def] using hw
        have spoke := (hc.spoke hf wrote).1
        obtain ⟨t, ht, _⟩ := view_eq_some.mp spoke
        cases gone.symm.trans ht

theorem Reachable.refused (hm : m.Reachable may) (hmay : may (.work (.task i)))
    (ht : m.task? i = some t) (ha : t.aborted = false) {op : Operation}
    (hr : t.role = .operation op) (hp : t.position = .start) {message : Outbound}
    (hmsg : op.message? = some message) (hs : m.state ≠ .open) :
    .finished i (.failed .notConnected) ∈ (m.run (.task i)).trace ∧
      ∀ k, Reaches may (m.run (.task i)) k → ∀ link frame, .wrote i link frame ∉ k.trace := by
  obtain ⟨os, htrace, silent, gone⟩ := run_refused ht ha hr hp hmsg hs
  have reached : (m.run (.task i)).Reachable may := hm.reaches (reaches_first hmay ht hp)
  have new : m.view stances i = some .new := view_eq_some.mpr ⟨t, ht, by rw [hr, hp]; rfl⟩
  refine ⟨htrace ▸ List.mem_append_right _ (.head _), fun k hk => ?_⟩
  obtain ⟨_, apart, _⟩ := (course_run hm.fit (enabled_start ht hp)
    fun j hj => (Worker.task.inj hj).symm).untouched
  have known : i < (m.run (.task i)).nextTask :=
    Nat.lt_of_lt_of_le (hm.fit.fresh i t ht) apart.next_le
  refine reached.unwritten known gone (fun link frame hw => ?_) hk
  rw [htrace] at hw
  rcases List.mem_append.mp hw with hw | hw
  · rcases List.mem_append.mp hw with hw | hw
    · exact hm.voiced.new i new ⟨i, link, frame⟩ (mem_utterances.mpr hw) rfl
    · exact silent link frame hw
  · cases List.mem_singleton.mp hw

/-! ## The return of a close -/

/-- Task `i` takes its first step at `called`, and at the machine given it has just finished. -/
inductive Returns (may : Move → Prop) (i : TaskId) (called : Machine) : Machine → Prop
  | atOnce (r : Result) (h : .finished i r ∈ (called.after (.work (.task i))).trace) :
      Returns may i called (called.after (.work (.task i)))
  | later (before : Machine) (v : Move) (r : Result)
      (hb : Reaches may (called.after (.work (.task i))) before) (hv : before.allows v = true)
      (hmay : may v) (hn : ∀ r, .finished i r ∉ before.trace)
      (h : .finished i r ∈ (before.after v).trace) : Returns may i called (before.after v)

/-- The first step of a close is its last one, or begins a teardown. -/
theorem run_close_first (ht : m.task? i = some t) (ha : t.aborted = false) {notify : Bool}
    (hr : t.role = .operation (.close notify)) (hp : t.position = .start) :
    ((m.run (.task i)).state = .idle ∨ (m.run (.task i)).state = .closing) ∧
      ((∃ r, .finished i r ∈ (m.run (.task i)).trace) ∨
        ∃ u td stage, (m.run (.task i)).task? i = some u ∧ u.position = .tearing td stage) := by
  obtain rfl := findTask_id ht
  have run : m.run (.task t.id) = m.beginClose t notify := by
    rw [Machine.run, ht]
    dsimp only
    rw [runTask, ha, hp]
    dsimp only
    rw [runStart, hr]
    rfl
  have returns : ∀ n : Machine, n.state = .idle ∨ n.state = .closing →
      ((n.finish t.id (.ok .nothing)).state = .idle ∨
        (n.finish t.id (.ok .nothing)).state = .closing) ∧
      ((∃ r, .finished t.id r ∈ (n.finish t.id (.ok .nothing)).trace) ∨
        ∃ u td stage, (n.finish t.id (.ok .nothing)).task? t.id = some u ∧
          u.position = .tearing td stage) := by
    intro n hn
    refine ⟨?_, .inl ⟨_, finish_trace _ n ▸ List.mem_append_right _ (.head _)⟩⟩
    rw [finish, removeTask_state]
    exact hn
  rw [run]
  unfold beginClose
  split
  · rename_i hs
    obtain ⟨_, _, heq, _⟩ := @beginTeardown_eq m t ⟨m.generation, .user, notify⟩ rfl hs
    rw [heq]
    exact ⟨.inr rfl, .inr ⟨_, _, _, task?_move_self ht _, rfl⟩⟩
  · exact returns _ (.inl rfl)
  · rename_i hs
    exact returns _ (.inl hs)
  · rename_i hs
    exact returns _ (.inr hs)

/-- A close that does not return at once is tearing its link down, or was dropped. -/
theorem Reachable.tearing_kept (hm : m.Reachable may) (ht : m.task? i = some t) {td : Teardown}
    {stage : TeardownStage} (hp : t.position = .tearing td stage) (h : Reaches may m n) :
    ∀ u, n.task? i = some u → ∃ td stage, u.position = .tearing td stage := by
  intro u hu
  refine h.keeps_position hm (P := fun p => ∃ td stage, p = .tearing td stage) ?_ ht
    ⟨td, stage, hp⟩ hu
  rintro _ _ _ _ hgoes ⟨td, stage, hpos⟩
  obtain ⟨next, hnext⟩ := hgoes.tearing hpos
  exact ⟨td, next, hnext⟩

/-- A task that is gone without a word does not finish any more. -/
theorem Reachable.not_finished (hm : m.Reachable may) {op : Operation}
    (hd : Dropped m.trace m i op) (h : Reaches may m n) (r : Result) : .finished i r ∉ n.trace := by
  have kept := h.kept (I := fun rs k => Dropped (rs.map Record.what) k i op) hm errands_invariant
    ?_ (fun _ _ _ _ h => ⟨h.started, h.gone, h.silent⟩) hd
  · exact kept.silent r
  · intro a os b rs hc hj hd
    have kept := hd.keep hj.1 hj.2 hc
    simpa [Function.comp_def] using kept

section
variable (hc : called.Reachable may) (hmay : may (.work (.task i))) (ht : called.task? i = some t)
  (ha : t.aborted = false) {notify : Bool} (hr : t.role = .operation (.close notify))
  (hp : t.position = .start)
include hc hmay ht ha hr hp

/-- Where a close returns, the client is neither open nor about to be. -/
theorem Reachable.returned (hm : Returns may i called m) :
    Reaches may (called.after (.work (.task i))) m ∧ (m.state = .idle ∨ m.state = .closing) := by
  obtain ⟨shut, first⟩ := run_close_first ht ha hr hp
  have first_step := reaches_first hmay ht hp
  have hq := hc.reaches first_step
  cases hm with
  | atOnce r h => exact ⟨.refl may _, shut⟩
  | later before v r hb hv hmay hn h =>
    refine ⟨hb.step hv hmay, ?_⟩
    have hbefore := hq.reaches hb
    obtain ⟨u, td, stage, hu, hpos⟩ := first.resolve_left fun ⟨r, hr⟩ => hn r (hb.mem_trace hq hr)
    cases hgone : before.task? i with
    | none =>
      -- it was dropped, and then it does not return
      have asked : .started i (.close notify) ∈ called.trace := mem_errands.mp
        ((errands_invariant.reached hc).2.asked i _ (view_eq_some.mpr ⟨t, ht, congrArg some hr⟩))
      have started := hb.mem_trace hq (first_step.mem_trace hc asked)
      have dropped : Dropped before.trace before i (.close notify) := ⟨started, hgone, hn⟩
      exact absurd h (hbefore.not_finished dropped ((Reaches.refl may before).step hv hmay) r)
    | some s =>
      obtain ⟨td', stage', hpos'⟩ := hq.tearing_kept hu hpos hb s hgone
      have tears : (before.life before.trace).tears i = some (td', stage') :=
        view_eq_some.mpr ⟨s, hgone, by rw [hpos']; rfl⟩
      have closing : before.state = .closing := (hbefore.sound.posts.tearing i _ _ tears).1
      have advance := hbefore.advance hv
      rw [closing] at advance
      generalize (before.after v).state = s', before.generation = g,
        (before.after v).generation = g' at advance
      cases advance with
      | stay => exact .inr rfl
      | rest => exact .inl rfl

end

/-- What a close settles that began at `called` and has returned at `m`; `os` is what is observed
since that return. -/
structure Final (may : Move → Prop) (i : TaskId) (called m : Machine) : Prop where
  /-- Until a link opens, the client is not open, and only disconnects are heard of. -/
  shut : ∀ n os, Reaches may m n → n.trace = m.trace ++ os → (∀ g link, .opened g link ∉ os) →
    n.state ≠ .open ∧ ∀ e, .event e ∈ os → ∃ cause, e = .disconnected cause
  /-- A call that begins until then fails at once, and writes nothing. -/
  refused : ∀ n os, Reaches may m n → n.trace = m.trace ++ os → (∀ g link, .opened g link ∉ os) →
    ∀ j t op message, n.task? j = some t → t.aborted = false → t.role = .operation op →
      t.position = .start → op.message? = some message → may (.work (.task j)) →
        .finished j (.failed .notConnected) ∈ (n.run (.task j)).trace ∧
          ∀ k, Reaches may (n.run (.task j)) k → ∀ link frame, .wrote j link frame ∉ k.trace
  /-- A link that opens was dialed by a connect that was yet to begin at the return. -/
  opens : ∀ n os, Reaches may m n → n.trace = m.trace ++ os → ∀ g link, .opened g link ∈ os →
    m.generation < g ∧ ∃ j, (j, link) ∈ dialings n.trace ∧ m.Unbegun j
  /-- What comes of the connects that were on their way when the close began. -/
  overtaken : ∀ j t, called.task? j = some t → t.position.connects = true →
    ∀ n, Reaches may (called.after (.work (.task i))) n →
      Overtaken may (called.after (.work (.task i))) j t.position n

/-- Once a close has returned, only a connect that begins later opens a link. -/
theorem close_final (hc : called.Reachable may) (hmay : may (.work (.task i)))
    (ht : called.task? i = some t) (ha : t.aborted = false) {notify : Bool}
    (hr : t.role = .operation (.close notify)) (hp : t.position = .start)
    (hm : Returns may i called m) : Final may i called m := by
  have first_step := reaches_first hmay ht hp
  have hq := hc.reaches first_step
  obtain ⟨reached, idle⟩ := hc.returned hmay ht ha hr hp hm
  have hm := hq.reaches reached
  have unopened : ∀ {s : Lifecycle}, s = .idle ∨ s = .closing → s ≠ .open ∧ s ≠ .connecting := by
    rintro s (rfl | rfl)
    · decide
    · decide
  have here : ∀ {n os}, Reaches may m n → n.trace = m.trace ++ os → Hereafter m os n := by
    intro n os h hos
    obtain ⟨os', hos', here⟩ := hm.hereafter (unopened idle).1 (unopened idle).2 h
    obtain rfl := List.append_cancel_left (hos.symm.trans hos')
    exact here
  have affair : ∀ {os : List Observation} {o : Observation}, o.isAffair = true →
      (o ∈ affairs os ↔ o ∈ os) := fun ho => by simp [affairs, ho]
  have shut : ∀ n os, Reaches may m n → n.trace = m.trace ++ os →
      (∀ g link, .opened g link ∉ os) →
      n.state ≠ .open ∧ ∀ e, .event e ∈ os → ∃ cause, e = .disconnected cause := by
    intro n os h hos hn
    obtain ⟨hstate, events⟩ := (here h hos).hushed.shut fun g link ho =>
      hn g link ((affair rfl).mp ho)
    exact ⟨hstate, fun e he => events e ((affair rfl).mpr he)⟩
  refine ⟨shut, ?_, ?_, ?_⟩
  · intro n os h hos hn j u op message hu hua hur hup hmsg hmayj
    exact (hm.reaches h).refused hmayj hu hua hur hup hmsg (shut n os h hos hn).1
  · intro n os h hos g link ho
    obtain ⟨j, hj, hu⟩ := (here h hos).opened g link ho
    exact ⟨(here h hos).hushed.opened g link ((affair rfl).mpr ho), j, hos ▸ hj, hu⟩
  · intro j u hu hq' n h
    have idle := unopened (run_close_first ht ha hr hp).1
    have other : j ≠ i := by
      rintro rfl
      cases ht.symm.trans hu
      rw [hp] at hq'
      cases hq'
    have still : (called.after (.work (.task i))).task? j = some u := by
      obtain ⟨_, apart, _⟩ := (course_run hc.fit (enabled_start ht hp)
        fun j hj => (Worker.task.inj hj).symm).untouched
      exact (apart.others j other (hc.fit.fresh j u hu)).trans hu
    exact hq.overtaken idle.1 idle.2 still hq' h

theorem final_overtaken :
    Final (fun _ => True) 1 (fresh.replay (overtaken.take 3)) (fresh.replay (overtaken.take 4)) :=
  close_final (reachable_replay (by decide +kernel)) trivial
    (t := ⟨1, .operation (.close false), .start, false⟩) rfl rfl rfl rfl
    (.atOnce (.ok .nothing) (List.mem_of_getElem? (i := 2) rfl))

/-- A connect is closed under way, and the link that it has dialed by then does not close. -/
def lingering : List Move :=
  steps 0 1 (.connect guest none) ++ [.act (.setCloseMode .hang)] ++ steps 1 1 (.close false) ++
    [.work (.task 0), .work (.task 0), .act (.elapse 100000)]

/-- A close has returned, and the connect that it overtook does not, since its link does not
close. -/
theorem discard_lingering :
    (fresh.replay lingering).Reachable (fun _ => True) ∧
      .finished 1 (.ok .nothing) ∈ (fresh.replay lingering).trace ∧
      (fresh.replay lingering).now = 100000 ∧
      (fresh.replay lingering).links.map Link.writerOpen = [true] ∧
      ∀ n, Reaches (fun _ => True) (fresh.replay lingering) n → ∀ r, .finished 0 r ∉ n.trace := by
  have reached : (fresh.replay lingering).Reachable (fun _ => True) :=
    reachable_replay (by decide +kernel)
  refine ⟨reached, List.mem_of_getElem? (i := 2) rfl, rfl, rfl, fun n hn => ?_⟩
  exact reached.lingers (t := ⟨0, .operation (.connect guest none), .discarding 0, false⟩) rfl rfl hn

end Machine

end GameLink.Client
