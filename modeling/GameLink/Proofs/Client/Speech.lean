import GameLink.Proofs.Client.Conclusions
import GameLink.Proofs.Client.Turns

/-! # What is said, and by whom

Every write carries the message of a send or a request, or is a probe, and has an
id exactly where a reply is awaited (`Utters`). An operation that awaits no reply
ends well if its message was written, and otherwise it never was (`Told`).
-/
namespace GameLink.Client

/-- The frame is what the task has to say. -/
def Utters (tr : List Observation) (i : TaskId) (frame : Envelope.Outgoing) : Prop :=
  (∃ op, .started i op ∈ tr ∧ op.message? = some frame.message ∧ frame.cid.isSome = op.requests) ∨
    (∀ op, .started i op ∉ tr) ∧ frame.message = .ping ∧ frame.cid.isSome = true

/-- How an operation ends that sends a message and awaits no reply. -/
inductive Told (tr : List Observation) (i : TaskId) (message : Outbound) : Result → Prop
  | sent (link : LinkId) (h : .wrote i link ⟨none, message⟩ ∈ tr) :
      Told tr i message (.ok .nothing)
  | unsent (f : Failure) (hf : f = .notConnected ∨ ∃ reason, f = .transport reason)
      (h : ∀ link frame, .wrote i link frame ∉ tr) : Told tr i message (.failed f)

structure Speech (tr : List Observation) : Prop where
  utters : ∀ i link frame, .wrote i link frame ∈ tr → Utters tr i frame
  told : ∀ i op message r, .started i op ∈ tr → op.requests = false →
    op.message? = some message → .finished i r ∈ tr → Told tr i message r

def Stance.frame? : Stance → Option Envelope.Outgoing
  | .new => none
  | .line draft => draft
  | .said frame => some frame

section
variable {m n : Machine} {tr os : List Observation} {i : TaskId}

/-- Whoever has a frame to write, or has written it, has its message to say. -/
theorem Fit.speaker (hm : Fit m) {s : Stance} {frame : Envelope.Outgoing}
    (hs : m.view stances i = some s) (hf : s.frame? = some frame) :
    (∃ op, m.view roles i = some (.operation op) ∧ op.message? = some frame.message ∧
      frame.cid.isSome = op.requests) ∨
    ∃ g, m.view roles i = some (.heartbeat g) ∧ frame.message = .ping ∧
      frame.cid.isSome = true := by
  obtain ⟨t, ht, hst⟩ := view_eq_some.mp hs
  have role : m.view roles i = some t.role := view_eq_some.mpr ⟨t, ht, rfl⟩
  have fits := hm.fits i t ht
  have same : ∀ {x : Exchange} {stage : ExchangeStage}, s = x.stance stage →
      frame = Machine.frameOf x := by
    rintro x stage rfl
    cases stage <;> exact (Option.some.inj hf).symm
  rw [role]
  generalize t.role = r at fits hst
  generalize t.position = p at fits hst
  cases fits with
  | start =>
    cases r with
    | operation op => cases hst; cases hf
    | reader g link => cases hst
    | heartbeat g => cases hst
  | dialing hm => cases hst
  | installing hm => cases hst; cases hf
  | discarding hm => cases hst
  | exchanging h hm =>
    obtain rfl := same (Option.some.inj hst).symm
    exact .inl ⟨_, rfl, hm, by rw [Machine.frameOf, Option.isSome_map, h]⟩
  | @closing _ _ stage => cases stage <;> cases hst; cases hf
  | reading => cases hst
  | @remote _ _ _ stage => cases stage <;> cases hst; cases hf
  | @failed _ _ _ _ stage => cases stage <;> cases hst; cases hf
  | ticking => cases hst
  | probing h hm =>
    obtain rfl := same (Option.some.inj hst).symm
    exact .inr ⟨_, rfl, hm, by rw [Machine.frameOf, Option.isSome_map, h]⟩
  | @silent _ _ stage => cases stage <;> cases hst; cases hf

theorem Utters.keep {frame : Envelope.Outgoing} (h : Utters tr i frame)
    (hnew : ∀ op, .started i op ∉ os) : Utters (tr ++ os) i frame := by
  rcases h with ⟨op, hop, h⟩ | ⟨hnone, h⟩
  · exact .inl ⟨op, List.mem_append_left _ hop, h⟩
  · refine .inr ⟨fun op ho => ?_, h⟩
    rcases List.mem_append.mp ho with ho | ho
    · exact hnone op ho
    · exact hnew op ho

/-- Nobody who was there is started. -/
theorem Change.not_started (hm : Fit m) (h : Change m os n) (hi : i < m.nextTask)
    (op : Operation) : .started i op ∉ os :=
  fun ho => Nat.ne_of_lt hi (h.started hm ho)

/-- Whoever finishes has written nothing since. -/
theorem Change.silent_of_finished (hm : Fit m) (he : Errands tr m) (h : Change m os n) {r : Result}
    (hr : .finished i r ∈ tr ++ os) (link : LinkId) (frame : Envelope.Outgoing) :
    .wrote i link frame ∉ os := by
  intro hw
  obtain ⟨t, ht, _⟩ := view_eq_some.mp (h.spoke hm hw).2
  have role : n.view roles i = some t.role := view_eq_some.mpr ⟨t, ht, rfl⟩
  have gone := ((he.keep hm h).ended i r (mem_results.mpr hr)).2
  cases role.symm.trans gone

theorem Speech.utters_keep (hc : Speech tr) (hm : Fit m) (he : Errands tr m)
    (hv : (m.line tr).Voiced) (h : Change m os n) :
    ∀ i link frame, .wrote i link frame ∈ tr ++ os → Utters (tr ++ os) i frame := by
  intro i link frame hw
  rcases List.mem_append.mp hw with hw | hw
  · have lt : i < m.nextTask := hv.known _ (mem_utterances.mpr hw)
    exact (hc.utters i link frame hw).keep (h.not_started hm lt)
  · have drafted := (h.spoke hm hw).1
    obtain ⟨t, ht, _⟩ := view_eq_some.mp drafted
    have lt : i < m.nextTask := hm.fresh i t ht
    refine Utters.keep ?_ (h.not_started hm lt)
    rcases hm.speaker drafted rfl with ⟨op, role, said⟩ | ⟨g, role, said⟩
    · exact .inl ⟨op, mem_errands.mp (he.asked i op role), said⟩
    · refine .inr ⟨fun op ho => ?_, said⟩
      cases he.role i op _ (mem_errands.mpr ho) role

/-- An operation that ends has had its turn at the writer. -/
theorem Speech.told_of_delivers (hc : Speech tr) (hm : Fit m) (he : Errands tr m)
    (hv : (m.line tr).Voiced) {op : Operation} {message : Outbound} {r : Result}
    (hs : .started i op ∈ tr) (hq : op.requests = false) (hmsg : op.message? = some message)
    (role : m.view roles i = some (.operation op)) (hd : Delivers m i r) : Told tr i message r := by
  have mine : ∀ {s frame}, m.view stances i = some s → s.frame? = some frame →
      frame = ⟨none, message⟩ := by
    intro s frame hst hf
    rcases hm.speaker hst hf with ⟨op', role', hmsg', hcid⟩ | ⟨g, role', _⟩
    · cases role.symm.trans role'
      obtain ⟨cid, msg⟩ := frame
      cases hmsg.symm.trans hmsg'
      rw [hq] at hcid
      have bare : cid = none := Option.isNone_iff_eq_none.mp (by simpa using hcid)
      rw [bare]
    · cases role.symm.trans role'
  cases hd with
  | sent frame hst =>
    obtain ⟨link, hl⟩ := hv.said i frame hst
    rw [mine hst rfl] at hl
    exact .sent link (mem_utterances.mp hl)
  | unsent f hf hst =>
    refine .unsent f hf fun link frame hw => ?_
    rcases hst with hst | ⟨draft, hst⟩
    · exact hv.new i hst _ (mem_utterances.mpr hw) rfl
    · -- what the operation has written would have no id either
      have bare : frame.cid = none := by
        rcases hc.utters i link frame hw with ⟨op', hs', _, hcid⟩ | ⟨hnone, _⟩
        · cases he.role i op' _ (mem_errands.mpr hs') role
          rw [hq] at hcid
          exact Option.isNone_iff_eq_none.mp (by simpa using hcid)
        · exact absurd hs (hnone op)
      refine hv.unwritten i draft hst _ (mem_utterances.mpr hw) ?_
      rw [mine hst rfl, Utterance.call, bare]

theorem Told.keep {message : Outbound} {r : Result} (h : Told tr i message r)
    (hw : ∀ link frame, .wrote i link frame ∉ os) : Told (tr ++ os) i message r := by
  cases h with
  | sent link hl => exact .sent link (List.mem_append_left _ hl)
  | unsent f hf hnone =>
    refine .unsent f hf fun link frame ho => ?_
    rcases List.mem_append.mp ho with ho | ho
    · exact hnone link frame ho
    · exact hw link frame ho

theorem Speech.keep (hc : Speech tr) (hm : Fit m) (he : Errands tr m) (hv : (m.line tr).Voiced)
    (h : Change m os n) : Speech (tr ++ os) where
  utters := hc.utters_keep hm he hv h
  told := by
    intro i op message r hs hq hmsg hr
    have silent := h.silent_of_finished hm he hr
    -- who finishes was there, and so has been started before
    have known : i < m.nextTask → .started i op ∈ tr := fun hi =>
      (List.mem_append.mp hs).resolve_right (h.not_started hm hi op)
    refine Told.keep ?_ silent
    rcases List.mem_append.mp hr with hr | hr
    · have lt := (he.ended i r (mem_results.mpr hr)).1
      exact hc.told i op message r (known lt) hq hmsg hr
    · obtain ⟨op', role, _, hd⟩ := (h.concludes hm).2 i r hr
      obtain ⟨t, ht, _⟩ := view_eq_some.mp role
      have hs := known (hm.fresh i t ht)
      cases he.role i op _ (mem_errands.mpr hs) role
      refine hc.told_of_delivers hm he hv hs hq hmsg role ((hd hq).resolve_left ?_)
      rw [hmsg]
      exact fun h => nomatch h

end

theorem Machine.Reachable.speech {may : Move → Prop} {m : Machine} (hm : m.Reachable may) :
    Speech m.trace := by
  have inv := (errands_invariant.both turns_invariant).and (I := fun tr _ => Speech tr) ?_ ?_
    (fun _ _ _ _ h => h)
  · exact (inv.reached hm).2
  · intro _ _
    exact ⟨fun _ _ _ h => (nomatch h), fun _ _ _ _ h => (nomatch h)⟩
  · intro m os n tr h hb hc
    exact hc.keep hb.1.1 hb.1.2 hb.2.2.2 h

end GameLink.Client
