import GameLink.Proofs.Client.Speech
import GameLink.Proofs.Client.Writable

/-! # Who writes on a link

Apart from operations nobody writes on a link but the heartbeat that has come with
it (`Scribed`), so that every ping on it that no operation sends is one of that
heartbeat.
-/
namespace GameLink.Client
open Function (update)

/-- No operation goes by that id. -/
def Unasked (tr : List Observation) (i : TaskId) : Prop := ∀ op, .started i op ∉ tr

/-- Whoever writes on a link, and is no operation, is the heartbeat of its generation. -/
structure Scribed (tr : List Observation) (m : Machine) : Prop where
  heartbeat : ∀ j l f, .wrote j l f ∈ tr → Unasked tr j → ∃ g, .opened g l ∈ tr ∧
    ∀ i, m.view serves i = some (g, none) → i = j
  one : ∀ i j l f f', .wrote i l f ∈ tr → .wrote j l f' ∈ tr → Unasked tr i → Unasked tr j → i = j

/-- No heartbeat comes to a generation that has its link. -/
theorem Life.Step.heartbeat {c d : Life} (h : Life.Step c d) (hc : c.Tokens) {g : Generation}
    {l : LinkId} (hl : (g, l) ∈ openings c.affairs) {i : TaskId}
    (hi : d.serves i = some (g, none)) : c.serves i = some (g, none) := by
  have lost : ∀ {j : TaskId}, update c.serves j none i = some (g, none) →
      c.serves i = some (g, none) := by
    intro j hi
    rw [Function.update_apply] at hi
    split at hi
    · cases hi
    · exact hi
  cases h with
  | installed link j j' hs hj hj' hjj =>
    have later : g ≠ c.generation := Nat.ne_of_lt ((hc.past g l hl).2 hs)
    simp only [Function.update_apply] at hi
    split at hi
    · cases hi
      exact absurd rfl later
    · split at hi
      · cases hi
      · exact hi
  | ended j td stage hj hw => exact lost hi
  | left j g' l' hj hg => exact lost hi
  | _ => exact hi

section
variable {m n : Machine} {tr os : List Observation} {j : TaskId} {l : LinkId}
  {f : Envelope.Outgoing}

/-- A write is one of an operation or of a heartbeat that goes on. -/
theorem Change.wrote (h : Change m os n) (hw : .wrote j l f ∈ os) :
    m.writer = some l ∧ ∃ host : Host, m.view roles j = some host.role ∧ host.Live m := by
  have farewell : ∀ (host : Host) (id : TaskId) (outcome : Except Failure Answer),
      .wrote j l f ∉ host.farewell id outcome := by
    intro host id outcome
    cases host <;> simp [Host.farewell]
  cases h with
  | outside h => cases h <;> simp at hw
  | released h => cases h <;> cases hw
  | connecting ht h => cases h <;> simp at hw
  | exchanging ht h =>
    cases h with
    | written host x l' link link' hr hv hp hl hw' hk hf =>
      simp only [List.mem_singleton, Observation.wrote.injEq] at hw
      obtain ⟨rfl, rfl, rfl⟩ := hw
      exact ⟨hw', host, view_eq_some.mpr ⟨_, ht, congrArg some hr⟩, hv⟩
    | refused host hh hs => simp [farewell] at hw
    | unsent host x stage k f hr hv hp hx hn => simp [farewell] at hw
    | replied host x k outcome hr hv hp hx hw' => simp [farewell] at hw
    | _ => simp at hw
  | background ht h =>
    cases h with
    | dispatched g link l l' frame hr hp hc hl hf =>
      unfold heard at hw
      split at hw <;> simp at hw
    | _ => cases hw
  | tearing ht h =>
    cases h with
    | begun td links hb hg hs => split at hw <;> simp at hw
    | taken td link hp hl hw' => cases hw
    | ended td stage links queue hf hp hv =>
      split at hw <;> split at hw <;> split at hw <;> simp at hw
  | leaving ht h => cases h <;> simp at hw

/-- Who writes without being an operation serves the generation of the link. -/
theorem Change.scribe (h : Change m os n) (hs : (m.life tr).Sound) (he : Equipped tr m)
    (hr : Errands tr m) (hw : .wrote j l f ∈ os) (hj : Unasked tr j) :
    ∃ g, .opened g l ∈ tr ∧ m.view serves j = some (g, none) := by
  obtain ⟨writer, host, role, live⟩ := h.wrote hw
  cases host with
  | operation op => exact absurd (mem_errands.mp (hr.asked j op role)) (hj op)
  | heartbeat g ticker =>
    obtain ⟨t, ht, hrole⟩ := view_eq_some.mp role
    have service : m.view serves j = some (g, none) := by
      refine view_eq_some.mpr ⟨t, ht, ?_⟩
      rw [Option.some.inj hrole]
      rfl
    obtain ⟨link, hlink, _⟩ := hs.service.serving j g none service
    rw [Machine.openings_life] at hlink
    have opened := mem_openings.mp hlink
    cases writer.symm.trans (he.writes hs opened live).1
    exact ⟨g, opened, service⟩

theorem Scribed.keep (hc : Scribed tr m) (hm : Fit m) (hs : (m.life tr).Sound)
    (he : Equipped tr m) (hr : Errands tr m) (hl : Lodging tr m) (h : Change m os n) :
    Scribed (tr ++ os) n := by
  have step : Life.Step (m.life tr) (n.life (tr ++ os)) := h.life hm
  have before : ∀ {j}, Unasked (tr ++ os) j → Unasked tr j := fun hj op ho =>
    hj op (List.mem_append_left _ ho)
  have serves : ∀ {g l i}, .opened g l ∈ tr → n.view serves i = some (g, none) →
      m.view Client.serves i = some (g, none) := by
    intro g l i ho hi
    refine step.heartbeat hs.tokens (l := l) ?_ hi
    rw [Machine.openings_life]
    exact mem_openings.mpr ho
  -- a link has one generation, and a generation one heartbeat
  have same : ∀ {g g' l i}, .opened g l ∈ tr → .opened g' l ∈ tr →
      m.view Client.serves i = some (g, none) → m.view Client.serves i = some (g', none) := by
    intro g g' l i ho ho' hi
    have apart := List.inj_on_of_nodup_map hl.once (mem_openings.mpr ho) (mem_openings.mpr ho') rfl
    cases apart
    exact hi
  have alone : ∀ {g i j}, m.view Client.serves i = some (g, none) →
      m.view Client.serves j = some (g, none) → i = j := fun hi hj =>
    hs.service.one _ _ _ _ _ hi hj rfl
  -- who has written is the one that serves, so who writes now has written before
  have again : ∀ {i j l f f'}, .wrote i l f ∈ tr → Unasked tr i → .wrote j l f' ∈ os →
      Unasked tr j → j = i := by
    intro i j l f f' hi hui hj huj
    obtain ⟨g, ho, current⟩ := hc.heartbeat i l f hi hui
    obtain ⟨g', ho', hserves⟩ := h.scribe hs he hr hj huj
    exact current j (same ho' ho hserves)
  constructor
  · intro j l f hw hj
    rcases List.mem_append.mp hw with hw | hw
    · obtain ⟨g, ho, current⟩ := hc.heartbeat j l f hw (before hj)
      exact ⟨g, List.mem_append_left _ ho, fun i hi => current i (serves ho hi)⟩
    · obtain ⟨g, ho, hserves⟩ := h.scribe hs he hr hw (before hj)
      exact ⟨g, List.mem_append_left _ ho, fun i hi => alone (serves ho hi) hserves⟩
  · intro i j l f f' hi hj hui huj
    rcases List.mem_append.mp hi with hi | hi
    · rcases List.mem_append.mp hj with hj | hj
      · exact hc.one i j l f f' hi hj (before hui) (before huj)
      · exact (again hi (before hui) hj (before huj)).symm
    · rcases List.mem_append.mp hj with hj | hj
      · exact again hj (before huj) hi (before hui)
      · obtain ⟨g, ho, hserves⟩ := h.scribe hs he hr hi (before hui)
        obtain ⟨g', ho', hserves'⟩ := h.scribe hs he hr hj (before huj)
        exact alone hserves (same ho' ho hserves')

end

theorem scribed_invariant : Invariant (fun tr m =>
    ((((Fit m ∧ (m.life tr).Sound) ∧ Fit m ∧ Lodging tr m) ∧ Equipped tr m) ∧ Fit m ∧
      Errands tr m) ∧ Scribed tr m) := by
  refine (equipped_invariant.both errands_invariant).and ?_ ?_ ?_
  · exact fun _ _ => ⟨fun _ _ _ h => (nomatch h), fun _ _ _ _ _ h => (nomatch h)⟩
  · rintro m os n tr h ⟨⟨⟨⟨hm, hs⟩, _, hl⟩, he⟩, _, hr⟩ hc
    exact hc.keep hm hs he hr hl h
  · exact fun _ _ _ _ hc => ⟨hc.heartbeat, hc.one⟩

/-- Whoever is there and no operation never becomes one. -/
theorem Machine.Reaches.unasked {may may₀ : Move → Prop} {a b : Machine} (hab : Reaches may a b)
    (ha : a.Reachable may₀) {i : TaskId} (hi : i < a.nextTask) (hu : Unasked a.trace i) :
    Unasked b.trace i := by
  refine (hab.kept (I := fun rs m => i < m.nextTask ∧ Unasked (rs.map Record.what) i) ha
    fit_invariant ?_ (fun _ _ _ _ h => h) ⟨hi, hu⟩).2
  intro m os n rs h hm ⟨hi, hu⟩
  refine ⟨Nat.lt_of_lt_of_le hi (h.regroup hm).next_le, fun op ho => ?_⟩
  rw [List.map_append] at ho
  rcases List.mem_append.mp ho with ho | ho
  · exact hu op ho
  · exact h.not_started hm hi op (by simpa [Function.comp_def] using ho)

theorem Machine.Reachable.unasked {may : Move → Prop} {m : Machine} (hm : m.Reachable may)
    {i : TaskId} {g : Generation} (hi : m.role? i = some (.heartbeat g)) : Unasked m.trace i := by
  intro op ho
  obtain ⟨t, ht, hr⟩ := Option.map_eq_some_iff.mp hi
  have role : m.view roles i = some (.heartbeat g) :=
    view_eq_some.mpr ⟨t, ht, congrArg some hr⟩
  cases (errands_invariant.reached hm).2.role i op _ (mem_errands.mpr ho) role

/-- Whoever writes on the link of a generation is an operation or its heartbeat. -/
theorem Machine.Reachable.scribe {may : Move → Prop} {m : Machine} (hm : m.Reachable may)
    {g : Generation} {l : LinkId} (hl : .opened g l ∈ m.trace) {i : TaskId}
    (hi : m.role? i = some (.heartbeat g) ∨
      ∃ f, .wrote i l f ∈ m.trace ∧ Unasked m.trace i) {j : TaskId} {f : Envelope.Outgoing}
    (hw : .wrote j l f ∈ m.trace) : j = i ∨ ∃ op, .started j op ∈ m.trace := by
  obtain ⟨⟨⟨_, _, lodging⟩, _⟩, _⟩ := (scribed_invariant.reached hm).1
  have scribed := (scribed_invariant.reached hm).2
  by_cases hj : Unasked m.trace j
  · left
    rcases hi with hi | ⟨f', hf', hi⟩
    · obtain ⟨g', ho, current⟩ := scribed.heartbeat j l f hw hj
      have apart := List.inj_on_of_nodup_map lodging.once (mem_openings.mpr hl)
        (mem_openings.mpr ho) rfl
      cases apart
      exact (current i (serves_of_role hi)).symm
    · exact scribed.one j i l f f' hw hf' hj hi
  · right
    by_contra hnone
    exact hj fun op ho => hnone ⟨op, ho⟩

end GameLink.Client
