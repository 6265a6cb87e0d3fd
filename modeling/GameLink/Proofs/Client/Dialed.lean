import GameLink.Proofs.Client.Custody

/-! # Who dialed a link

Every link was dialed by one task, which holds it until it is installed or
discarded, and a link that was opened was dialed before (`Dialed`). A task on its
way brings up a generation that is not after that of the client
(`Reachable.brings_le`).
-/
namespace GameLink.Client

open Function (update)

section
variable {m n : Machine} {t u : Task} {os tr : List Observation} {i : TaskId}

/-! ## Who dialed a link -/

structure Dialed (tr : List Observation) (m : Machine) : Prop where
  known : ∀ i link, (i, link) ∈ dialings tr → i < m.nextTask ∧ link < m.links.length
  holds : ∀ i t link, m.task? i = some t → (i, link) ∈ dialings tr → t.position.held = some link
  held : ∀ i link, m.view lodges i = some link → (i, link) ∈ dialings tr
  unique : ∀ i j link, (i, link) ∈ dialings tr → (j, link) ∈ dialings tr → i = j
  opened : ∀ g link, (g, link) ∈ openings tr → ∃ i, (i, link) ∈ dialings tr

/-- Whoever holds a link goes on holding it. -/
theorem Goes.held (h : Goes m os t u) {link : LinkId} (hl : t.position.held = some link) :
    u.position.held = some link := by
  obtain ⟨_, hpos | hon⟩ := h
  · exact hpos ▸ hl
  · have linked : t.position.plain = false := by
      rw [← Bool.not_eq_true]
      intro hplain
      cases hl.symm.trans (lodges_plain t.role t.position hplain)
    generalize u.position = p at hon
    cases hon.shifts linked with
    | hangs g url deadline wake hq => rw [hq] at hl; cases hl
    | links g url deadline stage hq => rw [hq] at hl; cases hl
    | discards g link' hq hg => rwa [hq] at hl
    | takes td link' hq hw => rw [hq] at hl; cases hl

theorem Dialed.keep (hm : Dialed tr m) (hf : Fit m) (h : Change m os n) :
    Dialed (tr ++ os) n := by
  have fit := hf.keep h
  have next_le : m.nextTask ≤ n.nextTask := (h.regroup hf).next_le
  have tended := h.tended
  -- a link that was dialed before is still held by its task, if that is there
  have holds : ∀ i u link, n.task? i = some u → (i, link) ∈ dialings tr →
      u.position.held = some link := by
    intro i u link hu hd
    obtain ⟨t, ht, hgoes⟩ := h.origin_of_lt hu (hm.known i link hd).1
    exact hgoes.held (hm.holds i t link ht hd)
  have known : ∀ i link, (i, link) ∈ dialings tr → i < n.nextTask ∧ link < n.links.length := by
    intro i link hd
    obtain ⟨hi, hl⟩ := hm.known i link hd
    exact ⟨Nat.lt_of_lt_of_le hi next_le, Nat.lt_of_lt_of_le hl tended.length_le⟩
  cases h.berth hf with
  | same hv ho hd =>
    have hos : openings (tr ++ os) = openings tr := by rw [openings_append, ho, List.append_nil]
    have hds : dialings (tr ++ os) = dialings tr := by rw [dialings_append, hd, List.append_nil]
    exact ⟨hds ▸ known, hds ▸ holds, hds ▸ hv ▸ hm.held, hds ▸ hm.unique, hds ▸ hos ▸ hm.opened⟩
  | dialed j hj hv ho hd =>
    have hos : openings (tr ++ os) = openings tr := by rw [openings_append, ho, List.append_nil]
    have hds : ∀ {p}, p ∈ dialings (tr ++ os) ↔ p ∈ dialings tr ∨ p = (j, m.links.length) := by
      intro p
      rw [dialings_append, hd, List.mem_append, List.mem_singleton]
    have there : n.view lodges j = some m.links.length := by rw [hv, Function.update_self]
    refine ⟨?_, ?_, ?_, ?_, ?_⟩
    · intro i link h
      rcases hds.mp h with h | h
      · exact known i link h
      · cases h
        obtain ⟨u, hu, _⟩ := view_eq_some.mp there
        exact ⟨fit.fresh _ _ hu, fit.lodges_lt there⟩
    · intro i u link hu h
      rcases hds.mp h with h | h
      · exact holds i u link hu h
      · cases h
        obtain ⟨u', hu', hl⟩ := view_eq_some.mp there
        cases hu.symm.trans hu'
        exact hl
    · intro i link h
      rw [hv] at h
      rcases of_update_some h with ⟨rfl, rfl⟩ | ⟨_, h⟩
      · exact hds.mpr (.inr rfl)
      · exact hds.mpr (.inl (hm.held i link h))
    · intro i k link hi hk
      have new : ∀ {i}, (i, m.links.length) ∉ dialings tr := fun h =>
        Nat.lt_irrefl _ (hm.known _ _ h).2
      rcases hds.mp hi with hi | hi
      · rcases hds.mp hk with hk | hk
        · exact hm.unique i k link hi hk
        · cases hk
          exact absurd hi new
      · cases hi
        rcases hds.mp hk with hk | hk
        · exact absurd hk new
        · cases hk
          rfl
    · intro g link h
      obtain ⟨i, hi⟩ := hm.opened g link (hos ▸ h)
      exact ⟨i, hds.mpr (.inl hi)⟩
  | installed j g link hj hv ho hd =>
    have hds : dialings (tr ++ os) = dialings tr := by rw [dialings_append, hd, List.append_nil]
    refine ⟨hds ▸ known, hds ▸ holds, ?_, hds ▸ hm.unique, ?_⟩
    · intro i l h
      rw [hv] at h
      exact hds ▸ hm.held i l (of_update_none h).2
    · intro g' l h
      rw [openings_append, ho, List.mem_append, List.mem_singleton] at h
      rw [hds]
      rcases h with h | h
      · exact hm.opened g' l h
      · cases h
        exact ⟨j, hm.held j link hj⟩
  | left j hv hs ho hd =>
    have hos : openings (tr ++ os) = openings tr := by rw [openings_append, ho, List.append_nil]
    have hds : dialings (tr ++ os) = dialings tr := by rw [dialings_append, hd, List.append_nil]
    refine ⟨hds ▸ known, hds ▸ holds, ?_, hds ▸ hm.unique, hds ▸ hos ▸ hm.opened⟩
    intro i l h
    rw [hv] at h
    exact hds ▸ hm.held i l (of_update_none h).2

/-! ## Generations on their way -/

/-- The generation that a task brings up. -/
def bringsUp : Role → Position → Option Generation := fun _ p => p.brings

theorem bringsUp_placed (ht : m.task? t.id = some t) {p : Position}
    (h : p.brings = t.position.brings) :
    view bringsUp (placed t.id p m.tasks) = m.view bringsUp := view_placed_same ht h

/-- A generation is on its way because it was before, or because it is the newest. -/
theorem Change.bringing (h : Change m os n) {g : Generation}
    (hi : n.view bringsUp i = some g) : m.view bringsUp i = some g ∨ g = n.generation := by
  have gone : ∀ {id}, view bringsUp (without id m.tasks) i = some g →
      m.view bringsUp i = some g := by
    intro id hi
    rw [view_without] at hi
    exact (of_update_none hi).2
  have cleared : ∀ {t : Task} {p : Position}, m.task? t.id = some t → p.brings = none →
      view bringsUp (placed t.id p m.tasks) i = some g → m.view bringsUp i = some g := by
    intro t p ht hp hi
    have put : bringsUp t.role p = none := hp
    rw [view_placed ht, put] at hi
    exact (of_update_none hi).2
  cases h with
  | outside h => exact .inl (h.view_same (f := bringsUp) (fun _ => rfl) ▸ hi)
  | released h => cases h <;> exact .inl hi
  | @connecting t ht h =>
    cases h with
    | begun op url deadline stage hr hp hmsg hs hd hw hc =>
      change view bringsUp (placed t.id _ m.tasks) i = some g at hi
      rw [view_placed ht] at hi
      rcases of_update_some (b := m.generation + 1) hi with ⟨_, hg⟩ | ⟨_, hi⟩
      · exact .inr hg
      · exact .inl hi
    | backedOut n hr hp hs => exact .inl hi
    | hung op g url deadline wake hr hp =>
      exact .inl (bringsUp_placed ht (p := .dialing g url deadline .hung) (by rw [hp]; rfl) ▸ hi)
    | abandoned g url deadline stage hp hg hs => exact .inl hi
    | dialed op g url deadline stage hr hp =>
      exact .inl (bringsUp_placed ht (p := .installing g m.links.length) (by rw [hp]; rfl) ▸ hi)
    | installed op g link hr hp hl hg hs =>
      change view bringsUp (without t.id _) i = some _ at hi
      rw [view_without] at hi
      have hi := (of_update_none hi).2
      rw [view_append_same rfl, view_append_same rfl] at hi
      exact .inl hi
    | outdated op g link hr hp hl hg => exact .inl (cleared (p := .discarding link) ht rfl hi)
    | discarded op link f hr hp => exact .inl (gone hi)
  | exchanging ht h =>
    exact .inl (h.view_same (f := bringsUp) (fun _ _ => Position.brings_plain) ht ▸ hi)
  | background ht h =>
    exact .inl (h.view_same (f := bringsUp) (fun _ _ => Position.brings_plain) ht ▸ hi)
  | tearing ht h =>
    cases h with
    | begun td links hb hg hs => exact .inl (cleared (p := .tearing td .queued) ht rfl hi)
    | taken td link hp hl hw =>
      exact .inl (cleared (p := .tearing td (.closing link _)) ht rfl hi)
    | ended td stage links queue hf hp hv => exact .inl (gone hi)
  | leaving ht h => cases h <;> exact .inl (gone hi)

/-- Only who stands at the writer with a link opens it. -/
theorem Change.opener (hf : Fit m) (h : Change m os n) {g : Generation} {link : LinkId}
    (ho : .opened g link ∈ os) : ∃ i t, m.task? i = some t ∧ t.position = .installing g link := by
  have opened : (g, link) ∈ openings os := mem_openings.mpr ho
  cases h.berth hf with
  | same hv hos hd => rw [hos] at opened; cases opened
  | dialed j hj hv hos hd => rw [hos] at opened; cases opened
  | left j hv hs hos hd => rw [hos] at opened; cases opened
  | installed j g' link' hj hv hos hd =>
    obtain ⟨t, ht, hl⟩ := view_eq_some.mp hj
    have gone : n.view lodges j = none := by rw [hv, Function.update_self]
    rcases h.fate hf ht with ⟨u, hu, hgoes⟩ | ⟨_, hdep⟩
    · have there : n.view lodges j = some link' := view_eq_some.mpr ⟨u, hu, hgoes.held hl⟩
      cases gone.symm.trans there
    · refine ⟨j, t, ht, ?_⟩
      have linked : t.position.held = some link' := hl
      cases hdep with
      | opens op g'' link'' hr hp hn ho' =>
        have opened' : (g'', link'') ∈ openings os := mem_openings.mpr ho'
        rw [hos, List.mem_singleton] at opened opened'
        cases opened
        cases opened'
        exact hp
      | discards op link'' f hr hp ho' => subst ho'; cases hos
      | dropped ha hs' hg ho' => subst ho'; cases hos
      | givesUp host x stage hr hp hv' ho' => subst ho'; cases hos
      | retires hr hp ho' => subst ho'; cases hos
      | fails op g'' url deadline stage f hr hp hg ho' => subst ho'; cases hos
      | settles op r hr hp ho' => rw [hp] at linked; cases linked
      | answers op x stage r hr hp ho' => rw [hp] at linked; cases linked
      | tears td stage hp hn ho' hr => rw [hp] at linked; cases linked

end

theorem dialed_invariant : Invariant (fun tr m => (Fit m ∧ (m.life tr).Sound) ∧ Dialed tr m) := by
  refine Life.sound_invariant.and ?_ (fun m os n tr h hf hm => hm.keep hf.1 h) ?_
  · intro m h
    obtain ⟨_, _, _, _, rfl⟩ := h.fields
    exact ⟨fun _ _ h => (nomatch h), fun _ _ _ h => (nomatch h), fun _ _ h => (nomatch h),
      fun _ _ _ h => (nomatch h), fun _ _ h => (nomatch h)⟩
  · intro tr n handler history h
    exact ⟨h.known, h.holds, h.held, h.unique, h.opened⟩

theorem bringing_invariant : Invariant (fun _ m => Fit m ∧
    ∀ i g, m.view bringsUp i = some g → g ≤ m.generation) := by
  refine fit_invariant.and ?_ ?_ (fun _ _ _ _ h => h)
  · intro m h
    obtain ⟨_, _, _, _, rfl⟩ := h.fields
    exact fun _ _ h => nomatch h
  · intro m os n tr h _ hm i g hg
    rcases h.bringing hg with hg | rfl
    · exact Nat.le_trans (hm i g hg) h.generation_le
    · exact Nat.le_refl _

namespace Machine

variable {may : Move → Prop} {m : Machine} {i : TaskId} {t : Task}

theorem Reachable.dialed (hm : m.Reachable may) : Dialed m.trace m := (dialed_invariant.reached hm).2

theorem Reachable.brings_le (hm : m.Reachable may) (ht : m.task? i = some t) {g : Generation}
    (hg : t.position.brings = some g) : g ≤ m.generation :=
  (bringing_invariant.reached hm).2 i g (view_eq_some.mpr ⟨t, ht, hg⟩)

end Machine

end GameLink.Client
