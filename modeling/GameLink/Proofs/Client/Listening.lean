import GameLink.Proofs.Client.Order
import GameLink.Proofs.Client.Stream

/-! # Who listens to a link

The read half of a link belongs to the connect that holds the link, and then to
its reader. There is one such task at most, and as long as it is there the link
can be read (`Listening`).
-/
namespace GameLink.Client

/-- The read half of `link` belongs to task `i`. -/
def Attends (m : Machine) (i : TaskId) (link : LinkId) : Prop :=
  m.view lodges i = some link ∨ ∃ g, m.view serves i = some (g, some link)

section
variable {m n : Machine} {tr os : List Observation} {i j : TaskId} {t u : Task} {g : Generation}
  {link : LinkId} {k : Link}

theorem attends_of_task (ht : m.task? t.id = some t)
    (h : t.position.held = some link ∨ ∃ g, t.role = .reader g link) : Attends m t.id link := by
  rcases h with h | ⟨g, h⟩
  · exact .inl ((view_of (f := lodges) ht).trans h)
  · exact .inr ⟨g, (view_of (f := serves) ht).trans (by rw [h]; rfl)⟩

/-- A link that a reader reads was opened for its generation. -/
theorem opened_of_serves (hs : (m.life tr).Sound) (h : m.view serves i = some (g, some link)) :
    (g, link) ∈ openings tr := by
  obtain ⟨l, hl, hkind⟩ := hs.service.serving i g _ h
  rcases hkind with hkind | hkind
  · cases hkind
  · cases hkind
    exact m.openings_life tr ▸ hl

theorem Attends.eq (hs : (m.life tr).Sound) (hl : Lodging tr m) (hi : Attends m i link)
    (hj : Attends m j link) : i = j := by
  rcases hi with hi | ⟨g, hi⟩
  · rcases hj with hj | ⟨g, hj⟩
    · exact hl.one i j link hi hj
    · exact absurd hi (hl.apart g link i (opened_of_serves hs hj))
  · rcases hj with hj | ⟨g', hj⟩
    · exact absurd hj (hl.apart g link j (opened_of_serves hs hi))
    · -- a link is opened once, so both serve one generation
      have same := List.inj_on_of_nodup_map hl.once (opened_of_serves hs hi)
        (opened_of_serves hs hj) rfl
      obtain rfl : g = g' := congrArg Prod.fst same
      exact hs.service.one i j g _ _ hi hj rfl

theorem Attends.lt (hm : Fit m) (h : Attends m i link) : link < m.links.length := by
  rcases h with h | ⟨g, h⟩
  · exact hm.lodges_lt h
  · obtain ⟨t, ht, hs⟩ := view_eq_some.mp h
    cases hr : t.role with
    | reader g' l =>
      rw [hr] at hs
      cases hs
      exact hm.linked i t _ _ ht hr
    | operation op => rw [hr] at hs; cases hs
    | heartbeat g' => rw [hr] at hs; cases hs

/-- A reader was there before, or its link is installed by the task that held it. -/
theorem Change.reader (hm : Fit m) (h : Change m os n) (hu : n.task? i = some u)
    (hr : u.role = .reader g link) : (∃ t, m.task? i = some t ∧ t.role = .reader g link) ∨
      n.nextTask ≠ m.nextTask ∧ ∃ t, m.task? t.id = some t ∧ t.position.held = some link := by
  have old : n.nextTask = m.nextTask → ∃ t, m.task? i = some t ∧ t.role = .reader g link := by
    intro hn
    rcases (h.regroup hm).origin hu with ⟨t, ht, hrole, _⟩ | ⟨hle, hlt, _⟩
    · exact ⟨t, ht, hrole ▸ hr⟩
    · exact absurd hlt (Nat.not_lt_of_le (hn ▸ hle))
  cases h with
  | outside h =>
    cases h with
    | started op policy h =>
      rcases of_findTask_append hu with hu | ⟨_, rfl⟩
      · exact .inl ⟨u, hu, hr⟩
      · cases hr
    | _ => exact .inl (old rfl)
  | released h => cases h <;> exact .inl (old rfl)
  | connecting ht h =>
    cases h with
    | installed op g' link' hr' hp hl hg hs =>
      rcases of_findTask_append (of_findTask_without hu) with hu | ⟨_, rfl⟩
      · rcases of_findTask_append hu with hu | ⟨_, rfl⟩
        · exact .inl ⟨u, hu, hr⟩
        · cases hr
          exact .inr ⟨by simp, _, ht, by rw [hp]; rfl⟩
      · cases hr
    | _ => exact .inl (old rfl)
  | exchanging ht h => cases h <;> exact .inl (old rfl)
  | background ht h => cases h <;> exact .inl (old rfl)
  | tearing ht h => cases h <;> exact .inl (old rfl)
  | leaving ht h => cases h <;> exact .inl (old rfl)

/-- The read half of a link changes hands only when the link is dialed or installed. -/
theorem Change.attends (hm : Fit m) (h : Change m os n) (ha : Attends n i link) :
    Attends m i link ∨ m.links.length ≤ link ∨
      n.nextTask ≠ m.nextTask ∧ ∃ j, Attends m j link := by
  rcases ha with ha | ⟨g, ha⟩
  · cases h.berth hm with
    | same hv ho hd => exact .inl (.inl (hv ▸ ha))
    | dialed j hj hv ho hd =>
      rw [hv] at ha
      rcases of_update_some ha with ⟨_, hl⟩ | ⟨_, ha⟩
      · exact .inr (.inl (Nat.le_of_eq hl.symm))
      · exact .inl (.inl ha)
    | installed j g l hj hv ho hd =>
      rw [hv] at ha
      exact .inl (.inl (of_update_none ha).2)
    | left j hv hs ho hd =>
      rw [hv] at ha
      exact .inl (.inl (of_update_none ha).2)
  · have hrole : ∃ u, n.task? i = some u ∧ u.role = .reader g link := by
      rcases Machine.role_of_serves ha with ⟨hl, _⟩ | ⟨l, hl, hr⟩
      · cases hl
      · cases hl
        exact Option.map_eq_some_iff.mp hr
    obtain ⟨u, hu, hr⟩ := hrole
    rcases h.reader hm hu hr with ⟨t, ht, hrt⟩ | ⟨hn, t, ht, hp⟩
    · obtain rfl := findTask_id ht
      exact .inl (attends_of_task ht (.inr ⟨g, hrt⟩))
    · exact .inr (.inr ⟨hn, t.id, attends_of_task ht (.inl hp)⟩)

/-! ## Whoever attends to a link can read it -/

theorem LinkStep.readerOpen {gone : LinkId → Prop} {l : Link} (h : LinkStep gone link k os l)
    (hk : k.readerOpen = true) (hg : ¬ gone link) : l.readerOpen = true := by
  cases h with
  | setMode mode => exact hk
  | closeServer => exact hk
  | closeWriter => exact hk
  | closeReader h => exact absurd h hg
  | push frame hs hr => rw [Link.push_eq frame hr]; exact hk
  | take h =>
    obtain ⟨_, _, he⟩ := Link.take_eq_frame h
    rw [he]
    exact hk
  | write i frame h =>
    obtain ⟨_, _, rfl⟩ := Link.write_eq_sent h
    exact hk
  | read h => rw [(Link.receive_eq_frame h).2]; exact hk
  | fault h =>
    obtain ⟨_, _, _, he⟩ := Link.receive_eq_failed h
    rw [he]
    exact hk

theorem LinkSteps.readerOpen {gone : LinkId → Prop} {l : Link} (h : LinkSteps gone link k os l)
    (hk : k.readerOpen = true) (hg : ¬ gone link) : l.readerOpen = true := by
  induction h with
  | refl => exact hk
  | tail _ s ih => exact s.readerOpen ih hg

def Listening (m : Machine) : Prop :=
  ∀ i link k, Attends m i link → m.links[link]? = some k → k.readerOpen = true

theorem Listening.keep (hm : Listening m) (hf : Fit m) (hs : (m.life tr).Sound)
    (hl : Lodging tr m) (h : Change m os n) : Listening n := by
  intro i link k hi hk
  -- the half is not closed: its owner would be gone, and it has one that is there
  have kept : ¬ Deserted m n link := by
    rintro ⟨t, ht, hgone, hnext, hown⟩
    have hown := attends_of_task ht hown
    rcases h.attends hf hi with hold | hlt | ⟨hn, _⟩
    · obtain rfl := hold.eq hs hl hown
      rcases hi with hi | ⟨g, hi⟩
      · obtain ⟨u, hu, _⟩ := view_eq_some.mp hi
        cases hgone.symm.trans hu
      · obtain ⟨u, hu, _⟩ := view_eq_some.mp hi
        cases hgone.symm.trans hu
    · exact Nat.not_lt_of_le hlt (hown.lt hf)
    · exact hn hnext
  have along := h.wired link
  rw [hk] at along
  generalize hx : m.links[link]? = x at along
  generalize mail link os = ms at along
  cases along with
  | came s => exact s.readerOpen rfl kept
  | went s =>
    refine s.readerOpen ?_ kept
    rcases h.attends hf hi with hold | hlt | ⟨_, j, hj⟩
    · exact hm i link _ hold hx
    · rw [List.getElem?_eq_none hlt] at hx
      cases hx
    · exact hm j link _ hj hx

end

theorem listening_invariant : Invariant (fun tr m =>
    ((Fit m ∧ (m.life tr).Sound) ∧ Fit m ∧ Lodging tr m) ∧ Listening m) := by
  refine (Life.sound_invariant.both lodging_invariant).and ?_ ?_ (fun _ _ _ _ h => h)
  · intro m h
    obtain ⟨_, _, _, _, rfl⟩ := h.fields
    intro i link k _ hk
    simp at hk
  · intro m os n tr h hb hm
    exact hm.keep hb.1.1 hb.1.2 hb.2.2 h

end GameLink.Client
