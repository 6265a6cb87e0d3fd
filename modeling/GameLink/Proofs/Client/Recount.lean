import GameLink.Proofs.Client.Era

/-! # The era of every link

Whatever a run does, what is observed of the link of a generation stands together
as one era between those of the links before it and after it (`era_of_opened`).
-/
namespace GameLink.Client.Machine

variable {may : Move → Prop} {m : Machine}

/-- The affairs of `m` are the eras `past`, then `e`, which is that of `link` in generation `g`,
then `later`. -/
structure Recount (m : Machine) (g : Generation) (link : LinkId) (past : List Era) (e : Era)
    (later : List Era) : Prop where
  affairs : affairs m.trace = (past ++ e :: later).flatMap Era.observations
  ofGeneration : e.generation = g
  ofLink : e.link = link
  /-- Apart from its frames and what they cause, it opens, is connected once and is torn down. -/
  turns : e.observations.filter Observation.isTurn =
    [.opened g link, .event .connected] ++ e.stage.observations
  before : ∀ p ∈ past, p.generation < g ∧ p.link ≠ link ∧ p.Over
  after : ∀ p ∈ later, g < p.generation ∧ p.link ≠ link
  finished : later ≠ [] → e.Over
  /-- Every teardown of the generation that takes effect is the one of the era. -/
  teardown : ∀ i td, .closing i td ∈ m.trace → td.generation = g →
    e.stage = .closing i td ∨ e.stage = .ended i td
  closed : ∀ c, .closed g c ∈ m.trace → ∃ i td, e.stage = .ended i td ∧ td.cause = c
  frames : ∀ f, .dispatched link f ∈ m.trace → f ∈ e.frames
  /-- A teardown by the user is of a close and tells if that does, any other one tells. -/
  cause : ∀ i td, e.stage = .closing i td ∨ e.stage = .ended i td → td.generation = g ∧
    ((td.cause = .user ∧ .started i (.close td.notify) ∈ m.trace) ∨
      (td.cause ≠ .user ∧ td.notify = true))
  /-- A disconnect is told by a client that shows itself idle with an empty table. -/
  composed : ∀ a c b, m.trace = a ++ .event (.disconnected c) :: b →
    ∃ a', a = a' ++ [.shown .idle 0]

/-- The eras of a run, all over but the last one. -/
theorem Reachable.eras (hm : m.Reachable may) :
    ∃ es : List Era, Client.affairs m.trace = es.flatMap Era.observations ∧
      openings m.trace = es.map (fun e => (e.generation, e.link)) ∧
      (∀ e ∈ es, e.Staged) ∧ ∀ e ∈ es.dropLast, e.Over := by
  obtain ⟨past, now, h⟩ := hm.chronicle
  refine ⟨past ++ now.toList, h.affairs, ?_, ?_, ?_⟩
  · rw [← m.openings_life m.trace]
    exact h.openings_eq
  · intro e he
    rcases List.mem_append.mp he with he | he
    · exact (h.ended e he).staged
    · cases h.current with
      | none hs => cases he
      | «open» e' hs hg ho =>
        obtain rfl := List.mem_singleton.mp he
        intro i td hst
        rcases hst with hst | hst <;> cases ho.symm.trans hst
      | closing e' i td hs hg hc htd ht =>
        obtain rfl := List.mem_singleton.mp he
        intro i' td' hst
        rcases hst with hst | hst
        · cases hc.symm.trans hst
          exact htd
        · cases hc.symm.trans hst
  · intro e he
    cases now with
    | none =>
      rw [Option.toList_none, List.append_nil] at he
      exact h.ended e (List.dropLast_subset _ he)
    | some e' =>
      rw [Option.toList_some, List.dropLast_concat] at he
      exact h.ended e he

/-- Different eras are of different links. -/
theorem Reachable.links_nodup (hm : m.Reachable may) {es : List Era}
    (h : openings m.trace = es.map (fun e => (e.generation, e.link))) :
    (es.map Era.link).Nodup := by
  have hlinks := (lodging_invariant.reached hm).2.once
  rw [h, List.map_map] at hlinks
  exact hlinks

/-- The eras before and after that of a link that was opened. -/
theorem Reachable.exists_era (hm : m.Reachable may) {g : Generation} {link : LinkId}
    (h : .opened g link ∈ m.trace) : ∃ past e later,
      Client.affairs m.trace = (past ++ e :: later).flatMap Era.observations ∧
        e.generation = g ∧ e.link = link ∧
        (∀ p ∈ past, p.generation < g ∧ p.link ≠ link) ∧
        (∀ p ∈ later, g < p.generation ∧ p.link ≠ link) ∧
        (∀ p ∈ past ++ e :: later, p.Staged) ∧ ∀ p ∈ (past ++ e :: later).dropLast, p.Over := by
  obtain ⟨es, haffairs, hopenings, hstaged, hover⟩ := hm.eras
  have grow : es.Pairwise (fun p q => p.generation < q.generation) := by
    have hgrow : (openings m.trace).Pairwise _ :=
      m.openings_life m.trace ▸ hm.sound.tokens.increasing
    rw [hopenings, List.pairwise_map] at hgrow
    exact hgrow
  have links := hm.links_nodup hopenings
  obtain ⟨e, he, hep⟩ := List.mem_map.mp (hopenings ▸ mem_openings.mpr h)
  obtain ⟨rfl, rfl⟩ := Prod.mk.inj hep
  obtain ⟨past, later, rfl⟩ := List.append_of_mem he
  rw [List.pairwise_append, List.pairwise_cons] at grow
  obtain ⟨_, ⟨hlater, _⟩, hpast⟩ := grow
  rw [List.map_append, List.map_cons, List.nodup_append, List.nodup_cons] at links
  obtain ⟨_, ⟨hlinkLater, _⟩, hlinkPast⟩ := links
  refine ⟨past, e, later, haffairs, rfl, rfl, ?_, ?_, hstaged, hover⟩
  · intro p hp
    exact ⟨hpast p hp e (.head _), hlinkPast _ (List.mem_map_of_mem hp) _ (.head _)⟩
  · intro p hp
    exact ⟨hlater p hp, fun hl => hlinkLater (hl ▸ List.mem_map_of_mem hp)⟩

theorem mem_dropLast_of_before {α : Type} {before after : List α} {e x : α} (h : x ∈ before) :
    x ∈ (before ++ e :: after).dropLast := by
  rw [List.dropLast_append_of_ne_nil (List.cons_ne_nil e after)]
  exact List.mem_append_left _ h

theorem mem_dropLast_of_after {α : Type} {before after : List α} {e : α} (h : after ≠ []) :
    e ∈ (before ++ e :: after).dropLast := by
  rw [List.dropLast_append_of_ne_nil (List.cons_ne_nil e after), List.dropLast_cons_of_ne_nil h]
  exact List.mem_append_right _ (.head _)

/-- A mark that one of a list bears alone tells which one it is. -/
theorem eq_of_mark_eq {α β : Type} {mark : α → β} {before after : List α} {e x : α}
    (hb : ∀ y ∈ before, mark y ≠ mark e) (ha : ∀ y ∈ after, mark y ≠ mark e)
    (hx : x ∈ before ++ e :: after) (h : mark x = mark e) : x = e := by
  rcases List.mem_append.mp hx with hx | hx
  · exact absurd h (hb x hx)
  · rcases List.mem_cons.mp hx with hx | hx
    · exact hx
    · exact absurd h (ha x hx)

theorem era_of_opened (hm : m.Reachable may) {g : Generation} {link : LinkId}
    (h : .opened g link ∈ m.trace) : ∃ past e later, Recount m g link past e later := by
  obtain ⟨past, e, later, haffairs, rfl, rfl, hpast, hlater, hstaged, hover⟩ := hm.exists_era h
  -- what speaks of this generation, or of this link, is observed in this era
  have here : ∀ {o}, o ∈ m.trace → o.isAffair = true → ∃ p ∈ past ++ e :: later,
      o ∈ p.observations := Era.exists_of_mem haffairs
  have same : ∀ p ∈ past ++ e :: later, p.generation = e.generation → p = e := fun _ =>
    eq_of_mark_eq (fun p hp => Nat.ne_of_lt (hpast p hp).1)
      (fun p hp => Nat.ne_of_gt (hlater p hp).1)
  have sameLink : ∀ p ∈ past ++ e :: later, p.link = e.link → p = e := fun _ =>
    eq_of_mark_eq (fun p hp => (hpast p hp).2) (fun p hp => (hlater p hp).2)
  refine ⟨past, e, later,
    { affairs := haffairs, ofGeneration := rfl, ofLink := rfl, turns := e.turns, before := ?before,
      after := hlater, finished := fun hne => hover e (mem_dropLast_of_after hne),
      teardown := ?teardown, closed := ?closed, frames := ?frames, cause := ?cause,
      composed := composed_invariant.reached hm }⟩
  case before =>
    intro p hp
    exact ⟨(hpast p hp).1, (hpast p hp).2, hover p (mem_dropLast_of_before hp)⟩
  case teardown =>
    intro i td hi hg
    obtain ⟨p, hp, hop⟩ := here hi rfl
    have stage := Era.of_closing hop
    obtain rfl := same p hp ((hstaged p hp i td stage).symm.trans hg)
    exact stage
  case closed =>
    intro c hc
    obtain ⟨p, hp, hop⟩ := here hc rfl
    obtain ⟨i, td, hs, hg, hcause⟩ := Era.of_closed hop
    obtain rfl := same p hp ((hstaged p hp i td (.inr hs)).symm.trans hg)
    exact ⟨i, td, hs, hcause⟩
  case frames =>
    intro f hf
    obtain ⟨p, hp, hop⟩ := here hf rfl
    obtain ⟨hl, hmem⟩ := Era.of_dispatched hop
    obtain rfl := sameLink p hp hl
    exact hmem
  case cause =>
    intro i td hst
    have he : e ∈ past ++ e :: later := List.mem_append_right _ (.head _)
    refine ⟨hstaged e he i td hst, ?_⟩
    have closing : .closing i td ∈ m.trace := Era.mem_of_mem haffairs he (Era.closing_mem hst)
    have causes := (causes_invariant.reached hm).2
    rcases causes i td (mem_closings.mpr closing) with ⟨hu, hop⟩ | hc
    · exact .inl ⟨hu, mem_errands.mp hop⟩
    · exact .inr hc

theorem era_of_reopened :
    openings (fresh.replay reopened).trace = [(1, 0), (2, 1)] ∧
      ∃ past e later, Recount (fresh.replay reopened) 1 0 past e later := by
  have opened : openings (fresh.replay reopened).trace = [(1, 0), (2, 1)] := rfl
  refine ⟨opened, era_of_opened (reachable_replay rfl) (mem_openings.mp ?_)⟩
  rw [opened]
  exact .head _

end GameLink.Client.Machine
