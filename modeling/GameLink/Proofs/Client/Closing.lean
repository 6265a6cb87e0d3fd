import GameLink.Proofs.Client.Errand

/-! # How a teardown shows

A teardown that takes effect is of a close that was asked for, or it will be told
(`Causes`). Nobody hears of a disconnect but from a client that shows itself idle
with no request in its table (`Composed`).
-/
namespace GameLink.Client

def Observation.closer : Observation → Option (TaskId × Teardown)
  | .closing i td => some (i, td)
  | _ => none

/-- The teardowns that took effect, each with its task. -/
def closings (tr : List Observation) : List (TaskId × Teardown) := tr.filterMap Observation.closer

@[simp] theorem closings_append (a b : List Observation) :
    closings (a ++ b) = closings a ++ closings b := List.filterMap_append

theorem mem_closings {tr : List Observation} {i : TaskId} {td : Teardown} :
    (i, td) ∈ closings tr ↔ .closing i td ∈ tr :=
  mem_picked fun o => by cases o <;> simp [Observation.closer]

/-- Where a disconnect is told, the client has just shown itself idle with an empty table. -/
def Composed (tr : List Observation) : Prop :=
  ∀ a c b, tr = a ++ .event (.disconnected c) :: b → ∃ a', a = a' ++ [.shown .idle 0]

theorem Composed.append {x y : List Observation} (hx : Composed x) (hy : Composed y) :
    Composed (x ++ y) := by
  intro a c b h
  rcases List.append_eq_append_iff.mp h with ⟨s, rfl, hs⟩ | ⟨s, hs, hb⟩
  · obtain ⟨a', rfl⟩ := hy s c b hs
    exact ⟨x ++ a', (List.append_assoc ..).symm⟩
  · cases s with
    | nil =>
      rw [List.append_nil] at hs
      obtain ⟨a', ha⟩ := hy [] c b hb.symm
      simp at ha
    | cons o rest =>
      rw [List.cons_append] at hb
      obtain ⟨rfl, _⟩ := List.cons_eq_cons.mp hb
      exact hx a c rest hs

/-- Nobody hears of a disconnect. -/
def Untold (os : List Observation) : Prop := ∀ c, .event (.disconnected c) ∉ os

theorem Untold.composed {os : List Observation} (h : Untold os) : Composed os := by
  intro a c b hs
  refine absurd ?_ (h c)
  rw [hs]
  exact List.mem_append_right _ (.head _)

section
variable {m n : Machine} {t : Task} {os : List Observation}

theorem untold_farewell (host : Host) (i : TaskId) (outcome : Except Failure Answer) :
    Untold (host.farewell i outcome) := by
  intro c
  cases host <;> simp [Host.farewell]

theorem untold_heard (m : Machine) (frame : Bytes) : Untold (heard m frame) := by
  intro c
  unfold heard eventIn
  split
  · rename_i e h
    split at h
    · cases h
      simp
    · split at h
      · cases h
      · cases h
        simp
      · cases h
        simp
  · simp

theorem closings_farewell (host : Host) (i : TaskId) (outcome : Except Failure Answer) :
    closings (host.farewell i outcome) = [] := by
  cases host <;> rfl

theorem closings_heard (m : Machine) (frame : Bytes) : closings (heard m frame) = [] := by
  unfold heard
  split <;> rfl

/-- What only a teardown does. -/
structure Aside (os : List Observation) : Prop where
  closings : closings os = []
  untold : Untold os

theorem Exchanging.aside (h : Exchanging m t os n) : Aside os := by
  cases h with
  | refused host hh hs =>
    refine ⟨closings_farewell host _ _, ?_⟩
    intro c hc
    simp [untold_farewell host t.id _ c] at hc
  | unsent host x stage k f hr hv hp hx hn =>
    refine ⟨closings_farewell host _ _, ?_⟩
    intro c hc
    simp [untold_farewell host t.id _ c] at hc
  | replied host x k outcome hr hv hp hx hw =>
    refine ⟨closings_farewell host _ _, ?_⟩
    intro c hc
    simp [untold_farewell host t.id _ c] at hc
  | _ => exact ⟨rfl, fun c => by simp⟩

theorem Background.aside (h : Background m t os n) : Aside os := by
  cases h with
  | dispatched g link l l' frame hr hp hc hl hf =>
    refine ⟨closings_heard m frame, ?_⟩
    intro c h
    rcases List.mem_cons.mp h with h | h
    · cases h
    · exact untold_heard m frame c h
  | _ => exact ⟨rfl, fun c => by simp⟩

theorem Tearing.composed (h : Tearing m t os n) : Composed os := by
  cases h with
  | begun td links hb hg hs =>
    refine Untold.composed ?_
    intro c
    split <;> simp
  | taken td link hp hl hw => exact Untold.composed (fun c => by simp)
  | ended td stage links queue hf hp hv =>
    have told : Composed
        (.closed td.generation td.cause ::
          (if td.notify then [.shown .idle 0, .event (.disconnected td.cause)] else [])) := by
      split
      · intro a c b h
        rcases a with _ | ⟨x, _ | ⟨y, _ | ⟨z, rest⟩⟩⟩
        · cases h
        · cases h
        · cases h
          exact ⟨[.closed td.generation td.cause], rfl⟩
        · simp at h
      · exact Untold.composed (fun c => by simp)
    have rest : Composed ((if td.cause = .user then [] else [Observation.disconnect td.cause]) ++
        (if t.isOperation then [.finished t.id (.ok .nothing)] else [])) := by
      refine Untold.composed ?_
      intro c
      split <;> split <;> simp
    have both := told.append rest
    rw [List.cons_append, ← List.append_assoc] at both
    exact both

theorem Change.aside (h : Change m os n) (hn : ∀ t : Task, ¬ Tearing m t os n) : Aside os := by
  cases h with
  | outside h => cases h <;> exact ⟨rfl, fun c => by simp⟩
  | released h => cases h <;> exact ⟨rfl, fun c => by simp⟩
  | connecting ht h => cases h <;> exact ⟨rfl, fun c => by simp⟩
  | exchanging ht h => exact h.aside
  | background ht h => exact h.aside
  | tearing ht h => exact absurd h (hn _)
  | leaving ht h => cases h <;> exact ⟨rfl, fun c => by simp⟩

theorem Change.composed (h : Change m os n) : Composed os := by
  by_cases hn : ∃ t : Task, Tearing m t os n
  · obtain ⟨t, ht⟩ := hn
    exact ht.composed
  · exact (h.aside (fun t ht => hn ⟨t, ht⟩)).untold.composed

/-- A teardown takes effect in a change that shows nothing before it and no other. -/
theorem Change.begins (h : Change m os n) : closings os = [] ∨
    ∃ (t : Task) (td : Teardown) (links : List Link) (rest : List Observation),
      m.task? t.id = some t ∧ Begins m t td links ∧ os = .closing t.id td :: rest ∧
        closings rest = [] := by
  cases h with
  | tearing ht h =>
    cases h with
    | begun td links hb hg hs =>
      refine .inr ⟨_, td, links, _, ht, hb, rfl, ?_⟩
      split <;> rfl
    | taken td link hp hl hw => exact .inl rfl
    | ended td stage links queue hf hp hv =>
      refine .inl ?_
      split <;> split <;> split <;> rfl
  | outside h => cases h <;> exact .inl rfl
  | released h => cases h <;> exact .inl rfl
  | connecting ht h => cases h <;> exact .inl rfl
  | exchanging ht h => exact .inl h.aside.closings
  | background ht h => exact .inl h.aside.closings
  | leaving ht h => cases h <;> exact .inl rfl

theorem Change.closings (h : Change m os n) : closings os = [] ∨
    ∃ (t : Task) (td : Teardown) (links : List Link),
      m.task? t.id = some t ∧ Begins m t td links ∧ closings os = [(t.id, td)] := by
  rcases h.begins with hn | ⟨t, td, links, rest, ht, hb, rfl, hrest⟩
  · exact .inl hn
  · refine .inr ⟨t, td, links, ht, hb, ?_⟩
    show (t.id, td) :: Client.closings rest = _
    rw [hrest]

end

/-! ## The invariants -/

/-- A close that was asked for tears down as it was asked to, and anything else is told. -/
def Causes (tr : List Observation) : Prop :=
  ∀ i td, (i, td) ∈ closings tr →
    (td.cause = .user ∧ (i, .close td.notify) ∈ errands tr) ∨ (td.cause ≠ .user ∧ td.notify = true)

theorem Begins.cause {m : Machine} {t : Task} {td : Teardown} {links : List Link}
    (h : Begins m t td links) : (td.cause = .user ∧ t.role = .operation (.close td.notify)) ∨
      (td.cause ≠ .user ∧ td.notify = true) := by
  cases h with
  | close n hr hp => exact .inl ⟨rfl, hr⟩
  | remote => exact .inr ⟨fun h => (nomatch h), rfl⟩
  | failed => exact .inr ⟨fun h => (nomatch h), rfl⟩
  | silent => exact .inr ⟨fun h => (nomatch h), rfl⟩

theorem causes_invariant : Invariant (fun tr m => (Fit m ∧ Errands tr m) ∧ Causes tr) := by
  refine errands_invariant.and (fun _ _ _ _ h => (nomatch h)) ?_ (fun _ _ _ _ h => h)
  intro m os n tr h hm hc i td hi
  have more : ∀ {i op}, (i, op) ∈ errands tr → (i, op) ∈ errands (tr ++ os) := by
    intro i op hi
    rw [errands_append]
    exact List.mem_append_left _ hi
  rw [closings_append, List.mem_append] at hi
  rcases hi with hi | hi
  · rcases hc i td hi with ⟨hu, hop⟩ | hc
    · exact .inl ⟨hu, more hop⟩
    · exact .inr hc
  · rcases h.closings with hos | ⟨t, td', links, ht, hb, hos⟩
    · rw [hos] at hi
      cases hi
    · rw [hos, List.mem_singleton] at hi
      cases hi
      rcases hb.cause with ⟨hu, hr⟩ | hc
      · exact .inl ⟨hu, more (hm.2.asked t.id _ ((roles_of ht).trans (congrArg some hr)))⟩
      · exact .inr hc

theorem composed_invariant : Invariant (fun tr _ => Composed tr) where
  initial _ _ := Untold.composed (fun c => by simp)
  keep _ _ _ _ h hc := hc.append h.composed
  quiet _ _ _ _ h := h

end GameLink.Client
