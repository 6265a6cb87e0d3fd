import GameLink.Proofs.Client.Invariant

/-! # Views of the tasks

An invariant mostly speaks of one thing that the tasks do: serve a link, tear it
down, hold one that is not installed, wait for a reply. Such a view gives each
id what can be read off the role and the position of its task. A change alters
a view at one id or not at all.
-/
namespace GameLink.Client

open Function (update)

/-- What can be read off the role and the position of the task with an id. -/
def view {α : Type} (f : Role → Position → Option α) (ts : List Task) (i : TaskId) : Option α :=
  (findTask ts i).bind (fun t => f t.role t.position)

section
variable {α : Type} {f : Role → Position → Option α} {ts : List Task} {t : Task} {i : TaskId}
  {p : Position}

theorem view_eq_some {a : α} :
    view f ts i = some a ↔ ∃ t, findTask ts i = some t ∧ f t.role t.position = some a :=
  Option.bind_eq_some_iff

theorem view_of (ht : findTask ts t.id = some t) : view f ts t.id = f t.role t.position := by
  rw [view, ht]
  rfl

theorem view_told (id : TaskId) :
    view f (ts.map (fun t => if t.id = id then { t with aborted := true } else t)) = view f ts := by
  funext i
  rw [view, view, findTask_map (fun t => by split <;> rfl)]
  cases findTask ts i with
  | none => rfl
  | some t =>
    by_cases h : t.id = id
    · simp [h]
    · simp [h]

theorem view_placed (ht : findTask ts t.id = some t) :
    view f (placed t.id p ts) = update (view f ts) t.id (f t.role p) := by
  funext i
  rw [view, findTask_placed]
  by_cases hi : i = t.id
  · rw [if_pos hi, hi, ht, Function.update_self]
    rfl
  · rw [if_neg hi, Function.update_of_ne hi]
    rfl

theorem view_without (id : TaskId) : view f (without id ts) = update (view f ts) id none := by
  funext i
  rw [view, findTask_without]
  by_cases hi : i = id
  · rw [if_pos hi, hi, Function.update_self]
    rfl
  · rw [if_neg hi, Function.update_of_ne hi]
    rfl

theorem view_append (ht : findTask ts t.id = none) :
    view f (ts ++ [t]) = update (view f ts) t.id (f t.role t.position) := by
  funext i
  rw [view, findTask_append]
  by_cases hi : i = t.id
  · rw [hi, ht, if_pos rfl, Function.update_self]
    rfl
  · rw [if_neg (Ne.symm hi), Option.or_none, Function.update_of_ne hi]
    rfl

theorem view_placed_same (ht : findTask ts t.id = some t) (h : f t.role p = f t.role t.position) :
    view f (placed t.id p ts) = view f ts := by
  rw [view_placed ht, h, ← view_of (f := f) ht, Function.update_eq_self]

theorem view_placed_none (ht : findTask ts t.id = some t) (hp : f t.role t.position = none)
    (hq : f t.role p = none) : view f (placed t.id p ts) = view f ts :=
  view_placed_same ht (hq.trans hp.symm)

theorem view_without_same (ht : findTask ts t.id = some t) (h : f t.role t.position = none) :
    view f (without t.id ts) = view f ts := by
  rw [view_without, ← h, ← view_of (f := f) ht, Function.update_eq_self]

theorem view_append_same (h : f t.role t.position = none) : view f (ts ++ [t]) = view f ts := by
  funext i
  rw [view, findTask_append]
  cases hi : findTask ts i with
  | some u =>
    rw [view, hi]
    rfl
  | none =>
    rw [view, hi, Option.none_or]
    split
    · exact h
    · rfl

end

/-! ## What an altered view shows -/

theorem of_update_none {α : Type} {f : TaskId → Option α} {i k : TaskId} {a : α}
    (h : update f i none k = some a) : k ≠ i ∧ f k = some a := by
  by_cases hk : k = i
  · rw [hk, Function.update_self] at h
    cases h
  · exact ⟨hk, (Function.update_of_ne hk _ _).symm.trans h⟩

theorem of_update_some {α : Type} {f : TaskId → Option α} {i k : TaskId} {a b : α}
    (h : update f i (some b) k = some a) : (k = i ∧ a = b) ∨ (k ≠ i ∧ f k = some a) := by
  by_cases hk : k = i
  · rw [hk, Function.update_self] at h
    exact .inl ⟨hk, (Option.some.inj h).symm⟩
  · exact .inr ⟨hk, (Function.update_of_ne hk _ _).symm.trans h⟩

theorem of_update_other {α : Type} {f : TaskId → Option α} {i k : TaskId} {a b : α}
    (h : update f i (some b) k = some a) (hab : a ≠ b) : f k = some a :=
  ((of_update_some h).resolve_left fun he => hab he.2).2

namespace Machine

def view {α : Type} (f : Role → Position → Option α) (m : Machine) : TaskId → Option α :=
  Client.view f m.tasks

end Machine

section
variable {α : Type} {f : Role → Position → Option α} {m : Machine} {t : Task}

theorem Fit.absent (hm : Fit m) {k : TaskId} (hk : m.nextTask ≤ k) : findTask m.tasks k = none := by
  cases hf : findTask m.tasks k with
  | none => rfl
  | some u => exact absurd (hm.fresh k u hf) (Nat.not_lt.mpr hk)

theorem Fit.view_absent (hm : Fit m) {k : TaskId} (hk : m.nextTask ≤ k) : m.view f k = none := by
  rw [Machine.view, view, hm.absent hk]
  rfl

/-- The two tasks of a new link come, and the one that installed it goes, out of sight of `f`. -/
theorem view_installed_same (ht : m.task? t.id = some t) (hf : f t.role t.position = none)
    (g : Generation) (link : LinkId) (hr : f (.reader g link) .start = none)
    (hh : f (.heartbeat g) .start = none) :
    view f (without t.id (m.tasks ++ [⟨m.nextTask, .reader g link, .start, false⟩] ++
        [⟨m.nextTask + 1, .heartbeat g, .start, false⟩])) = m.view f := by
  rw [view_without, view_append_same hh, view_append_same hr, ← view_without]
  exact view_without_same ht hf

theorem Fit.view_joined (hm : Fit m) (r r' : Role) :
    view f (m.tasks ++ [⟨m.nextTask, r, .start, false⟩] ++ [⟨m.nextTask + 1, r', .start, false⟩]) =
      update (update (m.view f) m.nextTask (f r .start)) (m.nextTask + 1) (f r' .start) := by
  have hj : findTask (m.tasks ++ [⟨m.nextTask, r, .start, false⟩]) (m.nextTask + 1) = none := by
    rw [findTask_append, hm.absent (Nat.le_succ _), if_neg (Nat.ne_of_lt (Nat.lt_succ_self _))]
    rfl
  rw [view_append hj, view_append (hm.absent (Nat.le_refl _))]
  rfl

/-- The two tasks of a new link come into sight. -/
theorem Fit.view_installed (hm : Fit m) (ht : m.task? t.id = some t)
    (hf : f t.role t.position = none) (r r' : Role) :
    view f (without t.id (m.tasks ++ [⟨m.nextTask, r, .start, false⟩] ++
        [⟨m.nextTask + 1, r', .start, false⟩])) =
      update (update (m.view f) m.nextTask (f r .start)) (m.nextTask + 1) (f r' .start) := by
  have hu : findTask (m.tasks ++ [⟨m.nextTask, r, .start, false⟩] ++
      [⟨m.nextTask + 1, r', .start, false⟩]) t.id = some t :=
    findTask_append_of_some (findTask_append_of_some ht)
  rw [view_without_same hu hf, hm.view_joined]

end

/-! ## Views that see nothing of a link -/

/-- A task that stands here holds no link and tears none down. -/
def Position.plain : Position → Bool
  | .start | .reading | .ticking _ | .exchanging _ _ | .probing _ _ _ => true
  | _ => false

section
variable {α : Type} {f : Role → Position → Option α} {m n : Machine} {t : Task}
  {os : List Observation}

theorem Host.plain_position (host : Host) (x : Exchange) (stage : ExchangeStage) :
    (host.position x stage).plain = true := by
  cases host <;> rfl

theorem Host.Ready.plain {host : Host} (h : host.Ready m t) : t.position.plain = true := by
  cases host with
  | operation op =>
    rw [h.2.1]
    rfl
  | heartbeat g k =>
    obtain ⟨_, _, hp, _⟩ := h
    rw [hp]
    rfl

theorem Begins.plain {td : Teardown} {links : List Link} (h : Begins m t td links) :
    t.position.plain = true := by
  cases h with
  | close n hr hp => rw [hp]; rfl
  | remote g link l l' hr hp => rw [hp]; rfl
  | failed g link l l' f hr hp => rw [hp]; rfl
  | silent g k hr hp => rw [hp]; rfl

/-- An exchange moves nothing but what is plain. -/
theorem Exchanging.view_same (hf : ∀ r p, p.plain = true → f r p = none)
    (ht : m.task? t.id = some t) (h : Exchanging m t os n) : n.view f = m.view f := by
  have moved : ∀ {p : Position}, t.position.plain = true → p.plain = true →
      view f (placed t.id p m.tasks) = m.view f :=
    fun hp hq => view_placed_none ht (hf _ _ hp) (hf _ _ hq)
  have gone : t.position.plain = true → view f (without t.id m.tasks) = m.view f :=
    fun hp => view_without_same ht (hf _ _ hp)
  have released : ∀ {host : Host}, t.position.plain = true →
      view f (host.released t.id m.tasks) = m.view f := by
    intro host hp
    cases host with
    | operation op => exact gone hp
    | heartbeat g k => exact moved hp rfl
  cases h with
  | sending op message hr hp hq hs => exact moved (by rw [hp]; rfl) rfl
  | requesting host x hh hx hs => exact moved hh.plain (host.plain_position _ _)
  | refused host hh hs => exact released hh.plain
  | stalled host x l link hr hv hp hl hw hk hf =>
    exact moved (hp ▸ host.plain_position _ _) (host.plain_position _ _)
  | written host x l link link' hr hv hp hl hw hk hf =>
    exact moved (hp ▸ host.plain_position _ _) (host.plain_position _ _)
  | sent op x hr hp hx => exact gone (by rw [hp]; rfl)
  | notSent op x stage f hr hp hx hn => exact gone (by rw [hp]; rfl)
  | unsent host x stage k f hr hv hp hx hn => exact released (hp ▸ host.plain_position _ _)
  | replied host x k outcome hr hv hp hx hw => exact released (hp ▸ host.plain_position _ _)
  | givenUp host x stage hr hp hv => exact gone (hp ▸ host.plain_position _ _)

theorem Background.view_same (hf : ∀ r p, p.plain = true → f r p = none)
    (ht : m.task? t.id = some t) (h : Background m t os n) : n.view f = m.view f := by
  have moved : ∀ {p : Position}, t.position.plain = true → p.plain = true →
      view f (placed t.id p m.tasks) = m.view f :=
    fun hp hq => view_placed_none ht (hf _ _ hp) (hf _ _ hq)
  cases h with
  | readerStarted g link hr hp => exact moved (by rw [hp]; rfl) rfl
  | heartbeatStarted g hr hp => exact moved (by rw [hp]; rfl) rfl
  | dispatched g link l l' frame hr hp hc hl hf => rfl
  | readerLeft g link hr hp ho => exact view_without_same ht (hf _ _ (by rw [hp]; rfl))
  | heartbeatLeft g k hr hp ho => exact view_without_same ht (hf _ _ (by rw [hp]; rfl))

theorem Outside.view_same (hf : ∀ r, f r .start = none) (h : Outside m os n) :
    n.view f = m.view f := by
  cases h with
  | started op policy h => exact view_append_same (hf _)
  | aborted id h => exact view_told id
  | _ => rfl

end

end GameLink.Client
