import GameLink.Client.Run

/-! # What has been observed

The history of a machine without its log entries, oldest first, and the tasks of
a machine by their ids. Logging and the delivery of events change nothing else
about a machine (`Shows`).
-/
namespace GameLink.Client

def Observation.isLog : Observation → Bool
  | .log _ => true
  | _ => false

/-- A history without log entries, oldest first. -/
def observed (history : List Record) : List Record :=
  (history.filter (fun r => !r.what.isLog)).reverse

@[simp] theorem observed_cons (r : Record) (h : List Record) :
    observed (r :: h) = observed h ++ (if r.what.isLog then [] else [r]) := by
  cases hr : r.what.isLog <;> simp [observed, hr]

attribute [simp] Observation.isLog

/-- What is picked out of a history from one observation only. -/
theorem mem_picked {α β : Type} {f : β → Option α} {tr : List β} {o : β} {a : α}
    (h : ∀ o', f o' = some a ↔ o' = o) : a ∈ tr.filterMap f ↔ o ∈ tr := by
  rw [List.mem_filterMap]
  constructor
  · rintro ⟨o', hm, ho⟩
    exact (h o').mp ho ▸ hm
  · intro hm
    exact ⟨o, hm, (h o).mpr rfl⟩

/-! ## Tasks by id -/

def findTask (ts : List Task) (id : TaskId) : Option Task := ts.find? (fun t => t.id == id)

/-- The tasks with one of them at another position. -/
def placed (id : TaskId) (p : Position) (ts : List Task) : List Task :=
  ts.map (fun t => if t.id = id then { t with position := p } else t)

def without (id : TaskId) (ts : List Task) : List Task := ts.filter (fun t => t.id != id)

section
variable {ts : List Task} {id i : TaskId} {t u : Task} {p q : Position}

theorem findTask_id (h : findTask ts i = some t) : t.id = i := by
  simpa using List.find?_some h

theorem findTask_map {f : Task → Task} (hf : ∀ t, (f t).id = t.id) :
    findTask (ts.map f) i = (findTask ts i).map f := by
  simp only [findTask, List.find?_map, Function.comp_def, hf]

theorem findTask_placed : findTask (placed id p ts) i =
    if i = id then (findTask ts i).map (fun t => { t with position := p }) else findTask ts i := by
  rw [placed, findTask_map (fun t => by split <;> rfl)]
  cases h : findTask ts i with
  | none => simp
  | some t =>
    have hid : t.id = i := findTask_id h
    by_cases hi : i = id
    · simp [hid, hi]
    · simp [hid, hi]

theorem findTask_without :
    findTask (without id ts) i = if i = id then none else findTask ts i := by
  simp only [findTask, without, List.find?_filter]
  split
  · rename_i hi
    simp [hi]
  · rename_i hi
    congr 1
    funext t
    by_cases ht : t.id = i
    · simp [ht, hi]
    · simp [ht]

theorem findTask_append : findTask (ts ++ [t]) i =
    (findTask ts i).or (if t.id = i then some t else none) := by
  simp only [findTask, List.find?_append, List.find?_singleton, beq_iff_eq]

theorem findTask_append_of_some (h : findTask ts i = some u) :
    findTask (ts ++ [t]) i = some u := by
  rw [findTask_append, h]
  rfl

/-- Whoever is found after someone joined was there before, or is the one who joined. -/
theorem of_findTask_append (h : findTask (ts ++ [t]) i = some u) :
    findTask ts i = some u ∨ t.id = i ∧ u = t := by
  rw [findTask_append] at h
  rcases Option.or_eq_some_iff.mp h with h | ⟨_, h⟩
  · exact .inl h
  · split at h
    · rename_i hi
      exact .inr ⟨hi, (Option.some.inj h).symm⟩
    · cases h

theorem of_findTask_without (h : findTask (without id ts) i = some u) :
    findTask ts i = some u := by
  rw [findTask_without] at h
  split at h
  · cases h
  · exact h

theorem without_placed : without id (placed id p ts) = without id ts := by
  induction ts with
  | nil => rfl
  | cons t ts ih =>
    simp only [without, placed, List.map_cons, List.filter_cons] at ih ⊢
    by_cases h : t.id = id <;> simp [h, ih]

theorem placed_placed : placed id q (placed id p ts) = placed id q ts := by
  simp only [placed, List.map_map]
  congr 1
  funext t
  by_cases h : t.id = id <;> simp [h]

/-- With different ids, the tasks are exactly what can be looked up. -/
theorem findTask_of_mem (hn : (ts.map Task.id).Nodup) (h : t ∈ ts) : findTask ts t.id = some t := by
  induction ts with
  | nil => cases h
  | cons u us ih =>
    obtain ⟨hu, hn⟩ := List.nodup_cons.mp hn
    rcases List.mem_cons.mp h with rfl | hm
    · simp [findTask]
    · have hne : u.id ≠ t.id := fun e => hu (e ▸ List.mem_map_of_mem hm)
      rw [findTask, List.find?_cons_of_neg (by simpa using hne)]
      exact ih hn hm

end

namespace Machine

theorem task?_eq (m : Machine) (i : TaskId) : m.task? i = findTask m.tasks i := rfl

theorem task?_move_self {m : Machine} {t : Task} (ht : m.task? t.id = some t) (p : Position) :
    (m.move t.id p).task? t.id = some { t with position := p } := by
  rw [task?_eq] at ht ⊢
  change findTask (placed t.id p m.tasks) t.id = _
  rw [findTask_placed, if_pos rfl, ht]
  rfl

/-- What has been observed apart from log entries, oldest first. -/
def trace (m : Machine) : List Observation := (observed m.history).map Record.what

/-- `m'` is `n` but for what is logged and handed on, with `os` observed since `m`. -/
structure Shows (m : Machine) (os : List Observation) (n m' : Machine) : Prop where
  same : ∃ handler history, m' = { n with handler := handler, history := history }
  seen : observed m'.history = observed m.history ++ os.map (Record.mk m.now)

theorem Shows.trace_eq {m n m' : Machine} {os : List Observation} (h : Shows m os n m') :
    m'.trace = m.trace ++ os := by
  simp [trace, h.seen, Function.comp_def]

/-! ## Logging and handing on -/

section
variable (m : Machine) (id : TaskId) (l : LinkId) (o : Observation) (e : Log.Entry)

@[simp] theorem record_history : (m.record o).history = ⟨m.now, o⟩ :: m.history := rfl
@[simp] theorem log_history : (m.log e).history = ⟨m.now, .log e⟩ :: m.history := rfl
@[simp] theorem spawn_history (r : Role) : (m.spawn r).history = m.history := rfl
@[simp] theorem joinLock_history : (m.joinLock id).history = m.history := rfl
@[simp] theorem leaveLock_history : (m.leaveLock id).history = m.history := rfl
@[simp] theorem move_history (p : Position) : (m.move id p).history = m.history := rfl
@[simp] theorem updateLink_history (f : Link → Link) : (m.updateLink l f).history = m.history := rfl
@[simp] theorem closeWriter_history : (m.closeWriter l).history = m.history := rfl
@[simp] theorem closeReader_history : (m.closeReader l).history = m.history := rfl

@[simp] theorem record_now : (m.record o).now = m.now := rfl
@[simp] theorem log_now : (m.log e).now = m.now := rfl
@[simp] theorem spawn_now (r : Role) : (m.spawn r).now = m.now := rfl
@[simp] theorem leaveLock_now : (m.leaveLock id).now = m.now := rfl
@[simp] theorem move_now (p : Position) : (m.move id p).now = m.now := rfl
@[simp] theorem updateLink_now (f : Link → Link) : (m.updateLink l f).now = m.now := rfl
@[simp] theorem closeWriter_now : (m.closeWriter l).now = m.now := rfl
@[simp] theorem closeReader_now : (m.closeReader l).now = m.now := rfl

@[simp] theorem record_state : (m.record o).state = m.state := rfl
@[simp] theorem log_state : (m.log e).state = m.state := rfl
@[simp] theorem leaveLock_state : (m.leaveLock id).state = m.state := rfl

@[simp] theorem record_registry : (m.record o).registry = m.registry := rfl
@[simp] theorem log_registry : (m.log e).registry = m.registry := rfl
@[simp] theorem leaveLock_registry : (m.leaveLock id).registry = m.registry := rfl

end

theorem logAll_eq (entries : List Log.Entry) (m : Machine) :
    ∃ h, m.logAll entries = { m with history := h } ∧ observed h = observed m.history := by
  induction entries generalizing m with
  | nil => exact ⟨_, rfl, rfl⟩
  | cons e es ih =>
    obtain ⟨h, heq, ho⟩ := ih (m.log e)
    exact ⟨h, heq, ho.trans (by simp)⟩

theorem emit_eq (e : Event) (m : Machine) :
    ∃ handler h, m.emit e = { m with handler := handler, history := h } ∧
      observed h = observed m.history ++
        [⟨m.now, .shown m.state m.registry.size⟩, ⟨m.now, .event e⟩] := by
  have shown : observed ((m.record (.shown m.state m.registry.size)).record (.event e)).history =
      observed m.history ++ [⟨m.now, .shown m.state m.registry.size⟩, ⟨m.now, .event e⟩] := by
    simp
  unfold emit
  dsimp only
  split
  · exact ⟨_, _, rfl, shown⟩
  · rename_i c _
    obtain ⟨h, heq, ho⟩ := logAll_eq (c.handle e).2
      { (m.record (.shown m.state m.registry.size)).record (.event e) with
        handler := .channel (c.handle e).1 }
    exact ⟨_, h, heq, ho.trans shown⟩

end Machine

end GameLink.Client
