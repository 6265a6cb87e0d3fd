import GameLink.Proofs.Client.Writable

/-! # The opening of a link

In the move in which a link opens, its two background tasks come and have done
nothing yet, and nobody else waits at the writer (`Reachable.onset`).
-/
namespace GameLink.Client

section
variable {m n : Machine} {os : List Observation} {i j : TaskId} {g : Generation} {l : LinkId}

/-- Whoever does something is there. -/
theorem Change.actor (h : Change m os n) {o : Observation} (ho : o ∈ os) (hj : o.actor? = some j) :
    ∃ t, m.task? j = some t := by
  cases h with
  | outside h => cases (h.still.actor o ho).symm.trans hj
  | released h => cases ((Stir.released h).still.actor o ho).symm.trans hj
  | connecting ht h => exact ⟨_, (h.apart rfl).actor o ho j hj ▸ ht⟩
  | exchanging ht h => exact ⟨_, (h.apart rfl).actor o ho j hj ▸ ht⟩
  | background ht h => exact ⟨_, (h.apart rfl).actor o ho j hj ▸ ht⟩
  | tearing ht h => exact ⟨_, (h.apart rfl).actor o ho j hj ▸ ht⟩
  | leaving ht h => exact ⟨_, (h.apart rfl).actor o ho j hj ▸ ht⟩

/-- Nobody does anything before it has an id. -/
theorem actors_invariant : Invariant (fun tr m =>
    Fit m ∧ ∀ o ∈ tr, ∀ j, o.actor? = some j → j < m.nextTask) := by
  refine fit_invariant.and (fun _ _ _ h => nomatch h) ?_ (fun _ _ _ _ h => h)
  intro m os n tr h hf hm o ho j hj
  have next_le := (h.regroup hf).next_le
  rcases List.mem_append.mp ho with ho | ho
  · exact Nat.lt_of_lt_of_le (hm o ho j hj) next_le
  · obtain ⟨t, ht⟩ := h.actor ho hj
    exact Nat.lt_of_lt_of_le (hf.fresh j t ht) next_le

/-- Task `t` installs its link, and the two background tasks of the link come. -/
structure Installs (m : Machine) (t : Task) (g : Generation) (l : LinkId) (n : Machine) : Prop where
  task : m.task? t.id = some t
  position : t.position = .installing g l
  lock : m.holdsLock t.id = true
  generation : m.generation = g
  connecting : m.state = .connecting
  «open» : n.state = .open
  current : n.generation = g
  stored : n.cancel = some g
  tasks : n.tasks = without t.id (m.tasks ++ [⟨m.nextTask, .reader g l, .start, false⟩] ++
    [⟨m.nextTask + 1, .heartbeat g, .start, false⟩])
  next : n.nextTask = m.nextTask + 2

/-- A link opens where a task installs it. -/
theorem Deed.opens (h : Deed i m os n) (ho : .opened g l ∈ os) :
    ∃ t, t.id = i ∧ Installs m t g l n := by
  have farewell : ∀ (host : Host) (id : TaskId) (outcome : Except Failure Answer),
      .opened g l ∉ host.farewell id outcome := by
    intro host id outcome
    cases host <;> simp [Host.farewell]
  cases h with
  | nothing => cases ho
  | hires op policy h => simp at ho
  | released h => cases h <;> cases ho
  | connecting hi ht h =>
    cases h with
    | installed op g' link hr hp hl hg hs =>
      simp only [List.mem_cons, Observation.opened.injEq, reduceCtorEq, List.not_mem_nil, or_false]
        at ho
      obtain ⟨rfl, rfl⟩ := ho
      exact ⟨_, hi, ht, hp, hl, hg, hs, rfl, hg, rfl, rfl, rfl⟩
    | _ => simp at ho
  | exchanging hi ht h =>
    cases h with
    | refused host hh hs => simp [farewell] at ho
    | unsent host x stage k f hr hv hp hx hn => simp [farewell] at ho
    | replied host x k outcome hr hv hp hx hw => simp [farewell] at ho
    | _ => simp at ho
  | background hi ht h =>
    cases h with
    | dispatched g link l l' frame hr hp hc hl hf =>
      unfold heard at ho
      split at ho <;> simp at ho
    | _ => cases ho
  | tearing hi ht h =>
    cases h with
    | begun td links hb hg hs => split at ho <;> simp at ho
    | taken td link hp hl hw => cases ho
    | ended td stage links queue hf hp hv =>
      split at ho <;> split at ho <;> split at ho <;> simp at ho
  | leaving hi ht h => cases h <;> simp at ho

end

/-! ## The opening move -/

/-- The client right after the move in which the link `l` of generation `g` has opened. -/
structure Onset (g : Generation) (l : LinkId) (i : TaskId) (m : Machine) : Prop where
  reached : m.Reachable (fun _ => True)
  opened : .opened g l ∈ m.trace
  state : m.state = .open
  generation : m.generation = g
  fluent : Fluent m
  starts : ∃ t, m.task? i = some t ∧ t.role = .heartbeat g ∧ t.position = .start
  /-- The heartbeat has done nothing yet. -/
  unheard : ∀ r ∈ observed m.history, r.what.actor? ≠ some i

/-- A link of generation `g` has just been opened by task `i`, when the next task was `next`. -/
structure Opening (next : TaskId) (i : TaskId) (g : Generation) (m : Machine) : Prop where
  state : m.state = .open
  generation : m.generation = g
  fluent : Fluent m
  gone : m.task? i = none
  known : i < m.nextTask
  served : ∃ j, m.role? j = some (.heartbeat g)
  heartbeats : ∀ j u, m.task? j = some u → u.role = .heartbeat g → next ≤ j ∧ u.position = .start

section
variable {m n : Machine} {os tr : List Observation} {i next : TaskId} {g : Generation} {l : LinkId}

/-- Whoever has opened the link is gone, and only the policy may still start an operation. -/
theorem Opening.keep (hm : Opening next i g m) (h : Deed i m os n) : Opening next i g n := by
  have gone : ∀ {t : Task}, t.id = i → m.task? t.id ≠ some t := by
    rintro t rfl ht
    cases hm.gone.symm.trans ht
  cases h with
  | nothing => exact hm
  | hires op policy h =>
    have there : ∀ j, findTask (m.tasks ++ [⟨m.nextTask, .operation op, .start, false⟩]) j =
        (m.task? j).or (if m.nextTask = j then some ⟨m.nextTask, .operation op, .start, false⟩
          else none) := fun j => findTask_append
    refine ⟨hm.state, hm.generation, ?_, ?_, Nat.lt_succ_of_lt hm.known, ?_, ?_⟩
    · intro j deadline hj
      have same : view holds (m.tasks ++ [⟨m.nextTask, .operation op, .start, false⟩]) =
          view holds m.tasks := view_append_same rfl
      exact hm.fluent j deadline ((congrFun same j).symm.trans hj)
    · refine (there i).trans ?_
      rw [hm.gone, if_neg (Nat.ne_of_gt hm.known)]
      rfl
    · obtain ⟨j, hj⟩ := hm.served
      obtain ⟨u, hu, hr⟩ := Option.map_eq_some_iff.mp hj
      exact ⟨j, Option.map_eq_some_iff.mpr ⟨u, (there j).trans (by rw [hu]; rfl), hr⟩⟩
    · intro j u hu hr
      rcases Option.or_eq_some_iff.mp ((there j).symm.trans hu) with hu | ⟨_, hu⟩
      · exact hm.heartbeats j u hu hr
      · split at hu
        · cases hu
          cases hr
        · cases hu
  | released h =>
    cases h <;>
      exact ⟨hm.state, hm.generation, hm.fluent, hm.gone, hm.known, hm.served, hm.heartbeats⟩
  | connecting hi ht h => exact absurd ht (gone hi)
  | exchanging hi ht h => exact absurd ht (gone hi)
  | background hi ht h => exact absurd ht (gone hi)
  | tearing hi ht h => exact absurd ht (gone hi)
  | leaving hi ht h => exact absurd ht (gone hi)

/-- Whoever comes with the link, or was there before it. -/
theorem Installs.origin {t u : Task} (h : Installs m t g l n) (hu : n.task? j = some u) :
    m.task? j = some u ∨ (∃ g l, u.role = .reader g l) ∨
      j = m.nextTask + 1 ∧ u.position = .start := by
  have hu : findTask n.tasks j = some u := hu
  rw [h.tasks] at hu
  rcases of_findTask_append (of_findTask_without hu) with hu | ⟨hj, rfl⟩
  · rcases of_findTask_append hu with hu | ⟨_, rfl⟩
    · exact .inl hu
    · exact .inr (.inl ⟨g, l, rfl⟩)
  · exact .inr (.inr ⟨hj.symm, rfl⟩)

theorem Opening.of_opened (hf : Fit m) (hs : (m.life tr).Sound) (hw : m.watch.Kept)
    (hn : next ≤ m.nextTask) (h : Deed i m os n) (ho : .opened g l ∈ os) :
    Opening next i g n := by
  obtain ⟨t, rfl, ins⟩ := h.opens ho
  have known := hf.fresh _ t ins.task
  -- whoever holds the writer is at the head of the queue, and that is the task that installs
  have fluent : Fluent m := by
    intro j deadline hj
    obtain rfl : j = t.id := by
      have head := (hw.first j deadline hj).1
      exact Option.some.inj (head.symm.trans (beq_iff_eq.mp ins.lock))
    have hold : holds t.role t.position = some (.write deadline) := (view_of ins.task).symm.trans hj
    rw [ins.position] at hold
    cases hold
  -- no heartbeat serves a generation that has no link yet
  have unserved : ∀ j u, m.task? j = some u → u.role ≠ .heartbeat g := by
    intro j u hu hrole
    obtain ⟨link, hlink, _⟩ := hs.service.serving j g none
      (view_eq_some.mpr ⟨u, hu, by rw [hrole]; rfl⟩)
    have earlier : g < m.generation := (hs.tokens.past _ _ hlink).2 ins.connecting
    exact Nat.ne_of_lt earlier ins.generation.symm
  refine ⟨ins.open, ins.current, ?_, ?_, ins.next ▸ Nat.lt_add_right 2 known, ?_, ?_⟩
  · intro j deadline hj
    have hj : view holds n.tasks j = some (.write deadline) := hj
    rw [ins.tasks, view_installed_same ins.task (by rw [ins.position]; rfl) _ _ rfl rfl] at hj
    exact fluent j deadline hj
  · show findTask n.tasks t.id = none
    rw [ins.tasks, findTask_without, if_pos rfl]
  · have step : Life.Step (m.life tr) (n.life (tr ++ os)) := h.change.life hf
    obtain ⟨_, j, _, _, hj⟩ := (hs.keep step).service.alive g ins.stored
    obtain ⟨_, role⟩ | ⟨_, hnone, _⟩ := Machine.role_of_serves hj
    · exact ⟨j, role⟩
    · cases hnone
  · intro j u hu hrole
    rcases ins.origin hu with hu | ⟨_, _, hreader⟩ | ⟨rfl, hstart⟩
    · exact absurd hrole (unserved j u hu)
    · cases hreader.symm.trans hrole
    · exact ⟨Nat.le_succ_of_le hn, hstart⟩

end

namespace Machine

variable {may : Move → Prop} {p : Machine} {v : Move} {g : Generation} {l : LinkId}

theorem Reachable.onset (hp : p.Reachable may) (h : p.allows v = true)
    (hnew : .opened g l ∉ p.trace) (ho : .opened g l ∈ (p.after v).trace) :
    (∃ i, (p.after v).role? i = some (.heartbeat g)) ∧
      ∀ i, (p.after v).role? i = some (.heartbeat g) → Onset g l i (p.after v) := by
  have base := Life.sound_invariant.both watch_invariant
  cases v with
  | act a =>
    -- no link opens unless a task takes a step
    exfalso
    refine (course_act h).invariant (I := fun tr _ => .opened g l ∉ tr) hnew ?_
      (fun _ _ _ _ h => h) ho
    intro m os n tr hc hm hmem
    rcases List.mem_append.mp hmem with hmem | hmem
    · exact hm hmem
    · cases hc with
      | outside hc => cases hc <;> simp at hmem
      | released hc => cases hc <;> cases hmem
  | work w =>
    obtain ⟨i, course⟩ := exists_course_run hp.fit h
    have opening : Opening p.nextTask i g (p.run w) := by
      refine (course.invariant
        (I := fun tr b => ((Fit b ∧ (b.life tr).Sound) ∧ ((Fit b ∧ (b.line tr).Ranked ∧
          (b.line tr).Voiced) ∧ b.watch.Kept ∧ (b.line tr).Listed)) ∧ p.nextTask ≤ b.nextTask ∧
            (.opened g l ∈ tr → Opening p.nextTask i g b))
        ⟨base.reached hp, Nat.le_refl _, fun h => absurd h hnew⟩ ?_ ?_).2.2 ho
      · intro m os n tr hc ⟨hj, hle, hm⟩
        refine ⟨base.keep m os n tr hc.change hj,
          Nat.le_trans hle (hc.change.regroup hj.1.1).next_le, fun hmem => ?_⟩
        rcases List.mem_append.mp hmem with hmem | hmem
        · exact (hm hmem).keep hc
        · exact .of_opened hj.1.1 hj.1.2 hj.2.2.1 hle hc hmem
      · intro tr b handler history ⟨hj, hle, hm⟩
        refine ⟨base.quiet tr b handler history hj, hle, fun hmem => ?_⟩
        obtain ⟨state, generation, fluent, gone, known, served, heartbeats⟩ := hm hmem
        exact ⟨state, generation, fluent, gone, known, served, heartbeats⟩
    refine ⟨opening.served, fun j hserves => ?_⟩
    obtain ⟨u, hu, hr⟩ := Option.map_eq_some_iff.mp hserves
    obtain ⟨hj, hstart⟩ := opening.heartbeats j u hu hr
    refine ⟨hp.any.step h trivial, ho, opening.state, opening.generation, opening.fluent,
      ⟨u, hu, hr, hstart⟩, fun r hr hactor => ?_⟩
    obtain ⟨os, hapart, hseen⟩ := course.untouched
    have hr : r ∈ observed (p.run w).history := hr
    rw [hseen] at hr
    rcases List.mem_append.mp hr with hr | hr
    · have known := (actors_invariant.reached hp).2 r.what (List.mem_map_of_mem hr) j hactor
      exact Nat.lt_irrefl _ (Nat.lt_of_lt_of_le known hj)
    · obtain ⟨o, ho, rfl⟩ := List.mem_map.mp hr
      obtain rfl := hapart.actor o ho j hactor
      cases opening.gone.symm.trans hu

end Machine

end GameLink.Client
