import GameLink.Proofs.Client.Lifecycle

/-! # Operations that were started and finished

Every task with the role of an operation was started with it, and a task that has
finished is gone for good, so that nothing finishes twice (`Errands`).
-/
namespace GameLink.Client

open Function (update)

def Observation.errand : Observation → Option (TaskId × Operation)
  | .started i op => some (i, op)
  | _ => none

/-- The operations that were started. -/
def errands (tr : List Observation) : List (TaskId × Operation) := tr.filterMap Observation.errand

@[simp] theorem errands_append (a b : List Observation) :
    errands (a ++ b) = errands a ++ errands b := List.filterMap_append

def Observation.result : Observation → Option (TaskId × Result)
  | .finished i r => some (i, r)
  | _ => none

/-- How operations finished. -/
def results (tr : List Observation) : List (TaskId × Result) := tr.filterMap Observation.result

@[simp] theorem results_append (a b : List Observation) :
    results (a ++ b) = results a ++ results b := List.filterMap_append

theorem mem_errands {tr : List Observation} {i : TaskId} {op : Operation} :
    (i, op) ∈ errands tr ↔ .started i op ∈ tr :=
  mem_picked fun o => by cases o <;> simp [Observation.errand]

theorem mem_results {tr : List Observation} {i : TaskId} {r : Result} :
    (i, r) ∈ results tr ↔ .finished i r ∈ tr :=
  mem_picked fun o => by cases o <;> simp [Observation.result]

def roles : Role → Position → Option Role := fun r _ => some r

/-! ## What a change does about operations -/

inductive Errand (m : Machine) : List Observation → Machine → Prop
  | same {os n} (hv : n.view roles = m.view roles) (he : errands os = []) (hr : results os = []) :
      Errand m os n
  | asked {os n} (op : Operation)
      (hv : n.view roles = update (m.view roles) m.nextTask (some (.operation op)))
      (hn : m.nextTask < n.nextTask) (he : errands os = [(m.nextTask, op)]) (hr : results os = []) :
      Errand m os n
  | installed {os n} (i : TaskId) (op : Operation) (g : Generation) (link : LinkId)
      (hi : m.view roles i = some (.operation op))
      (hv : n.view roles = update (update (update (m.view roles) m.nextTask (some (.reader g link)))
        (m.nextTask + 1) (some (.heartbeat g))) i none)
      (he : errands os = []) (hr : results os = [(i, .ok .nothing)]) : Errand m os n
  | finished {os n} (i : TaskId) (op : Operation) (r : Result)
      (hi : m.view roles i = some (.operation op))
      (hv : n.view roles = update (m.view roles) i none)
      (he : errands os = []) (hr : results os = [(i, r)]) : Errand m os n
  | left {os n} (i : TaskId) (hv : n.view roles = update (m.view roles) i none)
      (he : errands os = []) (hr : results os = []) : Errand m os n

section
variable {m n : Machine} {t : Task} {os : List Observation}

theorem roles_placed (ht : m.task? t.id = some t) (p : Position) :
    view roles (placed t.id p m.tasks) = m.view roles := view_placed_same ht rfl

theorem roles_of (ht : m.task? t.id = some t) : m.view roles t.id = some t.role := view_of ht

theorem Outside.errand (hm : Fit m) (h : Outside m os n) : Errand m os n := by
  cases h with
  | started op policy h =>
    have hv := view_append (f := roles) (t := ⟨m.nextTask, .operation op, .start, false⟩)
      (hm.absent (Nat.le_refl _))
    exact .asked op hv (Nat.lt_succ_self _) rfl rfl
  | aborted id h => exact .same (view_told id) rfl rfl
  | _ => exact .same rfl rfl rfl

theorem Connecting.errand (hm : Fit m) (ht : m.task? t.id = some t) (h : Connecting m t os n) :
    Errand m os n := by
  cases h with
  | begun op url deadline stage hr hp hm hs => exact .same (roles_placed ht _) rfl rfl
  | backedOut n hr hp hs => exact .same rfl rfl rfl
  | hung op g url deadline wake hr hp => exact .same (roles_placed ht _) rfl rfl
  | abandoned g url deadline stage hp hg hs => exact .same rfl rfl rfl
  | dialed op g url deadline stage hr hp => exact .same (roles_placed ht _) rfl rfl
  | installed op g link hr hp hl hg hs =>
    have hi : m.view roles t.id = some (.operation op) := hr ▸ roles_of ht
    refine .installed t.id op g link hi ?_ rfl rfl
    rw [Machine.view, view_without, hm.view_joined]
    rfl
  | outdated op g link hr hp hl hg => exact .same (roles_placed ht _) rfl rfl
  | discarded op link f hr hp =>
    exact .finished t.id op _ (hr ▸ roles_of ht) (view_without _) rfl rfl

theorem Exchanging.errand (ht : m.task? t.id = some t) (h : Exchanging m t os n) :
    Errand m os n := by
  have released : ∀ {host : Host} {outcome : Except Failure Answer} {os n}, t.role = host.role →
      n.tasks = host.released t.id m.tasks → errands os = [] →
      results os = results (host.farewell t.id outcome) → Errand m os n := by
    intro host outcome os n hr hn he ho
    cases host with
    | operation op =>
      have hi : m.view roles t.id = some (.operation op) := (roles_of ht).trans (congrArg some hr)
      refine .finished t.id op _ hi ?_ he ho
      rw [Machine.view, hn]
      exact view_without _
    | heartbeat g k =>
      refine .same ?_ he ho
      rw [Machine.view, hn]
      exact roles_placed ht _
  have silent : ∀ (host : Host) (outcome : Except Failure Answer),
      errands (host.farewell t.id outcome) = [] := by
    intro host outcome
    cases host <;> rfl
  cases h with
  | sending op message hr hp hq hs => exact .same (roles_placed ht _) rfl rfl
  | requesting host x hh hx hs => exact .same (roles_placed ht _) rfl rfl
  | refused host hh hs => exact released hh.role_eq rfl (silent host _) rfl
  | stalled host x l link hr hv hp hl hw hk hf => exact .same (roles_placed ht _) rfl rfl
  | written host x l link link' hr hv hp hl hw hk hf => exact .same (roles_placed ht _) rfl rfl
  | sent op x hr hp hx => exact .finished t.id op _ (hr ▸ roles_of ht) (view_without _) rfl rfl
  | notSent op x stage f hr hp hx hn =>
    exact .finished t.id op _ (hr ▸ roles_of ht) (view_without _) rfl rfl
  | unsent host x stage k f hr hv hp hx hn => exact released hr rfl (silent host _) rfl
  | replied host x k outcome hr hv hp hx hw => exact released hr rfl (silent host _) rfl
  | givenUp host x stage hr hp hv => exact .left t.id (view_without _) rfl rfl

theorem Background.errand (ht : m.task? t.id = some t) (h : Background m t os n) :
    Errand m os n := by
  cases h with
  | readerStarted g link hr hp => exact .same (roles_placed ht _) rfl rfl
  | heartbeatStarted g hr hp => exact .same (roles_placed ht _) rfl rfl
  | dispatched g link l l' frame hr hp hc hl hf =>
    refine .same rfl ?_ ?_
    · unfold heard
      cases eventIn frame <;> rfl
    · unfold heard
      cases eventIn frame <;> rfl
  | readerLeft g link hr hp ho => exact .left t.id (view_without _) rfl rfl
  | heartbeatLeft g k hr hp ho => exact .left t.id (view_without _) rfl rfl

theorem Tearing.errand (ht : m.task? t.id = some t) (h : Tearing m t os n) : Errand m os n := by
  cases h with
  | begun td links hb hg hs =>
    refine .same (roles_placed ht _) ?_ ?_
    · split <;> rfl
    · split <;> rfl
  | taken td link hp hl hw => exact .same (roles_placed ht _) rfl rfl
  | ended td stage links queue hf hp hv =>
    cases hr : t.role with
    | operation op =>
      refine .finished t.id op (.ok .nothing) (hr ▸ roles_of ht) (view_without _) ?_ ?_
      · simp only [Task.isOperation, hr]
        split <;> split <;> rfl
      · simp only [Task.isOperation, hr]
        split <;> split <;> rfl
    | reader g link =>
      refine .left t.id (view_without _) ?_ ?_
      · simp only [Task.isOperation, hr]
        split <;> split <;> rfl
      · simp only [Task.isOperation, hr]
        split <;> split <;> rfl
    | heartbeat g =>
      refine .left t.id (view_without _) ?_ ?_
      · simp only [Task.isOperation, hr]
        split <;> split <;> rfl
      · simp only [Task.isOperation, hr]
        split <;> split <;> rfl

theorem Leaving.errand (ht : m.task? t.id = some t) (h : Leaving m t os n) : Errand m os n := by
  cases h with
  | finished op r hr hp => exact .finished t.id op r (hr ▸ roles_of ht) (view_without _) rfl rfl
  | dropped links queue ha hd => exact .left t.id (view_without _) rfl rfl

theorem Change.errand (hm : Fit m) (h : Change m os n) : Errand m os n := by
  cases h with
  | outside h => exact h.errand hm
  | released h => cases h <;> exact .same rfl rfl rfl
  | connecting ht h => exact h.errand hm ht
  | exchanging ht h => exact h.errand ht
  | background ht h => exact h.errand ht
  | tearing ht h => exact h.errand ht
  | leaving ht h => exact h.errand ht

end

/-! ## The invariant -/

/-- Whoever has the role of an operation was started with it and keeps it, and who has finished is
gone. -/
structure Errands (tr : List Observation) (m : Machine) : Prop where
  asked : ∀ i op, m.view roles i = some (.operation op) → (i, op) ∈ errands tr
  known : ∀ i op, (i, op) ∈ errands tr → i < m.nextTask
  role : ∀ i op r, (i, op) ∈ errands tr → m.view roles i = some r → r = .operation op
  unique : ((errands tr).map Prod.fst).Nodup
  ended : ∀ i r, (i, r) ∈ results tr → i < m.nextTask ∧ m.view roles i = none
  once : ((results tr).map Prod.fst).Nodup

section
variable {m n : Machine} {tr os : List Observation}

theorem nodup_append_one {α : Type} {as : List α} {a : α} (h : as.Nodup) (ha : a ∉ as) :
    (as ++ [a]).Nodup := by
  rw [List.nodup_append]
  refine ⟨h, List.nodup_singleton a, ?_⟩
  intro b hb c hc
  rw [List.mem_singleton.mp hc]
  exact fun h => ha (h ▸ hb)

/-- A task leaves, and is over with a result if it finished. -/
theorem Errands.leave (hm : Errands tr m) {i : TaskId} (hf : Fit m)
    (hnext : m.nextTask ≤ n.nextTask)
    (hv : ∀ k, k < m.nextTask → n.view roles k = update (m.view roles) i none k)
    (hop : ∀ k op, n.view roles k = some (.operation op) → m.view roles k = some (.operation op))
    (he : errands os = [])
    (hr : results os = [] ∨ ∃ role r, m.view roles i = some role ∧ results os = [(i, r)]) :
    Errands (tr ++ os) n := by
  have hlt : ∀ role, m.view roles i = some role → i < m.nextTask := by
    intro role hi
    obtain ⟨t, ht, _⟩ := view_eq_some.mp hi
    exact hf.fresh i t ht
  refine ⟨?_, ?_, ?_, ?_, ?_, ?_⟩
  · intro k op hk
    rw [errands_append, he, List.append_nil]
    exact hm.asked k op (hop k op hk)
  · intro k op hk
    rw [errands_append, he, List.append_nil] at hk
    exact Nat.lt_of_lt_of_le (hm.known k op hk) hnext
  · intro k op r hk hr
    rw [errands_append, he, List.append_nil] at hk
    rw [hv k (hm.known k op hk)] at hr
    exact hm.role k op r hk (of_update_none hr).2
  · rw [errands_append, he, List.append_nil]
    exact hm.unique
  · intro k r hk
    rw [results_append, List.mem_append] at hk
    rcases hk with hk | hk
    · obtain ⟨hlt, hnone⟩ := hm.ended k r hk
      refine ⟨Nat.lt_of_lt_of_le hlt hnext, ?_⟩
      rw [hv k hlt]
      by_cases h : k = i
      · rw [h, Function.update_self]
      · rw [Function.update_of_ne h, hnone]
    · rcases hr with hr | ⟨role, r', hi, hr⟩
      · rw [hr] at hk
        cases hk
      · rw [hr, List.mem_singleton] at hk
        cases hk
        refine ⟨Nat.lt_of_lt_of_le (hlt role hi) hnext, ?_⟩
        rw [hv i (hlt role hi), Function.update_self]
  · rw [results_append, List.map_append]
    rcases hr with hr | ⟨role, r, hi, hr⟩
    · rw [hr, List.map_nil, List.append_nil]
      exact hm.once
    · rw [hr]
      refine nodup_append_one hm.once ?_
      intro h
      obtain ⟨⟨k, r'⟩, hk, hki⟩ := List.mem_map.mp h
      obtain ⟨_, hnone⟩ := hm.ended k r' hk
      rw [show k = i from hki, hi] at hnone
      cases hnone

/-- Nobody comes or goes. -/
theorem Errands.still (hm : Errands tr m) (hnext : m.nextTask ≤ n.nextTask)
    (hv : n.view roles = m.view roles) (he : errands os = []) (hr : results os = []) :
    Errands (tr ++ os) n := by
  refine ⟨?_, ?_, ?_, ?_, ?_, ?_⟩
  · intro i op hi
    rw [errands_append, he, List.append_nil]
    exact hm.asked i op (hv ▸ hi)
  · intro i op hi
    rw [errands_append, he, List.append_nil] at hi
    exact Nat.lt_of_lt_of_le (hm.known i op hi) hnext
  · intro i op r hi hr
    rw [errands_append, he, List.append_nil] at hi
    exact hm.role i op r hi (hv ▸ hr)
  · rw [errands_append, he, List.append_nil]
    exact hm.unique
  · intro i r hi
    rw [results_append, hr, List.append_nil] at hi
    obtain ⟨hlt, hnone⟩ := hm.ended i r hi
    exact ⟨Nat.lt_of_lt_of_le hlt hnext, hv ▸ hnone⟩
  · rw [results_append, hr, List.append_nil]
    exact hm.once

/-- An operation is started. -/
theorem Errands.ask (hm : Errands tr m) {op : Operation} (hn : m.nextTask < n.nextTask)
    (hv : n.view roles = update (m.view roles) m.nextTask (some (.operation op)))
    (he : errands os = [(m.nextTask, op)]) (hr : results os = []) : Errands (tr ++ os) n := by
  refine ⟨?_, ?_, ?_, ?_, ?_, ?_⟩
  · intro i op' hi
    rw [errands_append, he]
    rw [hv] at hi
    rcases of_update_some hi with ⟨rfl, ho⟩ | ⟨_, hi⟩
    · cases ho
      exact List.mem_append_right _ (.head _)
    · exact List.mem_append_left _ (hm.asked i op' hi)
  · intro i op' hi
    rw [errands_append, he, List.mem_append, List.mem_singleton] at hi
    rcases hi with hi | hi
    · exact Nat.lt_trans (hm.known i op' hi) hn
    · cases hi
      exact hn
  · intro i op' r hi hr
    rw [errands_append, he, List.mem_append, List.mem_singleton] at hi
    rw [hv] at hr
    rcases hi with hi | hi
    · rcases of_update_some hr with ⟨rfl, _⟩ | ⟨_, hr⟩
      · exact absurd (hm.known _ op' hi) (Nat.lt_irrefl _)
      · exact hm.role i op' r hi hr
    · cases hi
      rw [Function.update_self] at hr
      exact (Option.some.inj hr).symm
  · rw [errands_append, he, List.map_append]
    refine nodup_append_one hm.unique ?_
    intro h
    obtain ⟨⟨k, op'⟩, hk, hkn⟩ := List.mem_map.mp h
    have hlt := hm.known k op' hk
    rw [show k = m.nextTask from hkn] at hlt
    exact Nat.lt_irrefl _ hlt
  · intro i r hi
    rw [results_append, hr, List.append_nil] at hi
    obtain ⟨hlt, hnone⟩ := hm.ended i r hi
    refine ⟨Nat.lt_trans hlt hn, ?_⟩
    rw [hv, Function.update_of_ne (Nat.ne_of_lt hlt), hnone]
  · rw [results_append, hr, List.append_nil]
    exact hm.once

theorem Errands.keep (hm : Errands tr m) (hf : Fit m) (h : Change m os n) :
    Errands (tr ++ os) n := by
  have hnext := (h.regroup hf).next_le
  cases h.errand hf with
  | same hv he hr => exact hm.still hnext hv he hr
  | asked op hv hn he hr => exact hm.ask hn hv he hr
  | installed i op g link hi hv he hr =>
    refine hm.leave hf hnext ?_ ?_ he (.inr ⟨_, _, hi, hr⟩)
    · intro k hk
      rw [hv]
      by_cases h : k = i
      · rw [h, Function.update_self, Function.update_self]
      · rw [Function.update_of_ne h, Function.update_of_ne h,
          Function.update_of_ne (Nat.ne_of_lt (Nat.lt_succ_of_lt hk)),
          Function.update_of_ne (Nat.ne_of_lt hk)]
    · intro k op' hk
      rw [hv] at hk
      obtain ⟨_, hk⟩ := of_update_none hk
      rcases of_update_some hk with ⟨_, h⟩ | ⟨_, hk⟩
      · cases h
      · rcases of_update_some hk with ⟨_, h⟩ | ⟨_, hk⟩
        · cases h
        · exact hk
  | finished i op r hi hv he hr =>
    refine hm.leave hf hnext (fun k _ => by rw [hv]) ?_ he (.inr ⟨_, _, hi, hr⟩)
    intro k op' hk
    rw [hv] at hk
    exact (of_update_none hk).2
  | left i hv he hr =>
    refine hm.leave hf hnext (fun k _ => by rw [hv]) ?_ he (.inl hr)
    intro k op' hk
    rw [hv] at hk
    exact (of_update_none hk).2

end

theorem errands_invariant : Invariant (fun tr m => Fit m ∧ Errands tr m) := by
  refine fit_invariant.and ?_ (fun m os n tr h hf hm => hm.keep hf h) ?_
  · intro m h
    obtain ⟨_, _, _, _, rfl⟩ := h.fields
    exact ⟨fun _ _ h => (nomatch h), fun _ _ h => (nomatch h), fun _ _ _ h => (nomatch h),
      List.nodup_nil, fun _ _ h => (nomatch h), List.nodup_nil⟩
  · intro tr n handler history h
    exact ⟨h.asked, h.known, h.role, h.unique, h.ended, h.once⟩

end GameLink.Client
