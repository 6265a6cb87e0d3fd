import GameLink.Proofs.Client.Turns

/-! # Time and the queue

Time passes only while no task can go on, and never past a moment at which one
can (`quiet_deadline`). So a dial, a write or a close that does not complete is
given up at its deadline, and whoever queues for the writer waits only for the
writes ahead of it that do not complete. The clock, the queue and those who wait
for time are a machine of their own, and every change of a client is a step of it
(`Change.watch`).
-/
namespace GameLink.Client

open Function (update)

/-- What a task waits for that only time ends for certain. -/
inductive Hold
  | dial (deadline : Nat)
  | write (deadline : Nat)
  | close (deadline : Nat)

def Hold.deadline : Hold → Nat
  | .dial deadline | .write deadline | .close deadline => deadline

def holds (_ : Role) : Position → Option Hold
  | .dialing _ _ deadline _ => some (.dial deadline)
  | .exchanging _ (.stalled deadline) | .probing _ _ (.stalled deadline) => some (.write deadline)
  | .tearing _ (.closing _ deadline) => some (.close deadline)
  | _ => none

structure Watch where
  now : Nat
  /-- How long a write or a close may take. -/
  span : Nat
  queue : List TaskId
  holds : TaskId → Option Hold

def Machine.watch (m : Machine) : Watch where
  now := m.now
  span := m.settings.realtime.sendTimeout.toNat
  queue := m.lockQueue
  holds := m.view Client.holds

/-! ## The machine -/

namespace Watch

inductive Step (c : Watch) : Watch → Prop
  | stay : Step c c
  | passed (ms : Nat) (hd : ∀ i h, c.holds i = some h → c.now + ms ≤ h.deadline)
      (hq : ∀ i, c.queue.head? = some i → ∃ d, c.holds i = some (.write d)) :
      Step c { c with now := c.now + ms }
  | joined (i : TaskId) (hi : i ∉ c.queue) :
      Step c { c with queue := c.queue ++ [i], holds := update c.holds i none }
  | stalled (i : TaskId) (hi : c.queue.head? = some i) (hw : c.holds i = none) :
      Step c { c with holds := update c.holds i (some (.write (c.now + c.span))) }
  | left (i : TaskId) (hold : Option Hold)
      (hh : ∀ h, hold = some h → c.now ≤ h.deadline ∧ ∀ d, h ≠ .write d) :
      Step c { c with queue := c.queue.erase i, holds := update c.holds i hold }

structure Kept (c : Watch) : Prop where
  nodup : c.queue.Nodup
  due : ∀ i h, c.holds i = some h → c.now ≤ h.deadline
  first : ∀ i d, c.holds i = some (.write d) → c.queue.head? = some i ∧ d ≤ c.now + c.span

section
variable {c d : Watch} {i j : TaskId}

theorem head?_erase_of_ne {queue : List TaskId} (hj : queue.head? = some j) (hij : j ≠ i) :
    (queue.erase i).head? = some j := by
  obtain ⟨rest, rfl⟩ := List.head?_eq_some_iff.mp hj
  rw [List.erase_cons_tail (by simpa using hij)]
  rfl

theorem Kept.keep (hc : c.Kept) (h : Step c d) : d.Kept := by
  cases h with
  | stay => exact hc
  | passed ms hd hq =>
    refine ⟨hc.nodup, hd, ?_⟩
    intro i t hi
    obtain ⟨head, ht⟩ := hc.first i t hi
    exact ⟨head, Nat.le_trans ht (by simp only; omega)⟩
  | joined i hi =>
    refine ⟨nodup_append_one hc.nodup hi, fun k h hk => hc.due k h (of_update_none hk).2, ?_⟩
    intro k t hk
    obtain ⟨head, ht⟩ := hc.first k t (of_update_none hk).2
    obtain ⟨rest, hq⟩ := List.head?_eq_some_iff.mp head
    exact ⟨by rw [hq]; rfl, ht⟩
  | stalled i hi hw =>
    refine ⟨hc.nodup, ?_, ?_⟩
    · intro k h hk
      rcases of_update_some hk with ⟨_, rfl⟩ | ⟨_, hk⟩
      · exact Nat.le_add_right _ _
      · exact hc.due k h hk
    · intro k t hk
      rcases of_update_some hk with ⟨rfl, ht⟩ | ⟨_, hk⟩
      · cases ht
        exact ⟨hi, Nat.le_refl _⟩
      · exact hc.first k t hk
  | left i hold hh =>
    have new : ∀ {k h}, update c.holds i hold k = some h → (k = i ∧ hold = some h) ∨
        (k ≠ i ∧ c.holds k = some h) := by
      intro k h hk
      by_cases hki : k = i
      · subst hki
        rw [Function.update_self] at hk
        exact .inl ⟨rfl, hk⟩
      · exact .inr ⟨hki, (Function.update_of_ne hki _ _).symm.trans hk⟩
    refine ⟨hc.nodup.erase i, ?_, ?_⟩
    · intro k h hk
      rcases new hk with ⟨_, hold⟩ | ⟨_, hk⟩
      · exact (hh h hold).1
      · exact hc.due k h hk
    · intro k t hk
      rcases new hk with ⟨_, hold⟩ | ⟨hki, hk⟩
      · exact absurd rfl ((hh _ hold).2 t)
      · obtain ⟨head, ht⟩ := hc.first k t hk
        exact ⟨head?_erase_of_ne head hki, ht⟩

/-! ## How long the queue takes -/

/-- When the head of the queue will be gone at the latest. -/
def relief (c : Watch) : Nat :=
  match c.queue.head?.bind c.holds with
  | some (.write d) => d
  | _ => c.now + c.span

/-- Each of those ahead takes its time, and then the task itself is gone by `limit`. -/
def Due (c : Watch) (i : TaskId) (limit : Nat) : Prop :=
  ∃ ahead behind, c.queue = ahead ++ i :: behind ∧ c.relief + ahead.length * c.span ≤ limit

theorem Kept.relief_bounds (hc : c.Kept) : c.now ≤ c.relief ∧ c.relief ≤ c.now + c.span := by
  unfold relief
  split
  · rename_i t h
    obtain ⟨i, _, hi⟩ := Option.bind_eq_some_iff.mp h
    exact ⟨hc.due i _ hi, (hc.first i t hi).2⟩
  · exact ⟨Nat.le_add_right _ _, Nat.le_refl _⟩

/-- A head whose write has not begun to stall has its whole time before it. -/
theorem relief_of_not_write (h : ∀ i t, c.queue.head? = some i → c.holds i ≠ some (.write t)) :
    c.relief = c.now + c.span := by
  unfold relief
  split
  · rename_i t ht
    obtain ⟨i, hi, hw⟩ := Option.bind_eq_some_iff.mp ht
    exact absurd hw (h i t hi)
  · rfl

theorem relief_of_write {t : Nat} (hi : c.queue.head? = some i) (h : c.holds i = some (.write t)) :
    c.relief = t := by
  rw [relief, hi, Option.bind_some, h]

theorem relief_congr (hi : c.queue.head? = some i) (hi' : d.queue.head? = some i)
    (hh : d.holds i = c.holds i) (hn : d.now = c.now) (hs : d.span = c.span) :
    d.relief = c.relief := by
  rw [relief, relief, hi, hi', Option.bind_some, Option.bind_some, hh, hn, hs]

/-- Whoever comes to the head has its whole time before it, since only the head can stall. -/
theorem Kept.relief_left (hc : c.Kept) (hi : c.queue.head? = some i) (hold : Option Hold) :
    relief { c with queue := c.queue.erase i, holds := update c.holds i hold } =
      c.now + c.span := by
  refine relief_of_not_write fun k t hk hw => ?_
  have hki : k ≠ i := by
    rintro rfl
    exact hc.nodup.not_mem_erase (List.mem_of_mem_head? hk)
  have hw : c.holds k = some (.write t) := (Function.update_of_ne hki _ _).symm.trans hw
  exact hki (Option.some.inj ((hc.first k t hw).1.symm.trans hi))

theorem Kept.due_of_append (hc : c.Kept) {ahead behind : List TaskId}
    (h : c.queue = ahead ++ i :: behind) : c.Due i (c.now + (ahead.length + 1) * c.span) := by
  refine ⟨ahead, behind, h, ?_⟩
  have hr := hc.relief_bounds.2
  rw [Nat.succ_mul]
  omega

section
variable {limit : Nat} (h : c.Due i limit) (hc : c.Kept)
include h hc

theorem Due.now_le : c.now ≤ limit := by
  obtain ⟨ahead, behind, _, hl⟩ := h
  have hr := hc.relief_bounds.1
  omega

/-- Where somebody ahead of a task leaves, there is one less to wait for. -/
theorem Due.leave (hold : Option Hold) (hij : i ≠ j) :
    Due { c with queue := c.queue.erase j, holds := update c.holds j hold } i limit := by
  obtain ⟨ahead, behind, hq, hl⟩ := h
  obtain ⟨behind', he⟩ : ∃ behind', c.queue.erase j = ahead.erase j ++ i :: behind' := by
    rw [hq]
    by_cases hj : j ∈ ahead
    · exact ⟨behind, List.erase_append_left _ hj⟩
    · refine ⟨behind.erase j, ?_⟩
      rw [List.erase_append_right _ hj, List.erase_of_not_mem hj,
        List.erase_cons_tail (by simpa using hij)]
  obtain ⟨k, hk⟩ : ∃ k, c.queue.head? = some k := by
    rw [hq]
    cases ahead <;> exact ⟨_, rfl⟩
  refine ⟨ahead.erase j, behind', he, ?_⟩
  by_cases hkj : k = j
  · subst hkj
    have first : ahead.length = (ahead.erase k).length + 1 := by
      rw [hq] at hk
      cases ahead with
      | nil => exact absurd (Option.some.inj hk) hij
      | cons a ahead =>
        cases hk
        rw [List.erase_cons_head, List.length_cons]
    have hr := hc.relief_bounds.1
    rw [first, Nat.succ_mul] at hl
    rw [hc.relief_left hk]
    simp only
    omega
  · have shorter : (ahead.erase j).length * c.span ≤ ahead.length * c.span :=
      Nat.mul_le_mul_right _ List.length_erase_le
    have same : relief { c with queue := c.queue.erase j, holds := update c.holds j hold } =
        c.relief :=
      relief_congr hk (head?_erase_of_ne hk hkj) (Function.update_of_ne hkj _ _) rfl rfl
    rw [same]
    simp only
    omega

/-- Nobody is made to wait longer. -/
theorem Due.keep (hs : Step c d) : i ∉ d.queue ∨ d.Due i limit := by
  have head : ∃ k, c.queue.head? = some k := by
    obtain ⟨ahead, behind, hq, _⟩ := h
    rw [hq]
    cases ahead <;> exact ⟨_, rfl⟩
  obtain ⟨k, hk⟩ := head
  cases hs with
  | stay => exact .inr h
  | passed ms hd hq =>
    obtain ⟨ahead, behind, hc', hl⟩ := h
    obtain ⟨t, ht⟩ := hq k hk
    rw [relief_of_write hk ht] at hl
    refine .inr ⟨ahead, behind, hc', ?_⟩
    rwa [relief_of_write (c := { c with now := c.now + ms }) hk ht]
  | joined j hj =>
    obtain ⟨ahead, behind, hq, hl⟩ := h
    refine .inr ⟨ahead, behind ++ [j], by simp [hq], ?_⟩
    have hk' : (c.queue ++ [j]).head? = some k := by
      obtain ⟨rest, hrest⟩ := List.head?_eq_some_iff.mp hk
      rw [hrest]
      rfl
    have hkj : k ≠ j := ne_of_mem_of_not_mem (List.mem_of_mem_head? hk) hj
    have same : relief { c with queue := c.queue ++ [j], holds := update c.holds j none } =
        c.relief := relief_congr hk hk' (Function.update_of_ne hkj _ _) rfl rfl
    rwa [same]
  | stalled j hj hw =>
    obtain ⟨ahead, behind, hq, hl⟩ := h
    have fresh : c.relief = c.now + c.span := relief_of_not_write fun k t hk ht => by
      rw [Option.some.inj (hk.symm.trans hj), hw] at ht
      cases ht
    have now : relief { c with holds := update c.holds j (some (.write (c.now + c.span))) } =
        c.now + c.span := relief_of_write hj (Function.update_self ..)
    refine .inr ⟨ahead, behind, hq, ?_⟩
    rw [fresh] at hl
    rwa [now]
  | left j hold hh =>
    by_cases hij : i = j
    · subst hij
      exact .inl hc.nodup.not_mem_erase
    · exact .inr (h.leave hc hold hij)

end

end

end Watch

/-! ## When nobody can go on -/

section
variable {m n : Machine} {t : Task} {os tr : List Observation}

theorem exchange_deadline {i : TaskId} {x : Exchange} {stage : ExchangeStage}
    (hr : m.exchangeReady i x stage = false) {d : Nat}
    (hd : d ∈ Machine.exchangeDeadlines x stage) : m.now < d := by
  cases stage with
  | queued => cases hd
  | stalled deadline =>
    obtain rfl := List.mem_singleton.mp hd
    simpa [Machine.exchangeReady] using hr
  | awaiting =>
    cases hx : x.ticket with
    | none => simp [Machine.exchangeDeadlines, hx] at hd
    | some k =>
      simp only [Machine.exchangeDeadlines, hx, List.mem_singleton] at hd
      simp only [Machine.exchangeReady, hx, Option.isSome_eq_false_iff,
        Option.isNone_iff_eq_none] at hr
      subst hd
      unfold Registry.wait at hr
      split at hr
      · cases hr
      · split at hr
        · cases hr
        · omega

/-- A task that cannot go on waits for a moment that is still to come. -/
theorem quiet_deadline (hf : Fits t.role t.position) (hq : m.taskEnabled t = false) {d : Nat}
    (hd : d ∈ Machine.taskDeadlines t) : m.now < d := by
  unfold Machine.taskEnabled at hq
  unfold Machine.taskDeadlines at hd
  rw [Bool.or_eq_false_iff] at hq
  obtain ⟨_, hq⟩ := hq
  generalize t.role = r at hf hq
  generalize t.position = p at hf hq hd
  cases hf with
  | start => cases hd
  | @dialing op g url deadline stage hm =>
    cases stage with
    | hung =>
      obtain rfl := List.mem_singleton.mp hd
      simpa using hq
    | delayed wake failure =>
      simp only [Bool.or_eq_false_iff, decide_eq_false_iff_not, Nat.not_le] at hq
      simp only [List.mem_cons, List.not_mem_nil, or_false] at hd
      rcases hd with rfl | rfl
      · exact hq.1
      · exact hq.2
  | installing => cases hd
  | discarding => cases hd
  | exchanging => exact exchange_deadline hq hd
  | @closing _ _ s | @remote _ _ _ s | @failed _ _ _ _ s | @silent _ _ s =>
    cases s with
    | queued => cases hd
    | closing link deadline =>
      obtain rfl := List.mem_singleton.mp hd
      simpa using hq
  | reading => cases hd
  | ticking =>
    obtain rfl := List.mem_singleton.mp hd
    have hq := (Bool.or_eq_false_iff.mp hq).2
    simpa [Heartbeat.Ticker.isDue] using hq
  | probing => exact exchange_deadline (Bool.or_eq_false_iff.mp hq).2 hd

theorem quiet_task (hq : m.quiet = true) (ht : m.task? t.id = some t) :
    m.taskEnabled t = false := by
  have hw : .task t.id ∈ m.workers := by
    unfold Machine.workers
    exact List.mem_append_left _ (List.mem_map.mpr ⟨t, List.mem_of_find?_eq_some ht, rfl⟩)
  have idle := List.all_eq_true.mp hq _ hw
  simpa [Machine.enabled, ht] using idle

/-- Time does not pass a moment at which a task can go on. -/
theorem mayElapse_le {ms : Nat} (hm : Fit m) (h : m.mayElapse ms = true)
    (ht : m.task? t.id = some t) {d : Nat} (hd : d ∈ Machine.taskDeadlines t) :
    m.now < d ∧ m.now + ms ≤ d := by
  rw [Machine.mayElapse, Bool.and_eq_true] at h
  have later := quiet_deadline (hm.fits _ _ ht) (quiet_task h.1 ht) hd
  have listed : d ∈ m.deadlines := by
    refine List.mem_filter.mpr ⟨List.mem_flatMap.mpr ⟨t, List.mem_of_find?_eq_some ht, hd⟩, ?_⟩
    simpa using later
  exact ⟨later, by simpa using List.all_eq_true.mp h.2 d listed⟩

theorem deadline_of_holds {h : Hold} (hh : holds t.role t.position = some h) :
    h.deadline ∈ Machine.taskDeadlines t := by
  unfold Machine.taskDeadlines
  generalize t.position = p at hh
  unfold holds at hh
  split at hh
  · rename_i g url deadline stage
    cases hh
    cases stage <;> simp [Hold.deadline]
  · cases hh
    exact .head _
  · cases hh
    exact .head _
  · cases hh
    exact .head _
  · cases hh

/-- Whoever holds the lock goes on, unless its write does not complete. -/
theorem quiet_head (hm : Fit m) (hr : (m.line tr).Ranked) (hq : m.quiet = true) {i : TaskId}
    (hi : m.lockQueue.head? = some i) : ∃ d, m.view holds i = some (.write d) := by
  obtain ⟨draft, inLine⟩ := hr.queued i (List.mem_of_mem_head? hi)
  obtain ⟨t, ht, hs⟩ := view_eq_some.mp inLine
  obtain rfl := findTask_id ht
  have hold : m.holdsLock t.id = true := beq_iff_eq.mpr hi
  have fits := hm.fits _ t ht
  have idle := quiet_task hq ht
  rw [Machine.view, view_of ht]
  unfold Machine.taskEnabled at idle
  rw [Bool.or_eq_false_iff] at idle
  obtain ⟨_, idle⟩ := idle
  generalize t.role = r at fits hs idle
  generalize t.position = p at fits hs idle
  have stalls : ∀ {x : Exchange} {stage : ExchangeStage}, some (x.stance stage) =
      some (Stance.line draft) → m.exchangeReady t.id x stage = false →
        ∃ d, stage = .stalled d := by
    intro x stage hs idle
    cases stage with
    | queued => rw [Machine.exchangeReady, hold] at idle; cases idle
    | stalled d => exact ⟨d, rfl⟩
    | awaiting => cases hs
  cases fits with
  | start => unfold stances at hs; dsimp only at hs; split at hs <;> cases hs
  | dialing => cases hs
  | installing => rw [hold] at idle; cases idle
  | discarding => cases hs
  | exchanging =>
    obtain ⟨d, rfl⟩ := stalls hs idle
    exact ⟨d, rfl⟩
  | @closing _ _ s | @remote _ _ _ s | @failed _ _ _ _ s | @silent _ _ s =>
    cases s with
    | queued => dsimp only at idle; rw [hold] at idle; cases idle
    | closing link deadline => cases hs
  | reading => cases hs
  | ticking => cases hs
  | probing =>
    obtain ⟨d, rfl⟩ := stalls hs (Bool.or_eq_false_iff.mp idle).2
    exact ⟨d, rfl⟩

/-! ## Changes are steps -/

def ExchangeStage.hold : ExchangeStage → Option Hold
  | .stalled deadline => some (.write deadline)
  | .queued | .awaiting => none

theorem Host.holds_position (host : Host) (x : Exchange) (stage : ExchangeStage) (r : Role) :
    holds r (host.position x stage) = stage.hold := by
  cases host <;> cases stage <;> rfl

theorem holds_placed (ht : m.task? t.id = some t) (p : Position) :
    view holds (placed t.id p m.tasks) = update (m.view holds) t.id (holds t.role p) :=
  view_placed ht

theorem Host.holds_released (host : Host) (ht : m.task? t.id = some t) :
    view holds (host.released t.id m.tasks) = update (m.view holds) t.id none := by
  cases host with
  | operation op => exact view_without _
  | heartbeat g k => exact holds_placed ht _

theorem Watch.goes {c : Watch} {queue : List TaskId} {hold : TaskId → Option Hold}
    (hn : n.now = c.now) (hs : n.settings.realtime.sendTimeout.toNat = c.span)
    (hq : n.lockQueue = queue) (hv : n.view Client.holds = hold)
    (h : Watch.Step c { c with queue := queue, holds := hold }) : Watch.Step c n.watch := by
  subst hq hv
  rw [Machine.watch, hn, hs]
  exact h

theorem Watch.still (hn : n.now = m.now) (hs : n.settings = m.settings)
    (hq : n.lockQueue = m.lockQueue) (hv : n.view Client.holds = m.view Client.holds) :
    Watch.Step m.watch n.watch :=
  Watch.goes hn (by rw [hs]; rfl) hq hv (.stay (c := m.watch))

theorem Watch.joins (i : TaskId) (hi : i ∉ m.lockQueue) (hn : n.now = m.now)
    (hs : n.settings = m.settings) (hq : n.lockQueue = m.lockQueue ++ [i])
    (hv : n.view Client.holds = update (m.view Client.holds) i none) :
    Watch.Step m.watch n.watch :=
  Watch.goes hn (by rw [hs]; rfl) hq hv (.joined (c := m.watch) i hi)

theorem Watch.leaves (i : TaskId) (hold : Option Hold)
    (hh : ∀ h, hold = some h → m.now ≤ h.deadline ∧ ∀ d, h ≠ .write d) (hn : n.now = m.now)
    (hs : n.settings = m.settings)
    (hq : n.lockQueue = m.lockQueue.erase i ∨ n.lockQueue = m.lockQueue ∧ i ∉ m.lockQueue)
    (hv : n.view Client.holds = update (m.view Client.holds) i hold) :
    Watch.Step m.watch n.watch := by
  have hq : n.lockQueue = m.lockQueue.erase i := by
    rcases hq with hq | ⟨hq, hi⟩
    · exact hq
    · rw [hq, List.erase_of_not_mem hi]
  exact Watch.goes hn (by rw [hs]; rfl) hq hv (.left (c := m.watch) i hold hh)

section
variable (hr : (m.line tr).Ranked) (ht : m.task? t.id = some t)
include hr ht

theorem not_queued (h : ∀ draft, stances t.role t.position ≠ some (.line draft)) :
    t.id ∉ m.lockQueue := hr.not_mem (not_inLine ht h)

theorem Connecting.watch (h : Connecting m t os n) : Watch.Step m.watch n.watch := by
  cases h with
  | begun op url deadline stage hrole hp hm hs hd hw =>
    have apart := not_queued hr ht (by rw [hrole, hp]; exact fun _ h => nomatch h)
    refine Watch.leaves t.id (some (.dial deadline)) ?_ rfl rfl (.inr ⟨rfl, apart⟩)
      (holds_placed ht _)
    intro h hh
    cases hh
    exact ⟨hd ▸ Nat.le_add_right _ _, fun d hw => nomatch hw⟩
  | backedOut n hrole hp hs => exact Watch.still rfl rfl rfl rfl
  | hung op g url deadline wake hrole hp =>
    exact Watch.still rfl rfl rfl (view_placed_same ht (by rw [hp]; rfl))
  | abandoned g url deadline stage hp hg hs => exact Watch.still rfl rfl rfl rfl
  | dialed op g url deadline stage hrole hp =>
    have apart := not_queued hr ht (by rw [hp]; exact fun _ h => nomatch h)
    exact Watch.joins t.id apart rfl rfl rfl (holds_placed ht _)
  | installed op g link hrole hp hl hg hs =>
    refine Watch.leaves t.id none (fun _ h => nomatch h) rfl rfl (.inl rfl) ?_
    rw [Machine.view, view_without, view_append_same rfl, view_append_same rfl]
    rfl
  | outdated op g link hrole hp hl hg =>
    exact Watch.leaves t.id none (fun _ h => nomatch h) rfl rfl (.inl rfl) (holds_placed ht _)
  | discarded op link f hrole hp =>
    exact Watch.still rfl rfl rfl (view_without_same ht (by rw [hp]; rfl))

theorem Exchanging.watch (h : Exchanging m t os n) : Watch.Step m.watch n.watch := by
  have placed : ∀ (host : Host) (x : Exchange) (stage : ExchangeStage),
      view holds (placed t.id (host.position x stage) m.tasks) =
        update (m.view holds) t.id stage.hold := by
    intro host x stage
    rw [holds_placed ht, host.holds_position]
  have awaits : ∀ (host : Host) {x : Exchange}, t.position = host.position x .awaiting →
      t.id ∉ m.lockQueue := by
    intro host x hp
    refine not_queued hr ht fun draft => ?_
    rw [hp, host.stances_position]
    exact fun h => nomatch h
  cases h with
  | sending op message hrole hp hq hs hmsg =>
    have apart := not_queued hr ht (by rw [hrole, hp]; exact fun _ h => nomatch h)
    exact Watch.joins t.id apart rfl rfl rfl (holds_placed ht _)
  | requesting host x hh hx hs hmsg hb =>
    exact Watch.joins t.id (hr.not_mem (hh.not_inLine ht)) rfl rfl rfl (placed host x .queued)
  | refused host hh hs =>
    exact Watch.leaves t.id none (fun _ h => nomatch h) rfl rfl
      (.inr ⟨rfl, hr.not_mem (hh.not_inLine ht)⟩) (host.holds_released ht)
  | stalled host x l link hrole hv hp hl hw hk hf =>
    have free : m.view holds t.id = none :=
      (view_of ht).trans (by rw [hp, host.holds_position]; rfl)
    exact Watch.goes rfl rfl rfl (placed host x _)
      (.stalled (c := m.watch) t.id (beq_iff_eq.mp hl) free)
  | written host x l link link' hrole hv hp hl hw hk hf =>
    exact Watch.leaves t.id none (fun _ h => nomatch h) rfl rfl (.inl rfl)
      (placed host x .awaiting)
  | sent op x hrole hp hx =>
    exact Watch.leaves t.id none (fun _ h => nomatch h) rfl rfl
      (.inr ⟨rfl, awaits (.operation op) hp⟩) (view_without _)
  | notSent op x stage f hrole hp hx hn =>
    exact Watch.leaves t.id none (fun _ h => nomatch h) rfl rfl (.inl rfl) (view_without _)
  | unsent host x stage k f hrole hv hp hx hn =>
    exact Watch.leaves t.id none (fun _ h => nomatch h) rfl rfl (.inl rfl)
      (host.holds_released ht)
  | replied host x k outcome hrole hv hp hx hw =>
    exact Watch.leaves t.id none (fun _ h => nomatch h) rfl rfl (.inr ⟨rfl, awaits host hp⟩)
      (host.holds_released ht)
  | givenUp host x stage hrole hp hv =>
    exact Watch.leaves t.id none (fun _ h => nomatch h) rfl rfl (.inl rfl) (view_without _)

omit hr in
theorem Background.watch (h : Background m t os n) : Watch.Step m.watch n.watch := by
  cases h with
  | readerStarted g link hrole hp =>
    exact Watch.still rfl rfl rfl (view_placed_none ht (by rw [hp]; rfl) rfl)
  | heartbeatStarted g hrole hp =>
    exact Watch.still rfl rfl rfl (view_placed_none ht (by rw [hp]; rfl) rfl)
  | dispatched g link l l' frame hrole hp hc hl hf => exact Watch.still rfl rfl rfl rfl
  | readerLeft g link hrole hp ho =>
    exact Watch.still rfl rfl rfl (view_without_same ht (by rw [hp]; rfl))
  | heartbeatLeft g k hrole hp ho =>
    exact Watch.still rfl rfl rfl (view_without_same ht (by rw [hp]; rfl))

theorem Tearing.watch (h : Tearing m t os n) : Watch.Step m.watch n.watch := by
  cases h with
  | begun td links hb hg hs =>
    refine Watch.joins t.id (not_queued hr ht ?_) rfl rfl rfl (holds_placed ht _)
    cases hb with
    | close n hrole hp => rw [hrole, hp]; exact fun _ h => nomatch h
    | remote g link l l' hrole hp => rw [hp]; exact fun _ h => nomatch h
    | failed g link l l' f hrole hp => rw [hp]; exact fun _ h => nomatch h
    | silent g k hrole hp => rw [hp]; exact fun _ h => nomatch h
  | taken td link hp hl hw =>
    refine Watch.leaves t.id (some (.close _)) ?_ rfl rfl (.inl rfl) (holds_placed ht _)
    intro h hh
    cases hh
    exact ⟨Nat.le_add_right _ _, fun d hw => nomatch hw⟩
  | ended td stage links queue hf hp hv =>
    refine Watch.leaves t.id none (fun _ h => nomatch h) rfl rfl ?_ (view_without _)
    cases hv with
    | empty hl hw => exact .inl rfl
    | closed link deadline =>
      exact .inr ⟨rfl, not_queued hr ht (by rw [hp]; exact fun _ h => nomatch h)⟩

theorem Leaving.watch (h : Leaving m t os n) : Watch.Step m.watch n.watch := by
  have apart := h.unqueued.imp_right (And.imp_right (not_queued hr ht))
  cases h with
  | finished => exact Watch.leaves t.id none (fun _ h => nomatch h) rfl rfl apart (view_without _)
  | dropped => exact Watch.leaves t.id none (fun _ h => nomatch h) rfl rfl apart (view_without _)

end

/-- A change of a client is a step of its watch. -/
theorem Change.watch (hm : Fit m) (hr : (m.line tr).Ranked) (h : Change m os n) :
    Watch.Step m.watch n.watch := by
  cases h with
  | outside h =>
    have hv := h.view_same (f := holds) fun _ => rfl
    cases h with
    | elapsed ms h =>
      refine .passed (c := m.watch) ms ?_ fun i hi => quiet_head hm hr (by
        rw [Machine.mayElapse, Bool.and_eq_true] at h
        exact h.1) hi
      intro i hold hi
      obtain ⟨t, ht, hh⟩ := view_eq_some.mp hi
      obtain rfl := findTask_id ht
      exact (mayElapse_le hm h ht (deadline_of_holds hh)).2
    | _ => exact Watch.still rfl rfl rfl hv
  | released h => cases h <;> exact Watch.still rfl rfl rfl rfl
  | connecting ht h => exact h.watch hr ht
  | exchanging ht h => exact h.watch hr ht
  | background ht h => exact h.watch ht
  | tearing ht h => exact h.watch hr ht
  | leaving ht h => exact h.watch hr ht

end

/-! ## The invariant -/

/-- Whoever stands in line is in the queue. -/
def Line.Listed (c : Line) : Prop := ∀ i, c.InLine i → i ∈ c.queue

theorem Line.Listed.keep {c d : Line} (hc : c.Listed) (h : Line.Step c d) : d.Listed := by
  intro k hk
  cases h with
  | stay next hn => exact hc k hk
  | came =>
    obtain ⟨draft, hk⟩ := hk
    exact hc k ⟨draft, of_update_other hk Stance.noConfusion⟩
  | joined i draft issued hi hd =>
    obtain ⟨draft', hk⟩ := hk
    rcases of_update_some hk with ⟨rfl, _⟩ | ⟨_, hk⟩
    · exact List.mem_append_right _ (.head _)
    · exact List.mem_append_left _ (hc k ⟨draft', hk⟩)
  | wrote i link frame hi hh hlt =>
    obtain ⟨draft, hk⟩ := hk
    rcases of_update_some hk with ⟨_, h⟩ | ⟨hne, hk⟩
    · cases h
    · exact (List.mem_erase_of_ne hne).mpr (hc k ⟨draft, hk⟩)
  | left i queue issued next hq hi hn =>
    obtain ⟨draft, hk⟩ := hk
    obtain ⟨hne, old⟩ := of_update_none hk
    rcases hq with rfl | ⟨rfl, _⟩
    · exact (List.mem_erase_of_ne hne).mpr (hc k ⟨draft, old⟩)
    · exact hc k ⟨draft, old⟩

theorem watch_invariant : Invariant (fun tr m =>
    (Fit m ∧ (m.line tr).Ranked ∧ (m.line tr).Voiced) ∧ m.watch.Kept ∧ (m.line tr).Listed) := by
  refine turns_invariant.and ?_ ?_ (fun _ _ _ _ h => h)
  · intro m h
    obtain ⟨_, _, _, _, rfl⟩ := h.fields
    exact ⟨⟨List.nodup_nil, fun _ _ h => (nomatch h), fun _ _ h => (nomatch h)⟩,
      fun _ ⟨_, h⟩ => (nomatch h)⟩
  · intro m os n tr h hf hc
    exact ⟨hc.1.keep (h.watch hf.1 hf.2.1), hc.2.keep (h.line hf.1)⟩

theorem Machine.Reachable.watch {may : Move → Prop} {m : Machine} (hm : m.Reachable may) :
    m.watch.Kept := (watch_invariant.reached hm).2.1

end GameLink.Client
