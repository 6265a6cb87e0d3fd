import GameLink.Proofs.Client.Errand
import GameLink.Proofs.Client.View

/-! # Where a task goes on to

A task stays where it is in a change, or goes on to one of the few places that
follow (`Onward`), or leaves (`Departs`); a task that comes is about to start
(`Change.origin`, `Change.fate`). What is said of the course of one task needs no
other case.
-/
namespace GameLink.Client

/-- Where a change takes a task that does not leave, with what is observed. -/
inductive Onward (m : Machine) (t : Task) : List Observation → Position → Prop
  | dials (op : Operation) (url : String) (stage : DialStage) (hr : t.role = .operation op)
      (hc : op.connects = true) (hp : t.position = .start) (hs : m.state = .idle)
      (hw : ∃ wake failure, stage = .delayed wake failure ∧ m.now ≤ wake) :
      Onward m t [] (.dialing (m.generation + 1) url
        (m.now + m.settings.realtime.connectTimeout.toNat) stage)
  | hangs (g : Generation) (url : String) (deadline wake : Nat)
      (hp : t.position = .dialing g url deadline (.delayed wake none)) :
      Onward m t [] (.dialing g url deadline .hung)
  | links (g : Generation) (url : String) (deadline : Nat) (stage : DialStage)
      (hp : t.position = .dialing g url deadline stage) :
      Onward m t [.dialed t.id m.links.length url] (.installing g m.links.length)
  | discards (g : Generation) (link : LinkId) (hp : t.position = .installing g link)
      (hg : ¬ (m.generation = g ∧ m.state = .connecting)) : Onward m t [] (.discarding link)
  | sends (op : Operation) (message : Outbound) (hr : t.role = .operation op)
      (hp : t.position = .start) (hq : op.requests = false) (hs : m.state = .open) :
      Onward m t [] (.exchanging ⟨message, none, 0⟩ .queued)
  | asks (host : Host) (x : Exchange) (hh : host.Ready m t)
      (hx : x.ticket = some (m.registry.register m.now).2) (hs : m.state = .open)
      (hb : x.timeout = host.bound m) :
      Onward m t [.issued t.id m.registry.nextCid] (host.position x .queued)
  | stalls (host : Host) (x : Exchange) (hr : t.role = host.role)
      (hp : t.position = host.position x .queued) (hl : m.holdsLock t.id = true)
      (hw : ∃ l k, m.writer = some l ∧ m.links[l]? = some k ∧ k.mode = .stall) :
      Onward m t []
        (host.position x (.stalled (m.now + m.settings.realtime.sendTimeout.toNat)))
  | writes (host : Host) (x : Exchange) (link : LinkId) (hr : t.role = host.role)
      (hp : t.position = host.position x .queued) (hl : m.holdsLock t.id = true)
      (hv : host.Live m) (hw : m.writer = some link) :
      Onward m t [.wrote t.id link (Machine.frameOf x)] (host.position x .awaiting)
  | reads (hp : t.position = .start) : Onward m t [] .reading
  | ticks (hp : t.position = .start) : Onward m t [] (.ticking (.start m.now m.interval))
  | rests (g : Generation) (k : Heartbeat.Ticker) (os : List Observation)
      (hr : t.role = .heartbeat g)
      (hp : (Host.heartbeat g k).Ready m t ∨
        ∃ x stage, t.position = .probing k x stage) : Onward m t os (.ticking k)
  | tears (td : Teardown) (links : List Link) (os : List Observation) (hb : Begins m t td links)
      (hg : m.generation = td.generation) (hs : m.state = .open)
      (ho : .closing t.id td ∈ os) : Onward m t os (.tearing td .queued)
  | takes (td : Teardown) (link : LinkId) (hp : t.position = .tearing td .queued)
      (hl : m.holdsLock t.id = true) (hw : m.writer = some link) :
      Onward m t []
        (.tearing td (.closing link (m.now + m.settings.realtime.sendTimeout.toNat)))

section
variable {m n : Machine} {t t' u : Task} {os : List Observation} {i : TaskId}

/-- A task stays where it was or goes on. -/
def Goes (m : Machine) (os : List Observation) (t u : Task) : Prop :=
  u.role = t.role ∧ (u.position = t.position ∨ Onward m t os u.position)

theorem goes_placed {p : Position} (ht : m.task? t.id = some t) (h : Onward m t os p)
    (hu : findTask (placed t.id p m.tasks) i = some u) :
    ∃ t, m.task? i = some t ∧ Goes m os t u := by
  rw [findTask_placed] at hu
  split at hu
  · rename_i hi
    subst hi
    obtain ⟨v, hv, rfl⟩ := Option.map_eq_some_iff.mp hu
    have hv : m.task? t.id = some v := hv
    obtain rfl := Option.some.inj (ht.symm.trans hv)
    exact ⟨t, ht, rfl, .inr h⟩
  · exact ⟨u, hu, rfl, .inl rfl⟩

theorem goes_without {id : TaskId} (hu : findTask (without id m.tasks) i = some u) :
    ∃ t, m.task? i = some t ∧ Goes m os t u :=
  ⟨u, of_findTask_without hu, rfl, .inl rfl⟩

theorem goes_released {host : Host} (ht : m.task? t.id = some t) (hr : t.role = host.role)
    (hp : host.Ready m t ∨ ∃ x stage, t.position = host.position x stage)
    (hu : findTask (host.released t.id m.tasks) i = some u) :
    ∃ t, m.task? i = some t ∧ Goes m os t u := by
  cases host with
  | operation op => exact goes_without hu
  | heartbeat g k => exact goes_placed ht (.rests g k os hr hp) hu

/-- A task after a change was there before and stayed or went on, or it is new. -/
theorem Change.origin (h : Change m os n) (hu : n.task? i = some u) :
    (∃ t, m.task? i = some t ∧ Goes m os t u) ∨
      (m.nextTask ≤ i ∧ u.position = .start ∧
        ∀ op, u.role = .operation op → .started i op ∈ os) := by
  have same : n.tasks = m.tasks → ∃ t, m.task? i = some t ∧ Goes m os t u := by
    intro hts
    exact ⟨u, (congrArg (findTask · i) hts).symm.trans hu, rfl, .inl rfl⟩
  cases h with
  | outside h =>
    cases h with
    | started op policy h =>
      rcases of_findTask_append hu with hu | ⟨hi, rfl⟩
      · exact .inl ⟨u, hu, rfl, .inl rfl⟩
      · refine .inr ⟨Nat.le_of_eq hi, rfl, ?_⟩
        intro op' hop
        cases hop
        exact hi ▸ .head _
    | aborted id h =>
      have hu : findTask (m.tasks.map
        (fun t => if t.id = id then { t with aborted := true } else t)) i = some u := hu
      rw [findTask_map (fun t => by split <;> rfl)] at hu
      obtain ⟨t, ht, rfl⟩ := Option.map_eq_some_iff.mp hu
      refine .inl ⟨t, ht, ?_⟩
      split <;> exact ⟨rfl, .inl rfl⟩
    | _ => exact .inl (same rfl)
  | released h => cases h <;> exact .inl (same rfl)
  | @connecting t ht h =>
    cases h with
    | begun op url deadline stage hr hp hmsg hs hd hw hc =>
      exact .inl (goes_placed ht (hd ▸ .dials op url stage hr hc hp hs hw) hu)
    | backedOut n hr hp hs => exact .inl (same rfl)
    | hung op g url deadline wake hr hp =>
      exact .inl (goes_placed ht (.hangs g url deadline wake hp) hu)
    | abandoned g url deadline stage hp hg hs => exact .inl (same rfl)
    | dialed op g url deadline stage hr hp =>
      exact .inl (goes_placed ht (.links g url deadline stage hp) hu)
    | installed op g link hr hp hl hg hs =>
      rcases of_findTask_append (of_findTask_without hu) with hu | ⟨hi, rfl⟩
      · rcases of_findTask_append hu with hu | ⟨hi, rfl⟩
        · exact .inl ⟨u, hu, rfl, .inl rfl⟩
        · exact .inr ⟨Nat.le_of_eq hi, rfl, fun _ h => nomatch h⟩
      · exact .inr ⟨Nat.le_trans (Nat.le_succ _) (Nat.le_of_eq hi), rfl, fun _ h => nomatch h⟩
    | outdated op g link hr hp hl hg => exact .inl (goes_placed ht (.discards g link hp hg) hu)
    | discarded op link f hr hp => exact .inl (goes_without hu)
  | exchanging ht h =>
    cases h with
    | sending op message hr hp hq hs hmsg =>
      exact .inl (goes_placed ht (.sends op message hr hp hq hs) hu)
    | requesting host x hh hx hs hmsg hb =>
      exact .inl (goes_placed ht (.asks host x hh hx hs hb) hu)
    | refused host hh hs =>
      exact .inl (goes_released ht hh.role_eq (.inl hh) hu)
    | stalled host x l link hr hv hp hl hw hk hf =>
      have stall : link.mode = .stall := Link.write_eq_stalls hf
      exact .inl (goes_placed ht (.stalls host x hr hp hl ⟨l, link, hw, hk, stall⟩) hu)
    | written host x l link link' hr hv hp hl hw hk hf =>
      exact .inl (goes_placed ht (.writes host x l hr hp hl hv hw) hu)
    | sent op x hr hp hx => exact .inl (goes_without hu)
    | notSent op x stage f hr hp hx hn => exact .inl (goes_without hu)
    | unsent host x stage k f hr hv hp hx hn =>
      exact .inl (goes_released ht hr (.inr ⟨x, _, hp⟩) hu)
    | replied host x k outcome hr hv hp hx hw =>
      exact .inl (goes_released ht hr (.inr ⟨x, _, hp⟩) hu)
    | givenUp host x stage hr hp hv => exact .inl (goes_without hu)
  | background ht h =>
    cases h with
    | readerStarted g link hr hp => exact .inl (goes_placed ht (.reads hp) hu)
    | heartbeatStarted g hr hp => exact .inl (goes_placed ht (.ticks hp) hu)
    | dispatched g link l l' frame hr hp hc hl hf => exact .inl (same rfl)
    | readerLeft g link hr hp ho => exact .inl (goes_without hu)
    | heartbeatLeft g k hr hp ho => exact .inl (goes_without hu)
  | tearing ht h =>
    cases h with
    | begun td links hb hg hs =>
      exact .inl (goes_placed ht (.tears td links _ hb hg hs (.head _)) hu)
    | taken td link hp hl hw => exact .inl (goes_placed ht (.takes td link hp hl hw) hu)
    | ended td stage links queue hf hp hv => exact .inl (goes_without hu)
  | leaving ht h =>
    cases h with
    | finished op r hr hp => exact .inl (goes_without hu)
    | dropped links queue ha hd => exact .inl (goes_without hu)

end

/-- The few ways of a task that brings a link up or tears one down. -/
inductive Shifts (m : Machine) (t : Task) : Position → Prop
  | hangs (g : Generation) (url : String) (deadline wake : Nat)
      (hp : t.position = .dialing g url deadline (.delayed wake none)) :
      Shifts m t (.dialing g url deadline .hung)
  | links (g : Generation) (url : String) (deadline : Nat) (stage : DialStage)
      (hp : t.position = .dialing g url deadline stage) :
      Shifts m t (.installing g m.links.length)
  | discards (g : Generation) (link : LinkId) (hp : t.position = .installing g link)
      (hg : ¬ (m.generation = g ∧ m.state = .connecting)) : Shifts m t (.discarding link)
  | takes (td : Teardown) (link : LinkId) (hp : t.position = .tearing td .queued)
      (hw : m.writer = some link) :
      Shifts m t
        (.tearing td (.closing link (m.now + m.settings.realtime.sendTimeout.toNat)))

theorem Onward.shifts {p : Position} (h : Onward m t os p) (hp : t.position.plain = false) :
    Shifts m t p := by
  have plain : t.position.plain = true → Shifts m t p := fun h => nomatch hp.symm.trans h
  cases h with
  | hangs g url deadline wake hp => exact .hangs g url deadline wake hp
  | links g url deadline stage hp => exact .links g url deadline stage hp
  | discards g link hp hg => exact .discards g link hp hg
  | takes td link hp hl hw => exact .takes td link hp hw
  | asks host x hh hx hs hb => exact plain hh.plain
  | stalls host x hr hp hl => exact plain (hp ▸ host.plain_position _ _)
  | writes host x link hr hp hl => exact plain (hp ▸ host.plain_position _ _)
  | rests g k os hr hp =>
    rcases hp with hh | ⟨x, stage, hp⟩
    · exact plain hh.plain
    · exact plain (by rw [hp]; rfl)
  | tears td links os hb hg hs ho => exact plain hb.plain
  | dials op url stage hr hc hp hs hw => exact plain (by rw [hp]; rfl)
  | sends op message hr hp hq hs => exact plain (by rw [hp]; rfl)
  | reads hp => exact plain (by rw [hp]; rfl)
  | ticks hp => exact plain (by rw [hp]; rfl)

/-! ## How a task leaves -/

/-- How a task comes to its end in a change, with what is observed and the machine after it. -/
inductive Departs (m : Machine) (t : Task) (os : List Observation) (n : Machine) : Prop
  | opens (op : Operation) (g : Generation) (link : LinkId) (hr : t.role = .operation op)
      (hp : t.position = .installing g link) (hn : n.state = .open) (ho : .opened g link ∈ os)
  | fails (op : Operation) (g : Generation) (url : String) (deadline : Nat) (stage : DialStage)
      (f : Failure) (hr : t.role = .operation op) (hp : t.position = .dialing g url deadline stage)
      (hg : ¬ (n.generation = g ∧ n.state = .connecting)) (ho : os = [.finished t.id (.failed f)])
  | discards (op : Operation) (link : LinkId) (f : Failure) (hr : t.role = .operation op)
      (hp : t.position = .discarding link) (ho : os = [.finished t.id (.failed f)])
  | settles (op : Operation) (r : Result) (hr : t.role = .operation op) (hp : t.position = .start)
      (ho : .finished t.id r ∈ os)
  | answers (op : Operation) (x : Exchange) (stage : ExchangeStage) (r : Result)
      (hr : t.role = .operation op) (hp : t.position = .exchanging x stage)
      (ho : .finished t.id r ∈ os)
  | givesUp (host : Host) (x : Exchange) (stage : ExchangeStage) (hr : t.role = host.role)
      (hp : t.position = host.position x stage) (hv : t.aborted = true ∨ ¬ host.Live m)
      (ho : os = [])
  | retires (hr : ∀ op, t.role ≠ .operation op)
      (hp : t.position = .reading ∨ ∃ k, t.position = .ticking k) (ho : os = [])
  | tears (td : Teardown) (stage : TeardownStage) (hp : t.position = .tearing td stage)
      (hn : n.state = .idle) (ho : .closed td.generation td.cause ∈ os)
      (hr : t.isOperation = true → .finished t.id (.ok .nothing) ∈ os)
  | dropped (ha : t.aborted = true) (hs : n.state = m.state) (hg : n.generation = m.generation)
      (ho : os = [])

section
variable {m n : Machine} {t u : Task} {os : List Observation} {i : TaskId}

/-- Whoever is there after a change and is no newcomer was there before it. -/
theorem Change.origin_of_lt (h : Change m os n) (hu : n.task? i = some u) (hi : i < m.nextTask) :
    ∃ t, m.task? i = some t ∧ Goes m os t u :=
  (h.origin hu).resolve_right fun new => Nat.not_lt_of_le new.1 hi

/-- Nobody who has left comes back. -/
theorem Change.task?_eq_none (h : Change m os n) (hi : i < m.nextTask) (hg : m.task? i = none) :
    n.task? i = none := by
  cases hn : n.task? i with
  | none => rfl
  | some u =>
    obtain ⟨t, ht, _⟩ := h.origin_of_lt hn hi
    cases hg.symm.trans ht

theorem not_gone_of_tasks (ht : m.task? i = some t) (hts : n.tasks = m.tasks)
    (hn : n.task? i = none) : False := by
  have same : n.task? i = m.task? i := congrArg (findTask · i) hts
  rw [same, ht] at hn
  cases hn

theorem not_gone_of_placed {id : TaskId} {p : Position} (ht : m.task? i = some t)
    (hn : findTask (placed id p m.tasks) i = none) : False := by
  have ht : findTask m.tasks i = some t := ht
  rw [findTask_placed, ht] at hn
  split at hn <;> cases hn

theorem gone_of_without {ts : List Task} (hu : findTask ts u.id = some u)
    (ht : findTask ts i = some t) (hn : findTask (without u.id ts) i = none) : t = u := by
  rw [findTask_without] at hn
  split at hn
  · rename_i hi
    subst hi
    exact Option.some.inj (ht.symm.trans hu)
  · cases ht.symm.trans hn

theorem gone_of_released {host : Host} (hu : m.task? u.id = some u) (ht : m.task? i = some t)
    (hn : findTask (host.released u.id m.tasks) i = none) :
    t = u ∧ ∃ op, host = .operation op := by
  cases host with
  | operation op => exact ⟨gone_of_without hu ht hn, op, rfl⟩
  | heartbeat g k => exact (not_gone_of_placed ht hn).elim

/-- A task that is no longer there has come to its end in one of a few ways. -/
theorem Change.departs (h : Change m os n) (ht : m.task? i = some t) (hn : n.task? i = none) :
    Departs m t os n := by
  cases h with
  | outside h =>
    cases h with
    | started op policy h =>
      cases hn.symm.trans (findTask_append_of_some ht)
    | aborted id h =>
      have hn : findTask (m.tasks.map
        (fun t => if t.id = id then { t with aborted := true } else t)) i = none := hn
      have ht : findTask m.tasks i = some t := ht
      rw [findTask_map (fun t => by split <;> rfl), ht] at hn
      cases hn
    | _ => exact (not_gone_of_tasks ht rfl hn).elim
  | released h => cases h <;> exact (not_gone_of_tasks ht rfl hn).elim
  | @connecting v hv h =>
    cases h with
    | backedOut _ hr hp hs => exact (not_gone_of_tasks ht rfl hn).elim
    | abandoned g url deadline stage hp hg hs => exact (not_gone_of_tasks ht rfl hn).elim
    | installed op g link hr hp hl hg hs =>
      obtain rfl := gone_of_without (findTask_append_of_some (findTask_append_of_some hv))
        (findTask_append_of_some (findTask_append_of_some ht)) hn
      exact .opens op g link hr hp rfl (.head _)
    | discarded op link f hr hp =>
      obtain rfl := gone_of_without hv ht hn
      exact .discards op link f hr hp rfl
    | _ => exact (not_gone_of_placed ht hn).elim
  | @exchanging v hv h =>
    cases h with
    | refused host hh hs =>
      obtain ⟨rfl, op, rfl⟩ := gone_of_released hv ht hn
      exact .settles op _ hh.1 hh.2.1 (List.mem_append_right _ (.head _))
    | sent op x hr hp hx =>
      obtain rfl := gone_of_without hv ht hn
      exact .answers op x _ _ hr hp (.head _)
    | notSent op x stage f hr hp hx hns =>
      obtain rfl := gone_of_without hv ht hn
      exact .answers op x _ _ hr hp (.head _)
    | unsent host x stage k f hr hv' hp hx hns =>
      obtain ⟨rfl, op, rfl⟩ := gone_of_released hv ht hn
      exact .answers op x _ _ hr hp (.tail _ (.head _))
    | replied host x k outcome hr hv' hp hx hw =>
      obtain ⟨rfl, op, rfl⟩ := gone_of_released hv ht hn
      exact .answers op x _ _ hr hp (.tail _ (.head _))
    | givenUp host x stage hr hp hv' =>
      obtain rfl := gone_of_without hv ht hn
      exact .givesUp host x stage hr hp hv' rfl
    | _ => exact (not_gone_of_placed ht hn).elim
  | @background v hv h =>
    cases h with
    | dispatched g link l l' frame hr hp hc hl hf => exact (not_gone_of_tasks ht rfl hn).elim
    | readerLeft g link hr hp ho =>
      obtain rfl := gone_of_without hv ht hn
      exact .retires (fun op h => nomatch hr.symm.trans h) (.inl hp) rfl
    | heartbeatLeft g k hr hp ho =>
      obtain rfl := gone_of_without hv ht hn
      exact .retires (fun op h => nomatch hr.symm.trans h) (.inr ⟨k, hp⟩) rfl
    | _ => exact (not_gone_of_placed ht hn).elim
  | @tearing v hv h =>
    cases h with
    | ended td stage links queue hf hp hvac =>
      obtain rfl := gone_of_without hv ht hn
      refine .tears td stage hp rfl (.head _) fun hop => ?_
      rw [if_pos hop]
      exact .tail _ (List.mem_append_right _ (.head _))
    | _ => exact (not_gone_of_placed ht hn).elim
  | @leaving v hv h =>
    cases h with
    | finished op r hr hp hmsg hd =>
      obtain rfl := gone_of_without hv ht hn
      rcases hp with ⟨hp, _⟩ | ⟨g, url, deadline, stage, hp⟩
      · exact .settles op r hr hp (.head _)
      · obtain ⟨⟨f, rfl⟩, hg⟩ := hd g url deadline stage hp
        exact .fails op g url deadline stage f hr hp hg rfl
    | dropped links queue ha hd =>
      obtain rfl := gone_of_without hv ht hn
      exact .dropped ha rfl rfl rfl

/-- A task is still there after a change and stays or goes on, or it has come to its end. -/
theorem Change.fate (hm : Fit m) (h : Change m os n) (ht : m.task? i = some t) :
    (∃ u, n.task? i = some u ∧ Goes m os t u) ∨ n.task? i = none ∧ Departs m t os n := by
  cases hn : n.task? i with
  | none => exact .inr ⟨rfl, h.departs ht hn⟩
  | some u =>
    obtain ⟨t', ht', hg⟩ := h.origin_of_lt hn (hm.fresh i t ht)
    obtain rfl := Option.some.inj (ht.symm.trans ht')
    exact .inl ⟨u, rfl, hg⟩

/-- What each step onward keeps of where a task is holds of it for as long as it is there. -/
theorem Machine.Reaches.keeps_position {may may₀ : Move → Prop} (hmn : Machine.Reaches may m n)
    (hm : m.Reachable may₀) {P : Position → Prop}
    (goes : ∀ {m : Machine} {os : List Observation} {t u : Task}, Goes m os t u →
      P t.position → P u.position)
    (ht : m.task? i = some t) (hp : P t.position) (hu : n.task? i = some u) : P u.position := by
  have fit : Fit m := fit_invariant.reached hm
  have kept := hmn.kept (I := fun _ k => i < k.nextTask ∧ ∀ u, k.task? i = some u → P u.position)
    hm fit_invariant ?_ (fun _ _ _ _ h => h) ⟨fit.fresh i t ht, fun u hu => ?_⟩
  · exact kept.2 u hu
  · rintro a os b rs h hf ⟨hlt, ih⟩
    refine ⟨Nat.lt_of_lt_of_le hlt (h.regroup hf).next_le, fun v hv => ?_⟩
    obtain ⟨s, hs, hgoes⟩ := h.origin_of_lt hv hlt
    exact goes hgoes (ih s hs)
  · cases ht.symm.trans hu
    exact hp

end

/-! ## Time and settings -/

section
variable {m n : Machine} {os : List Observation}

theorem Change.settings (h : Change m os n) : n.settings = m.settings := by
  cases h with
  | outside h => cases h <;> rfl
  | released h => cases h <;> rfl
  | connecting _ h => cases h <;> rfl
  | exchanging _ h => cases h <;> rfl
  | background _ h => cases h <;> rfl
  | tearing _ h => cases h <;> rfl
  | leaving _ h => cases h <;> rfl

/-- Time passes in a change of its own. -/
theorem Change.clock (h : Change m os n) : n.now = m.now ∨
    ∃ ms, m.mayElapse ms = true ∧ os = [] ∧ n = { m with now := m.now + ms } := by
  cases h with
  | outside h =>
    cases h with
    | elapsed ms h => exact .inr ⟨ms, h, rfl, rfl⟩
    | _ => exact .inl rfl
  | released h => cases h <;> exact .inl rfl
  | connecting _ h => cases h <;> exact .inl rfl
  | exchanging _ h => cases h <;> exact .inl rfl
  | background _ h => cases h <;> exact .inl rfl
  | tearing _ h => cases h <;> exact .inl rfl
  | leaving _ h => cases h <;> exact .inl rfl

theorem Change.now_le (h : Change m os n) : m.now ≤ n.now := by
  rcases h.clock with hn | ⟨ms, _, _, rfl⟩
  · exact Nat.le_of_eq hn.symm
  · exact Nat.le_add_right _ _

end

end GameLink.Client
