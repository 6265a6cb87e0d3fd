import GameLink.Proofs.Client.Apart
import GameLink.Proofs.Client.Dialed
import GameLink.Proofs.Client.Watch

/-! # Connects that are overtaken

Where a client is neither open nor about to be, whoever is on the way brings up a
generation that is past (`Elders`), so from there only a task that is yet to begin
opens a link (`Reachable.hereafter`). A connect that is on the way fails, and
stands nowhere but where it dials, queues for the writer or closes its link
(`Trailing`), each for a limited time if closes complete (`Stands`).
-/
namespace GameLink.Client

/-! ## What a client is told that has no link -/

/-- What has been heard since a moment at which the client was neither open nor about to be, and
had come to generation `k`. -/
structure Life.Hushed (k : Generation) (heard : List Observation) (c : Life) : Prop where
  past : k ≤ c.generation
  ahead : c.state = .connecting → k < c.generation
  opened : ∀ g link, .opened g link ∈ heard → k < g
  shut : (∀ g link, .opened g link ∉ heard) →
    c.state ≠ .open ∧ ∀ e, .event e ∈ heard → ∃ cause, e = .disconnected cause

theorem Teardown.event_of_ending (td : Teardown) {e : Event} (h : .event e ∈ td.ending) :
    e = .disconnected td.cause := by
  unfold Teardown.ending at h
  rcases List.mem_cons.mp h with h | h
  · cases h
  rcases List.mem_append.mp h with h | h
  · split at h
    · cases List.mem_singleton.mp h
      rfl
    · cases h
  · split at h
    · cases h
    · cases List.mem_singleton.mp h

namespace Life.Hushed

variable {k : Generation} {os : List Observation} {c d : Life}

/-- A step that opens nothing and is told of disconnects only. -/
theorem hush (hc : c.Hushed k os) {os' : List Observation} (hg : c.generation ≤ d.generation)
    (hs : d.state = .connecting → k < d.generation) (hd : c.state ≠ .open → d.state ≠ .open)
    (hn : openings os' = [])
    (he : c.state ≠ .open → ∀ e, .event e ∈ os' → ∃ cause, e = .disconnected cause) :
    d.Hushed k (os ++ os') := by
  have unopened : ∀ g link, .opened g link ∉ os' := fun g link h =>
    nomatch hn ▸ mem_openings.mpr h
  refine ⟨Nat.le_trans hc.past hg, hs, fun g link h => ?_, fun h => ?_⟩
  · rcases List.mem_append.mp h with h | h
    · exact hc.opened g link h
    · exact absurd h (unopened g link)
  · obtain ⟨shut, quiet⟩ := hc.shut fun g link ho => h g link (List.mem_append_left _ ho)
    refine ⟨hd shut, fun e h => ?_⟩
    rcases List.mem_append.mp h with h | h
    · exact quiet e h
    · exact he shut e h

theorem keep (hc : c.Hushed k os) (hs : c.Sound) (h : Step c d) :
    ∃ os', d.affairs = c.affairs ++ os' ∧ d.Hushed k (os ++ os') := by
  have unsaid : c.state ≠ .open → ∀ e, .event e ∈ ([] : List Observation) →
      ∃ cause, e = .disconnected cause := fun _ _ h => nomatch h
  -- nothing is observed, and the generation is the same
  have still : ∀ {d : Life}, d.affairs = c.affairs → d.generation = c.generation →
      (d.state = c.state ∨ d.state = .idle) →
      ∃ os', d.affairs = c.affairs ++ os' ∧ d.Hushed k (os ++ os') := by
    intro d ha hg hd
    refine ⟨[], by rw [ha, List.append_nil], hc.hush (Nat.le_of_eq hg.symm) ?_ ?_ rfl unsaid⟩
    · rcases hd with hd | hd
      · rw [hd, hg]
        exact hc.ahead
      · rw [hd]
        exact fun h => nomatch h
    · rcases hd with hd | hd
      · rw [hd]
        exact id
      · rw [hd]
        exact fun _ h => nomatch h
  cases h with
  | stay => exact still rfl rfl (.inl rfl)
  | unheld => exact still rfl rfl (.inl rfl)
  | begun hs' =>
    exact ⟨[], (List.append_nil _).symm, hc.hush (Nat.le_succ _)
      (fun _ => Nat.lt_succ_of_le hc.past) (fun _ h => nomatch h) rfl unsaid⟩
  | backedOut hs' =>
    exact ⟨[], (List.append_nil _).symm, hc.hush (Nat.le_succ _) (fun h => nomatch h)
      (fun _ h => nomatch h) rfl unsaid⟩
  | abandoned hs' => exact still rfl rfl (.inr rfl)
  | installed link i j hs' hi hj hij =>
    -- the link that opens here is one of a later generation
    refine ⟨_, rfl, hc.past, fun h => (nomatch h), fun g l h => ?_, fun h => ?_⟩
    · rcases List.mem_append.mp h with h | h
      · exact hc.opened g l h
      · cases h with
        | head => exact hc.ahead hs'
        | tail _ h => cases List.mem_singleton.mp h
    · exact absurd (List.mem_append_right _ (.head _)) (h c.generation link)
  | heard i g link frame hi hg =>
    refine ⟨_, rfl, hc.hush (Nat.le_refl _) hc.ahead id (openings_tidings link frame) ?_⟩
    intro hn e he
    -- without a link nobody's generation is the stored one
    obtain ⟨l, hl, _⟩ := hs.service.serving i g _ hi
    rcases hs.tokens.accounted g l hl with h | h
    · cases (hs.tokens.cancel_none hn).symm.trans h
    · exact absurd h hg
  | began i td hs' hg hi =>
    refine ⟨_, rfl, hc.hush (Nat.le_refl _) (fun h => nomatch h) (fun _ h => nomatch h)
      (openings_opening i td) ?_⟩
    exact fun hn => absurd hs' hn
  | taken i td stage hi => exact still rfl rfl (.inl rfl)
  | ended i td stage hi hw =>
    refine ⟨_, rfl, hc.hush (Nat.le_refl _) (fun h => nomatch h) (fun _ h => nomatch h)
      (openings_ending td) ?_⟩
    exact fun _ e he => ⟨td.cause, td.event_of_ending he⟩
  | left i g l hi hg => exact still rfl rfl (.inl rfl)
  | dropped i => exact still rfl rfl (.inl rfl)
  | cancelled g hh hg => exact still rfl rfl (.inl rfl)
  | emptied hh hc' => exact still rfl rfl (.inl rfl)

end Life.Hushed

/-! ## Who was on the way -/

/-- The task is yet to take its first step. -/
def Machine.Unbegun (m : Machine) (i : TaskId) : Prop :=
  m.nextTask ≤ i ∨ ∃ t, m.task? i = some t ∧ t.position = .start

/-- Whoever was on the way at `p` brings up no generation after that of `p`. -/
structure Elders (p m : Machine) : Prop where
  next_le : p.nextTask ≤ m.nextTask
  past : ∀ i t, m.task? i = some t → ¬ p.Unbegun i →
    t.position ≠ .start ∧ ∀ g, t.position.brings = some g → g ≤ p.generation

/-- What a client comes to that was neither open nor about to be at `p`, and what is observed
since. -/
structure Hereafter (p : Machine) (os : List Observation) (m : Machine) : Prop where
  hushed : (m.life (p.trace ++ os)).Hushed p.generation (affairs os)
  elders : Elders p m
  opened : ∀ g link, .opened g link ∈ os →
    ∃ i, (i, link) ∈ dialings (p.trace ++ os) ∧ p.Unbegun i

section
variable {p m n : Machine} {t u : Task} {os tr : List Observation} {i : TaskId}

/-- Nobody who is on the way comes back to the start, or brings up another generation. -/
theorem Goes.onward (h : Goes m os t u) (hp : t.position ≠ .start) :
    u.position ≠ .start ∧ ∀ g, u.position.brings = some g → t.position.brings = some g := by
  refine ⟨?_, fun g hg => (h.of_brings hg).resolve_right fun begun => hp begun.1⟩
  obtain ⟨_, hpos | hon⟩ := h
  · exact hpos ▸ hp
  · generalize u.position = q at hon
    cases hon with
    | asks host x | stalls host x | writes host x => exact host.position_ne_start
    | _ => exact fun h => nomatch h

theorem Elders.keep (hm : Elders p m) (hf : Fit m) (h : Change m os n) : Elders p n := by
  refine ⟨Nat.le_trans hm.next_le (h.regroup hf).next_le, fun i u hu hi => ?_⟩
  rcases h.origin hu with ⟨t, ht, hgoes⟩ | ⟨hnew, _⟩
  · obtain ⟨hp, hb⟩ := hm.past i t ht hi
    obtain ⟨hp', hb'⟩ := hgoes.onward hp
    exact ⟨hp', fun g hg => hb g (hb' g hg)⟩
  · exact absurd (.inl (Nat.le_trans hm.next_le hnew)) hi

theorem Hereafter.keep (hm : Hereafter p tr m) (hf : Fit m) (hs : (m.life (p.trace ++ tr)).Sound)
    (hd : Dialed (p.trace ++ tr) m) (h : Change m os n) : Hereafter p (tr ++ os) n := by
  have step : Life.Step (m.life (p.trace ++ tr)) (n.life (p.trace ++ tr ++ os)) := h.life hf
  rw [List.append_assoc] at step
  have hushed : (n.life (p.trace ++ (tr ++ os))).Hushed p.generation (affairs (tr ++ os)) := by
    obtain ⟨os', heq, kept⟩ := hm.hushed.keep hs step
    have same : os' = affairs os := by
      have heq : affairs (p.trace ++ (tr ++ os)) = affairs (p.trace ++ tr) ++ os' := heq
      rw [← List.append_assoc, affairs_append] at heq
      exact (List.append_cancel_left heq).symm
    rw [affairs_append]
    exact same ▸ kept
  refine ⟨hushed, hm.elders.keep hf h, fun g link ho => ?_⟩
  rcases List.mem_append.mp ho with ho | ho
  · obtain ⟨i, hi, hu⟩ := hm.opened g link ho
    refine ⟨i, ?_, hu⟩
    rw [← List.append_assoc, dialings_append]
    exact List.mem_append_left _ hi
  · -- the link is of a later generation than what any elder brings up
    obtain ⟨i, t, ht, hp⟩ := h.opener hf ho
    have later : p.generation < g := hushed.opened g link
      (List.mem_filter.mpr ⟨List.mem_append_right _ ho, rfl⟩)
    refine ⟨i, ?_, ?_⟩
    · rw [← List.append_assoc, dialings_append]
      exact List.mem_append_left _ (hd.held i link (view_eq_some.mpr ⟨t, ht, by rw [hp]; rfl⟩))
    · by_contra hi
      exact Nat.not_lt_of_le ((hm.elders.past i t ht hi).2 g (by rw [hp]; rfl)) later

end

namespace Machine

variable {may : Move → Prop} {p n : Machine} {i : TaskId} {t : Task}

section
variable (hp : p.Reachable may)
include hp

theorem Reachable.elders : Elders p p := by
  refine ⟨Nat.le_refl _, fun i t ht hi => ⟨fun hs => hi (.inr ⟨t, ht, hs⟩), fun g hg => ?_⟩⟩
  exact hp.brings_le ht hg

/-- From a client that is neither open nor about to be. -/
theorem Reachable.hereafter (ho : p.state ≠ .open) (hc : p.state ≠ .connecting)
    (h : Reaches may p n) : ∃ os, n.trace = p.trace ++ os ∧ Hereafter p os n := by
  have base : Hereafter p [] p := by
    refine ⟨?_, hp.elders, fun _ _ h => nomatch h⟩
    rw [List.append_nil]
    exact ⟨Nat.le_refl _, fun h => absurd h hc, fun _ _ h => (nomatch h),
      fun _ => ⟨ho, fun _ h => nomatch h⟩⟩
  have later := h.since (I := fun rs m => Hereafter p (rs.map Record.what) m) hp
    dialed_invariant ?_ ?_ base
  · obtain ⟨rs, hrs, kept⟩ := later
    exact ⟨rs.map Record.what, by rw [trace, hrs, List.map_append]; rfl, kept⟩
  · intro m os n rs hc hj hm
    have kept := hm.keep hj.1.1 hj.1.2 hj.2 hc
    simpa [Function.comp_def] using kept
  · exact fun rs n handler history hm => ⟨hm.hushed, ⟨hm.elders.1, hm.elders.2⟩, hm.opened⟩

end

end Machine

/-! ## Where a connect that is overtaken stands -/

/-- The connect has begun. -/
def Position.connects : Position → Bool
  | .dialing _ _ _ _ | .installing _ _ | .discarding _ => true
  | _ => false

/-- Where a connect that stood at `q` can stand without having opened its link. -/
inductive Trails (q : Position) : Position → Prop
  | dialing {g url deadline stage stage'} (hq : q = .dialing g url deadline stage) :
      Trails q (.dialing g url deadline stage')
  | installing {g link} (hq : q.brings = some g) : Trails q (.installing g link)
  | discarding {link} : Trails q (.discarding link)

/-- A connect that stood at `q`, and what has been observed since. -/
structure Trailing (i : TaskId) (q : Position) (os : List Observation) (m : Machine) : Prop where
  known : i < m.nextTask
  stands : ∀ t, m.task? i = some t → Trails q t.position
  failed : ∀ r, .finished i r ∈ os → ∃ f, r = .failed f

section
variable {m n : Machine} {t u : Task} {q : Position} {os tr tr' : List Observation} {i : TaskId}

theorem Trails.plain {p : Position} (h : Trails q p) : p.plain = false := by
  cases h <;> rfl

theorem Trails.goes (hq : Trails q t.position) (h : Goes m os t u) : Trails q u.position := by
  obtain ⟨_, hpos | hon⟩ := h
  · exact hpos ▸ hq
  · generalize u.position = p at hon
    cases hon.shifts hq.plain with
    | hangs g url deadline wake hp =>
      rw [hp] at hq
      cases hq with
      | dialing hq => exact .dialing hq
    | links g url deadline stage hp =>
      rw [hp] at hq
      cases hq with
      | dialing hq => exact .installing (by rw [hq]; rfl)
    | discards g link hp hg => exact .discarding
    | takes td link hp hw =>
      rw [hp] at hq
      cases hq

/-- A connect of a generation that is past ends with a failure. -/
theorem Trails.departs {k : Generation} (hq : Trails q t.position)
    (hk : ∀ g, q.brings = some g → g ≤ k) (ho : ∀ g link, .opened g link ∈ os → k < g)
    (h : Departs m t os n) {r : Result} (hr : .finished i r ∈ os) : ∃ f, r = .failed f := by
  cases h with
  | opens op g link hrole hp hn hopen =>
    rw [hp] at hq
    cases hq with
    | installing hq => exact absurd (ho g link hopen) (Nat.not_lt_of_le (hk g hq))
  | fails op g url deadline stage f hrole hp hg hos =>
    cases List.mem_singleton.mp (hos ▸ hr)
    exact ⟨f, rfl⟩
  | discards op link f hrole hp hos =>
    cases List.mem_singleton.mp (hos ▸ hr)
    exact ⟨f, rfl⟩
  | settles op r' hrole hp hos => rw [hp] at hq; cases hq
  | answers op x stage r' hrole hp hos => rw [hp] at hq; cases hq
  | givesUp host x stage hrole hp hv hos => cases hos ▸ hr
  | retires hrole hp hos => cases hos ▸ hr
  | tears td stage hp hn hos hrole => rw [hp] at hq; cases hq
  | dropped ha hs hg hos => cases hos ▸ hr

theorem Trailing.keep {k : Generation} (hm : Trailing i q tr m) (hf : Fit m) (he : Errands tr' m)
    (hk : ∀ g, q.brings = some g → g ≤ k) (ho : ∀ g link, .opened g link ∈ os → k < g)
    (h : Change m os n) : Trailing i q (tr ++ os) n := by
  refine ⟨Nat.lt_of_lt_of_le hm.known (h.regroup hf).next_le, fun u hu => ?_, fun r hr => ?_⟩
  · obtain ⟨t, ht, hgoes⟩ := h.origin_of_lt hu hm.known
    exact (hm.stands t ht).goes hgoes
  · rcases List.mem_append.mp hr with hr | hr
    · exact hm.failed r hr
    · obtain ⟨op, hop⟩ := h.finisher hf hr
      obtain ⟨t, ht, _⟩ := view_eq_some.mp hop
      have gone : n.view roles i = none := ((he.keep hf h).ended i r
        (mem_results.mpr (List.mem_append_right _ hr))).2
      rcases h.fate hf ht with ⟨u, hu, _⟩ | ⟨_, hdep⟩
      · cases gone.symm.trans (view_eq_some.mpr ⟨u, hu, rfl⟩)
      · exact (hm.stands t ht).departs hk ho hdep hr

end

namespace Machine

variable {may : Move → Prop} {p m n : Machine} {i : TaskId} {t u : Task}

/-! ## A close that does not complete -/

theorem runDial_ne_discarding {g : Generation} {url : String} {deadline : Nat} {stage : DialStage}
    (ht : m.task? t.id = some t) (hu : (m.runDial t g url deadline stage).task? t.id = some u)
    (link : LinkId) : u.position ≠ .discarding link := by
  have failed : ∀ f, (m.failConnect t g f).task? t.id = none := fun f => finish_gone _ _
  unfold runDial at hu
  split at hu
  · cases (failed _).symm.trans hu
  · split at hu
    · split at hu
      · cases (failed _).symm.trans hu
      · split at hu
        · rename_i l _
          have moved := task?_move_self (m := ({ m with links := m.links ++ [l] }.record
            (.dialed t.id m.links.length l.url)).joinLock t.id) ht (.installing g m.links.length)
          cases moved.symm.trans hu
          exact fun h => nomatch h
        · cases (failed _).symm.trans hu
        · cases (task?_move_self ht _).symm.trans hu
          exact fun h => nomatch h
    · cases (failed _).symm.trans hu

theorem runInstall_discarding {g : Generation} {link : LinkId}
    (hu : (m.runInstall t g link).task? t.id = some u) : m.closeMode = .hang := by
  unfold runInstall at hu
  split at hu
  · cases (finish_gone _ _).symm.trans hu
  · dsimp only at hu
    split at hu
    · assumption
    · cases (finish_gone _ _).symm.trans hu
    · cases (finish_gone _ _).symm.trans hu

/-- A connect closes its link for longer than a moment only where closing does not complete. -/
theorem run_discarding (ht : m.task? i = some t) (he : m.taskEnabled t = true)
    {q : Position} (hq : Trails q t.position) (hu : (m.run (.task i)).task? i = some u)
    {link : LinkId} (hp : u.position = .discarding link) : m.closeMode = .hang := by
  obtain rfl := findTask_id ht
  have run : m.run (.task t.id) = m.runTask t := by rw [Machine.run, ht]
  rw [run] at hu
  cases ha : t.aborted with
  | true =>
    have dropped : m.runTask t = m.dropTask t := by rw [runTask, ha]; rfl
    rw [dropped] at hu
    unfold dropTask at hu
    dsimp only at hu
    cases (removeTask_gone _).symm.trans hu
  | false =>
    generalize hpos : t.position = pos at hq
    cases hq with
    | @dialing g url deadline _ stage _ =>
      have dials : m.runTask t = m.runDial t g url deadline stage := by rw [runTask, ha, hpos]; rfl
      exact absurd hp (runDial_ne_discarding ht (dials ▸ hu) link)
    | @installing g link' _ =>
      have installs : m.runTask t = m.runInstall t g link' := by rw [runTask, ha, hpos]; rfl
      exact runInstall_discarding (installs ▸ hu)
    | discarding =>
      rw [taskEnabled, ha, hpos] at he
      cases he

/-- Only being dropped ends a close that does not complete. -/
theorem run_dropped (ht : m.task? i = some t) (he : m.taskEnabled t = true) {link : LinkId}
    (hl : t.position = .discarding link) : (m.run (.task i)).trace = m.trace ∧
      (m.run (.task i)).nextTask = m.nextTask ∧ (m.run (.task i)).task? i = none := by
  obtain rfl := findTask_id ht
  have ha : t.aborted = true := by
    rw [taskEnabled, hl] at he
    simpa using he
  have run : m.run (.task t.id) = ((m.closeWriter link).closeReader link).removeTask t.id := by
    rw [Machine.run, ht]
    dsimp only
    rw [runTask, ha]
    simp [dropTask, hl]
  obtain ⟨_, _, _, _, heq⟩ := @removeTask_eq t.id ((m.closeWriter link).closeReader link)
  rw [run]
  refine ⟨?_, ?_, removeTask_gone _⟩
  · rw [heq]
    rfl
  · rw [heq]
    rfl

/-- A connect whose close does not complete never returns. -/
theorem Reachable.lingers (hm : m.Reachable may) (ht : m.task? i = some t) {link : LinkId}
    (hl : t.position = .discarding link) (h : Reaches may m n) (r : Result) :
    .finished i r ∉ n.trace := by
  have kept : Reaches may m n ∧ (i < n.nextTask ∧ ∀ u, n.task? i = some u →
      u.position = .discarding link) ∧ ∀ r, .finished i r ∉ n.trace := by
    refine h.invariant (I := fun n => Reaches may m n ∧ (i < n.nextTask ∧
      ∀ u, n.task? i = some u → u.position = .discarding link) ∧ ∀ r, .finished i r ∉ n.trace)
      ⟨.refl may m, ⟨hm.fit.fresh i t ht, fun u hu => ?_⟩, fun r hr => ?_⟩ ?_
    · cases ht.symm.trans hu
      exact hl
    · have gone := ((errands_invariant.reached hm).2.ended i r (mem_results.mpr hr)).2
      cases gone.symm.trans (view_eq_some.mpr ⟨t, ht, rfl⟩)
    · rintro a v ⟨hma, ⟨hlt, stands⟩, silent⟩ hv hmay
      have ha := hm.reaches hma
      refine ⟨hma.step hv hmay, ?_⟩
      by_cases own : v = .work (.task i)
      · subst own
        have ready : a.enabled (.task i) = true := hv
        cases hs : a.task? i with
        | none =>
          rw [enabled, hs] at ready
          cases ready
        | some s =>
          rw [enabled, hs] at ready
          obtain ⟨htrace, hnext, gone⟩ := run_dropped hs ready (stands s hs)
          refine ⟨⟨hnext.symm ▸ hlt, fun u hu => ?_⟩, fun r hr => silent r (htrace ▸ hr)⟩
          cases gone.symm.trans hu
      · have others := bystander ha.fit hv own
        refine ⟨⟨Nat.lt_of_lt_of_le hlt others.next_le, fun u hu => ?_⟩, fun r hr => ?_⟩
        · obtain ⟨s, hs, _, hpos⟩ := others.origin hu hlt
          exact hpos.trans (stands s hs)
        · obtain ⟨rs, hrs, actor⟩ := others.records
          rw [trace, hrs, List.map_append] at hr
          rcases List.mem_append.mp hr with hr | hr
          · exact silent r hr
          · obtain ⟨rec, hrec, hwhat⟩ := List.mem_map.mp hr
            exact actor rec hrec (by rw [hwhat]; rfl)
  exact kept.2.2 r

/-! ## At the writer with a link -/

theorem inLine_installing {tr : List Observation} (ht : m.task? i = some t) {g : Generation}
    {link : LinkId} (hl : t.position = .installing g link) : (m.line tr).InLine i := by
  have stance : m.view stances i = some (.line none) := view_eq_some.mpr ⟨t, ht, by rw [hl]; rfl⟩
  exact ⟨none, stance⟩

/-- A link is opened or discarded when everybody ahead has had the time to write. -/
theorem Reachable.installing_due (hm : m.Reachable may) (ht : m.task? i = some t) {g : Generation}
    {link : LinkId} (hl : t.position = .installing g link) :
    ∃ ahead behind, m.lockQueue = ahead ++ i :: behind ∧
      ∀ k u, Reaches may m k → k.task? i = some u → u.position = .installing g link →
        k.now ≤ m.now + (ahead.length + 1) * m.settings.realtime.sendTimeout.toNat := by
  have listed := (watch_invariant.reached hm).2.2
  obtain ⟨ahead, behind, hqueue⟩ := List.append_of_mem (listed i (inLine_installing ht hl))
  refine ⟨ahead, behind, hqueue, fun k u hmk hu hul => ?_⟩
  let limit := m.now + (ahead.length + 1) * m.settings.realtime.sendTimeout.toNat
  have kept := hmk.kept (I := fun _ k => i < k.nextTask ∧ ∀ u, k.task? i = some u →
    (u.position = .installing g link ∧ k.watch.Due i limit) ∨ ∃ l, u.position = .discarding l)
    hm watch_invariant ?_ (fun _ _ _ _ h => h) ⟨hm.fit.fresh i t ht, fun u hu => ?_⟩
  · rcases kept.2 u hu with ⟨_, due⟩ | ⟨l, hdis⟩
    · exact due.now_le (hm.reaches hmk).watch
    · cases hul.symm.trans hdis
  · rintro a os b rs hc hj ⟨hlt, ih⟩
    have listed := (watch_invariant.keep _ _ _ _ hc hj).2.2
    obtain ⟨⟨hf, ranked, voiced⟩, kept, _⟩ := hj
    refine ⟨Nat.lt_of_lt_of_le hlt (hc.regroup hf).next_le, fun v hv => ?_⟩
    obtain ⟨s, hs, hgoes⟩ := hc.origin_of_lt hv hlt
    obtain ⟨_, hpos | hon⟩ := hgoes
    · rcases ih s hs with ⟨hins, due⟩ | ⟨l, hdis⟩
      · have inQueue : i ∈ b.lockQueue := listed i (inLine_installing hv (hpos.trans hins))
        exact .inl ⟨hpos.trans hins,
          (due.keep kept (hc.watch hf ranked)).resolve_left fun hout => hout inQueue⟩
      · exact .inr ⟨l, hpos.trans hdis⟩
    · have away : s.position.plain = false := by
        rcases ih s hs with ⟨hins, _⟩ | ⟨l, hdis⟩
        · rw [hins]
          rfl
        · rw [hdis]
          rfl
      have standing : ∀ {q}, s.position = q →
          q = .installing g link ∨ ∃ l, q = .discarding l := by
        rintro q rfl
        exact (ih s hs).imp_left And.left
      generalize v.position = q at hon
      cases hon.shifts away with
      | hangs g' url deadline wake hq => rcases standing hq with h | ⟨_, h⟩ <;> cases h
      | links g' url deadline stage hq => rcases standing hq with h | ⟨_, h⟩ <;> cases h
      | discards g' link' hq hg => exact .inr ⟨_, rfl⟩
      | takes td link' hq hw => rcases standing hq with h | ⟨_, h⟩ <;> cases h
  · cases ht.symm.trans hu
    exact .inl ⟨hl, hm.watch.due_of_append hqueue⟩

/-- Where a connect stands that began before `n`, with the moment until which it stands there. -/
inductive Stands (may : Move → Prop) (p : Machine) (i : TaskId) (q : Position) (n : Machine) :
    Position → Prop
  | dialing (g : Generation) (url : String) (deadline : Nat) (stage stage' : DialStage)
      (hq : q = .dialing g url deadline stage) (hn : n.now ≤ deadline) :
      Stands may p i q n (.dialing g url deadline stage')
  /-- Each call ahead at the writer, and the connect itself, takes a send timeout at most. -/
  | installing (g : Generation) (link : LinkId) (ahead behind : List TaskId)
      (hq : n.lockQueue = ahead ++ i :: behind)
      (hn : ∀ k u, Reaches may n k → k.task? i = some u → u.position = .installing g link →
        k.now ≤ n.now + (ahead.length + 1) * n.settings.realtime.sendTimeout.toNat) :
      Stands may p i q n (.installing g link)
  /-- Only a close that does not complete keeps it longer. -/
  | discarding (link : LinkId)
      (hq : q = .discarding link ∨ ∃ k, Reaches may p k ∧ Reaches may k n ∧ k.closeMode = .hang) :
      Stands may p i q n (.discarding link)

/-- What comes of a connect that stood at `q` in a client that was neither open nor about to be. -/
structure Overtaken (may : Move → Prop) (p : Machine) (i : TaskId) (q : Position) (n : Machine) :
    Prop where
  failed : ∀ r, .finished i r ∈ n.trace → ∃ f, r = .failed f
  unopened : ∀ link url, .dialed i link url ∈ n.trace → ∀ g, .opened g link ∉ n.trace
  closed : ∀ link url, .dialed i link url ∈ n.trace → n.task? i = none →
    ∃ l, n.links[link]? = some l ∧ l.writerOpen = false
  stands : ∀ u, n.task? i = some u → Stands may p i q n u.position
  /-- Where closing its link does not complete, it never returns. -/
  lingers : ∀ u link, n.task? i = some u → u.position = .discarding link →
    ∀ k, Reaches may n k → ∀ r, .finished i r ∉ k.trace

section
variable (hp : p.Reachable may) (ho : p.state ≠ .open) (hc : p.state ≠ .connecting)
  (ht : p.task? i = some t) (hq : t.position.connects = true) (h : Reaches may p n)
include hp ho hc ht hq h

theorem Reachable.trailing : ∃ os, n.trace = p.trace ++ os ∧ Trailing i t.position os n := by
  have base : Hereafter p [] p ∧ Trailing i t.position [] p := by
    obtain ⟨os, hos, here⟩ := hp.hereafter ho hc (.refl may p)
    obtain rfl : os = [] := List.self_eq_append_right.mp hos
    refine ⟨here, hp.fit.fresh i t ht, fun u hu => ?_, fun _ h => nomatch h⟩
    cases ht.symm.trans hu
    generalize t.position = q at hq
    cases q with
    | dialing g url deadline stage => exact .dialing rfl
    | installing g link => exact .installing rfl
    | discarding link => exact .discarding
    | _ => cases hq
  have later := h.since (I := fun rs m => Hereafter p (rs.map Record.what) m ∧
    Trailing i t.position (rs.map Record.what) m) hp (dialed_invariant.both errands_invariant)
    ?_ ?_ base
  · obtain ⟨rs, hrs, _, kept⟩ := later
    exact ⟨rs.map Record.what, by rw [trace, hrs, List.map_append]; rfl, kept⟩
  · rintro m os n rs hmn ⟨⟨⟨hf, hs⟩, hd⟩, _, he⟩ ⟨here, trail⟩
    have here' := here.keep hf hs hd hmn
    have trail' := trail.keep hf he (fun g hg => hp.brings_le ht hg)
      (fun g link hl => here'.hushed.opened g link
        (List.mem_filter.mpr ⟨List.mem_append_right _ hl, rfl⟩)) hmn
    simpa [Function.comp_def] using And.intro here' trail'
  · rintro rs n handler history ⟨here, trail⟩
    exact ⟨⟨here.hushed, ⟨here.elders.1, here.elders.2⟩, here.opened⟩,
      ⟨trail.known, trail.stands, trail.failed⟩⟩

/-- It ends with a failure. -/
theorem Reachable.overtaken_failed {r : Result} (hr : .finished i r ∈ n.trace) :
    ∃ f, r = .failed f := by
  obtain ⟨os, hos, trail⟩ := hp.trailing ho hc ht hq h
  rw [hos] at hr
  rcases List.mem_append.mp hr with hr | hr
  · have gone := ((errands_invariant.reached hp).2.ended i r (mem_results.mpr hr)).2
    cases gone.symm.trans (view_eq_some.mpr ⟨t, ht, rfl⟩)
  · exact trail.failed r hr

/-- The link that it dials is never opened. -/
theorem Reachable.overtaken_unopened {link : LinkId} {url : String}
    (hd : .dialed i link url ∈ n.trace) (g : Generation) : .opened g link ∉ n.trace := by
  intro hl
  have dialed : (i, link) ∈ dialings n.trace := mem_dialings hd
  obtain ⟨os, hos, here⟩ := hp.hereafter ho hc h
  have unique := (hp.reaches h).dialed.unique
  rw [hos] at hl dialed unique
  rcases List.mem_append.mp hl with hl | hl
  · -- its link was not open before, since the task still held it
    obtain ⟨j, hj⟩ := hp.dialed.opened g link (mem_openings.mpr hl)
    obtain rfl := unique j i link (by rw [dialings_append]; exact List.mem_append_left _ hj) dialed
    have held : p.view lodges j = some link :=
      view_eq_some.mpr ⟨t, ht, hp.dialed.holds j t link ht hj⟩
    exact (lodging_invariant.reached hp).2.apart g link j (mem_openings.mpr hl) held
  · obtain ⟨j, hj, hu⟩ := here.opened g link hl
    obtain rfl := unique j i link hj dialed
    rcases hu with hu | ⟨t', ht', hs⟩
    · exact absurd (hp.fit.fresh j t ht) (Nat.not_lt_of_le hu)
    · cases ht.symm.trans ht'
      rw [hs] at hq
      cases hq

theorem Reachable.overtaken_discarding (hu : n.task? i = some u) {link : LinkId}
    (hl : u.position = .discarding link) : t.position = .discarding link ∨
      ∃ k, Reaches may p k ∧ Reaches may k n ∧ k.closeMode = .hang := by
  have kept : Reaches may p n ∧ ∀ u, n.task? i = some u → u.position = .discarding link →
      t.position = .discarding link ∨
        ∃ k, Reaches may p k ∧ Reaches may k n ∧ k.closeMode = .hang := by
    refine h.invariant (I := fun n => Reaches may p n ∧ ∀ u, n.task? i = some u →
      u.position = .discarding link → t.position = .discarding link ∨
        ∃ k, Reaches may p k ∧ Reaches may k n ∧ k.closeMode = .hang) ⟨.refl may p, ?_⟩ ?_
    · intro u hu hl
      cases ht.symm.trans hu
      exact .inl hl
    · rintro m v ⟨hpm, ih⟩ hv hmay
      have hm := hp.reaches hpm
      obtain ⟨_, _, trail⟩ := hp.trailing ho hc ht hq hpm
      refine ⟨hpm.step hv hmay, fun u hu hl => ?_⟩
      by_cases own : v = .work (.task i)
      · subst own
        cases htm : m.task? i with
        | none =>
          have still : m.after (.work (.task i)) = m := by
            show m.run (.task i) = m
            rw [run, htm]
          rw [still, htm] at hu
          cases hu
        | some s =>
          have ready : m.taskEnabled s = true := by
            have he : m.enabled (.task i) = true := hv
            rwa [enabled, htm] at he
          exact .inr ⟨m, hpm, (Reaches.refl may m).step hv hmay,
            run_discarding htm ready (trail.stands s htm) hu hl⟩
      · obtain ⟨s, hs, _, hpos⟩ := (bystander hm.fit hv own).origin hu trail.known
        rcases ih s hs (hpos ▸ hl) with hq' | ⟨k, hpk, hkm, hk⟩
        · exact .inl hq'
        · exact .inr ⟨k, hpk, hkm.step hv hmay, hk⟩
  exact kept.2 u hu hl

theorem Reachable.overtaken_stands (hu : n.task? i = some u) :
    Stands may p i t.position n u.position := by
  have hn := hp.reaches h
  obtain ⟨_, _, trail⟩ := hp.trailing ho hc ht hq h
  have trails := trail.stands u hu
  cases hpos : u.position with
  | dialing g url deadline stage =>
    rw [hpos] at trails
    cases trails with
    | @dialing _ _ _ stage' _ hq' =>
      have dials : n.view holds i = some (.dial deadline) :=
        view_eq_some.mpr ⟨u, hu, by rw [hpos]; rfl⟩
      exact .dialing g url deadline stage' stage hq' (hn.watch.due i _ dials)
  | installing g link =>
    obtain ⟨ahead, behind, hqueue, due⟩ := hn.installing_due hu hpos
    exact .installing g link ahead behind hqueue due
  | discarding link => exact .discarding link (hp.overtaken_discarding ho hc ht hq h hu hpos)
  | _ =>
    rw [hpos] at trails
    cases trails

theorem Reachable.overtaken : Overtaken may p i t.position n where
  failed _ hr := hp.overtaken_failed ho hc ht hq h hr
  unopened _ _ hd g := hp.overtaken_unopened ho hc ht hq h hd g
  closed _ _ hd hi :=
    (hp.reaches h).discarded hd hi (hp.overtaken_unopened ho hc ht hq h hd)
  stands _ hu := hp.overtaken_stands ho hc ht hq h hu
  lingers _ _ hu hl _ hk r := (hp.reaches h).lingers hu hl hk r

end

end Machine

end GameLink.Client
