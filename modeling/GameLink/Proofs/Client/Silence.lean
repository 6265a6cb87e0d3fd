import GameLink.Proofs.Client.Onset
import GameLink.Proofs.Client.Replay
import GameLink.Proofs.Client.Scribe
import GameLink.Proofs.Client.Vigil

/-! # A dead link is detected

A link that falls silent is torn down at the moment at which the answer to the
first unanswered ping is due, whatever else goes on (`silence_detected`): until
then the client is open and pings at whole intervals, and then everybody hears of
the silence, and of the end of the link once its close completes or is given up.
-/
namespace GameLink.Client

/-! ## The end of the link -/

section
variable (a : Machine) (g : Generation) (l : LinkId) (i : TaskId) (k : Nat)

/-- The heartbeat has written its pings and has found the link silent. -/
structure Alarmed (m : Machine) : Prop where
  settings : m.settings = a.settings
  tally : ∃ ps, ps.length = k + 1 ∧ Tally a l i (observed m.history) ps (k + 1)
  alarm : ∃ before pending after, observed m.history =
    before ++ (alarm i g pending).map (Record.mk (a.beat (k + 1))) ++ after

/-- A close did not complete when the heartbeat found the link silent. -/
def Hung (past : List Machine) : Prop :=
  ∃ n ∈ past, n.now = a.beat (k + 1) ∧ n.closeMode = .hang

/-- The link is gone since `d`, and everybody was told once. -/
structure Parted (d : Nat) (past : List Machine) (m : Machine) : Prop where
  told : ∃ before pending between after, observed m.history =
    before ++ (Client.alarm i g pending).map (Record.mk (a.beat (k + 1))) ++ between ++
      (parting g).map (Record.mk d) ++ after
  /-- Right after that the client was idle, with no request in its table. -/
  idle : ∃ n ∈ m :: past, n.now = d ∧ n.state = .idle ∧ n.registry.slots = [] ∧
    ∃ before after, observed n.history = before ++ (parting g).map (Record.mk d) ++ after

/-- How the teardown of a silent link stands. -/
inductive Winding (past : List Machine) (m : Machine) : Prop
  | queued (t : Task) (ht : m.task? i = some t) (hr : t.role = .heartbeat g)
      (hp : t.position = .tearing ⟨g, .heartbeat, true⟩ .queued) (hf : Fluent m)
      (hn : m.now = a.beat (k + 1))
  | closing (t : Task) (link : LinkId) (ht : m.task? i = some t) (hr : t.role = .heartbeat g)
      (hp : t.position = .tearing ⟨g, .heartbeat, true⟩
        (.closing link (a.beat (k + 1) + a.settings.realtime.sendTimeout.toNat)))
      (hn : m.now ≤ a.beat (k + 1) + a.settings.realtime.sendTimeout.toNat)
      (hn' : a.beat (k + 1) ≤ m.now) (hh : Hung a k past)
  | gone (d : Nat) (ht : m.task? i = none) (hi : i < m.nextTask)
      (hd : d = a.beat (k + 1) ∨
        d = a.beat (k + 1) + a.settings.realtime.sendTimeout.toNat ∧ Hung a k past)
      (hn : d ≤ m.now) (hp : Parted a g i k d past m)

end

section
variable {a m : Machine} {g : Generation} {l : LinkId} {i : TaskId} {k : Nat}
  {past : List Machine} {v : Move}

/-- Nothing is added to what the heartbeat has issued and written. -/
theorem Alarmed.append {n : Machine} {rs : List Record} (h : Alarmed a g l i k m)
    (hs : n.settings = m.settings) (hrs : observed n.history = observed m.history ++ rs)
    (ho : ∀ r ∈ rs, r.what.actor? ≠ some i) : Alarmed a g l i k n where
  settings := hs.trans h.settings
  tally := by
    obtain ⟨ps, hlen, htally⟩ := h.tally
    exact ⟨ps, hlen, hrs ▸ htally.others ho⟩
  alarm := by
    obtain ⟨before, pending, after, heq⟩ := h.alarm
    exact ⟨before, pending, after ++ rs, by rw [hrs, heq, List.append_assoc]⟩

theorem Hung.later (h : Hung a k past) (m : Machine) : Hung a k (m :: past) := by
  obtain ⟨n, hn, hnow, hmode⟩ := h
  exact ⟨n, .tail _ hn, hnow, hmode⟩

theorem Parted.append {d : Nat} {n : Machine} {rs : List Record} (h : Parted a g i k d past m)
    (hrs : observed n.history = observed m.history ++ rs) : Parted a g i k d (m :: past) n where
  told := by
    obtain ⟨before, pending, between, after, heq⟩ := h.told
    exact ⟨before, pending, between, after ++ rs, by rw [hrs, heq, List.append_assoc]⟩
  idle := by
    obtain ⟨n, hn, rest⟩ := h.idle
    exact ⟨n, .tail _ hn, rest⟩

/-- Whoever tears a link down keeps the client closing. -/
theorem Machine.Reachable.tearing {may : Move → Prop} (hm : m.Reachable may) {t : Task}
    {td : Teardown} {stage : TeardownStage} (ht : m.task? i = some t)
    (hp : t.position = .tearing td stage) : m.state = .closing ∧ m.generation = td.generation := by
  have tears : m.view tears i = some (td, stage) := view_eq_some.mpr ⟨t, ht, by rw [hp]; rfl⟩
  obtain ⟨closing, generation, _⟩ := hm.sound.posts.tearing i td stage tears
  exact ⟨closing, generation.symm⟩

/-- The end of the teardown leaves a client at rest, and everybody is told. -/
theorem Parted.of_ended {t : Task} {n : Machine} (h : Machine.Ended m t g n)
    (hs : Alarmed a g l i k m) : Parted a g i k m.now past n := by
  obtain ⟨before, pending, after, halarm⟩ := hs.alarm
  obtain ⟨hired, _, hseen⟩ := h.seen
  rw [List.map_append, ← List.append_assoc] at hseen
  refine ⟨⟨before, pending, after, hired.map (Record.mk m.now), ?_⟩, n, .head _, h.now, h.state,
    h.slots, observed m.history, hired.map (Record.mk m.now), hseen⟩
  rw [hseen, halarm, List.append_assoc]

theorem Alarmed.of_ended {t : Task} {n : Machine} (hs : Alarmed a g l i k m)
    (h : Machine.Ended m t g n) : Alarmed a g l i k n := by
  obtain ⟨hired, hstarted, hseen⟩ := h.seen
  refine hs.append h.settings hseen fun r hr => ?_
  obtain ⟨o, ho, rfl⟩ := List.mem_map.mp hr
  rcases List.mem_append.mp ho with ho | ho
  · simp only [parting, List.mem_cons, List.not_mem_nil, or_false] at ho
    obtain rfl | rfl | rfl | rfl := ho <;> simp [Observation.actor?]
  · obtain ⟨j, op, rfl⟩ := hstarted o ho
    simp [Observation.actor?]

/-- The heartbeat closes the link and ends its teardown. -/
theorem Winding.own (hw : Winding a g i k past m) (hs : Alarmed a g l i k m) (hm : Fit m)
    (h : m.allows (.work (.task i)) = true) :
    Alarmed a g l i k (m.after (.work (.task i))) ∧
      Winding a g i k (m :: past) (m.after (.work (.task i))) := by
  have enabled : m.enabled (.task i) = true := h
  obtain ⟨_, apart, _⟩ := (Machine.course_run hm enabled
    fun _ hj => (Machine.Worker.task.inj hj).symm).untouched
  have gone : ∀ {t : Task} {d : Nat}, m.task? i = some t →
      Machine.Ended m t g (m.run (.task i)) → m.now = d →
      (d = a.beat (k + 1) ∨
        d = a.beat (k + 1) + a.settings.realtime.sendTimeout.toNat ∧ Hung a k past) →
      Alarmed a g l i k (m.run (.task i)) ∧ Winding a g i k (m :: past) (m.run (.task i)) := by
    intro t d ht hend hd hwhen
    refine ⟨hs.of_ended hend, .gone d (findTask_id ht ▸ hend.task)
      (Nat.lt_of_lt_of_le (hm.fresh i t ht) apart.next_le)
      (hwhen.imp id fun hd => ⟨hd.1, hd.2.later m⟩) (hd ▸ Nat.le_of_eq hend.now.symm)
      (hd ▸ .of_ended hend hs)⟩
  cases hw with
  | queued t ht hr hp hf hn =>
    obtain rfl := findTask_id ht
    rcases Machine.run_torn ht (hm.not_aborted ht (by rw [Task.isOperation, hr])) hr hp with
      hend | ⟨hmode, link, step⟩
    · exact gone ht hend hn (.inl rfl)
    · have hung : Hung a k (m :: past) := ⟨m, .head _, hn, hmode⟩
      refine ⟨hs.append step.settings step.seen (List.forall_mem_nil _),
        .closing _ link step.task hr (by rw [← hs.settings, ← hn]) ?_ ?_ hung⟩
      · exact Nat.le_trans (Nat.le_of_eq (step.now.trans hn)) (Nat.le_add_right _ _)
      · exact Nat.le_of_eq (step.now.trans hn).symm
  | closing t link ht hr hp hn hn' hh =>
    obtain rfl := findTask_id ht
    have ha := hm.not_aborted ht (by rw [Task.isOperation, hr])
    have due : m.now = a.beat (k + 1) + a.settings.realtime.sendTimeout.toNat := by
      simp only [Machine.enabled, ht, Machine.taskEnabled, ha, hr, hp, Bool.false_or,
        decide_eq_true_eq] at enabled
      exact Nat.le_antisymm hn enabled
    exact gone ht (Machine.run_closed ht ha hr hp) due (.inr ⟨rfl, hh⟩)
  | gone d ht hi hd hn hp =>
    rw [Machine.enabled, ht] at enabled
    cases enabled

/-- Others leave the teardown to the heartbeat, and time passes only where its close hangs. -/
theorem Winding.others (hw : Winding a g i k past m) (hm : m.Reachable (fun _ => True))
    (ho : .opened g l ∈ m.trace) (hl : FallsSilent g l i k m) (h : m.allows v = true)
    (hv : v ≠ .work (.task i)) : Winding a g i k (m :: past) (m.after v) := by
  have others := Machine.bystander hm.fit h hv
  obtain ⟨rs, hrs, _⟩ := others.records
  have clock := Machine.after_now hm.fit h
  cases hw with
  | queued t ht hr hp hf hn =>
    obtain ⟨u, hu, hrole, hpos, _⟩ := others.stays t ht
    obtain ⟨closing, generation⟩ := hm.tearing ht hp
    obtain ⟨link, hlink, hmode⟩ := hl.delivers generation (.inr closing)
    refine .queued u hu (hrole.trans hr) (hpos.trans hp)
      (hm.fluent (.inr closing) (generation ▸ ho) hlink hmode hf h) ?_
    rcases clock with hnow | ⟨ms, he, _⟩
    · exact hnow.trans hn
    · rw [Machine.mayElapse, Bool.and_eq_true] at he
      exact absurd (by rw [hp]; rfl) (hm.unqueued he.1 hf ht none)
  | closing t link ht hr hp hn hn' hh =>
    obtain ⟨u, hu, hrole, hpos, _⟩ := others.stays t ht
    refine .closing u link hu (hrole.trans hr) (hpos.trans hp) ?_ ?_ (hh.later m)
    · rcases clock with hnow | ⟨ms, he, hafter⟩
      · exact hnow ▸ hn
      · rw [hafter]
        obtain rfl := findTask_id ht
        exact (mayElapse_le hm.fit he ht (by simp [Machine.taskDeadlines, hp])).2
    · rcases clock with hnow | ⟨ms, _, hafter⟩
      · exact hnow ▸ hn'
      · rw [hafter]
        exact Nat.le_trans hn' (Nat.le_add_right _ _)
  | gone d ht hi hd hn hp =>
    refine .gone d (others.gone hi ht) (Nat.lt_of_lt_of_le hi others.next_le)
      (hd.imp id fun hd => ⟨hd.1, hd.2.later m⟩) ?_ (hp.append hrs)
    rcases clock with hnow | ⟨ms, _, hafter⟩
    · exact hnow ▸ hn
    · rw [hafter]
      exact Nat.le_trans hn (Nat.le_add_right _ _)

/-- The first step of the teardown tells everybody of the silence. -/
theorem Beating.begun {t : Task} {n : Machine} {f : Failure} {c : String} (hb : Beating a g l i k m)
    (ht : t.id = i) (hr : t.role = .heartbeat g) (hn : m.now = a.beat (k + 1))
    {ps : List (Nat × String)} (hlen : ps.length = k + 1)
    (htally : Tally a l i (observed m.history) ps (k + 1))
    (h : Machine.Begun m t g [.answered i c (.error f)] n) (hf : Fluent n) :
    Alarmed a g l i k n ∧ Winding a g i k (m :: past) n := by
  subst ht
  obtain ⟨pending, hseen⟩ := h.seen
  refine ⟨⟨h.settings.trans hb.settings, ⟨ps, hlen, ?_⟩,
    observed m.history ++ [⟨m.now, .answered t.id c (.error f)⟩], pending, [], ?_⟩,
    .queued _ h.task hr rfl hf (h.now.trans hn)⟩
  · rw [hseen]
    exact htally.append rfl rfl
  · rw [hseen, hn, List.map_append, List.append_nil, List.append_assoc]
    rfl

end

/-! ## The whole passage -/

section
variable {a m : Machine} {g : Generation} {l : LinkId} {i : TaskId} {k : Nat}
  {past : List Machine}

/-- A heartbeat that has done nothing is about to begin its schedule. -/
theorem Onset.beating (ha : Onset g l i a) : Beating a g l i k a := by
  obtain ⟨t, ht, hr, hp⟩ := ha.starts
  have silent := silent_of_others ha.unheard
  refine ⟨ha.state, ha.generation, rfl, ha.fluent, ?_, t, [], 0, ht, hr, hp ▸ .starts rfl,
    silent.1, silent.2, rfl⟩
  intro td hmem
  obtain ⟨r, hrec, hw⟩ := List.mem_map.mp hmem
  exact ha.unheard r hrec (by rw [hw]; rfl)

/-- The heartbeat keeps to its schedule until it has found the link silent and tears it down. -/
theorem Onset.phase (ha : Onset g l i a) (hp : Machine.Passage a past m)
    (hl : ∀ n ∈ m :: past, FallsSilent g l i k n) :
    Beating a g l i k m ∨ Alarmed a g l i k m ∧ Winding a g i k past m := by
  induction hp with
  | nil => exact .inl ha.beating
  | @cons past m hpass v hv ih =>
    have hm := ha.reached.reaches hpass.reaches
    obtain ⟨rs, hrs⟩ := hpass.reaches.observed_since ha.reached
    have opened := hpass.reaches.mem_trace ha.reached ha.opened
    have now := hl m (.tail _ (.head _))
    have next := hl (m.after v) (.head _)
    by_cases hi : v = .work (.task i)
    · subst hi
      rcases ih fun n hn => hl n (.tail _ hn) with hb | ⟨hs, hw⟩
      · rcases hb.own hm ha.opened hrs ha.unheard now hv with
          hb | ⟨hnow, t, f, c, ps, ht, hr, hlen, htally, hbegun⟩
        · exact .inl hb
        · obtain ⟨link, hlink, hmode⟩ := now.delivers hb.generation (.inl hb.state)
          have fluent := hm.fluent (.inl hb.state) (hb.generation ▸ opened) hlink hmode hb.fluent hv
          exact .inr (hb.begun (findTask_id ht) hr hnow hlen htally hbegun fluent)
      · exact .inr (hw.own hs hm.fit hv)
    · rcases ih fun n hn => hl n (.tail _ hn) with hb | ⟨hs, hw⟩
      · exact .inl (hb.others hm opened now next hv hi)
      · have others := Machine.bystander hm.fit hv hi
        obtain ⟨rs, hrs, mute⟩ := others.records
        exact .inr ⟨hs.append others.settings hrs mute, hw.others hm opened now hv hi⟩

/-! ## The moment of detection -/

/-- How the silence of the link `l` shows, in a passage from its opening in `a` to `m`: its
heartbeat `i` pings `k + 1` times, and everything is over one interval after the last ping. -/
structure Detects (a : Machine) (g : Generation) (l : LinkId) (i : TaskId) (k : Nat)
    (past : List Machine) (m : Machine) : Prop where
  /-- The pings are written at whole intervals after the opening, each one when its time comes. -/
  pings : ∃ s ≤ k + 1, (pings i (observed m.history)).map Prod.fst = (List.range s).map a.beat ∧
    ∀ j ≤ k, m.Through (a.beat j) → j < s
  frames : ∀ w ∈ Client.pings i (observed m.history), w.2.1 = l ∧ w.2.2.message = .ping
  /-- Whatever else is written on the link, an operation writes. -/
  others : ∀ j f, .wrote j l f ∈ m.trace → j = i ∨ ∃ op, .started j op ∈ m.trace
  «open» : m.now < a.beat (k + 1) → m.state = .open ∧ m.generation = g
  alarm : m.Through (a.beat (k + 1)) → ∃ before pending after, observed m.history =
    before ++ (alarm i g pending).map (Record.mk (a.beat (k + 1))) ++ after
  parted : m.Through (a.beat (k + 1)) → ¬ Hung a k past →
    Parted a g i k (a.beat (k + 1)) past m
  /-- A close that hangs is given up after the send timeout. -/
  late : m.Through (a.beat (k + 1) + a.settings.realtime.sendTimeout.toNat) →
    ∃ d, (d = a.beat (k + 1) ∨
      d = a.beat (k + 1) + a.settings.realtime.sendTimeout.toNat ∧ Hung a k past) ∧
        Parted a g i k d past m
  /-- All that is heard of the link is heard once. -/
  era : .closed g .heartbeat ∈ m.trace → ∃ earlier e later,
    affairs m.trace = (earlier ++ e :: later).flatMap Era.observations ∧ e.generation = g ∧
      e.link = l ∧ e.stage = .ended i ⟨g, .heartbeat, true⟩

/-- Once the time for its end is up, the link is gone. -/
theorem Winding.parted (hw : Winding a g i k past m) (hm : m.Reachable (fun _ => True))
    {d : Nat} (hd : m.Through d) (hk : d = a.beat (k + 1) ∧ ¬ Hung a k past ∨
      d = a.beat (k + 1) + a.settings.realtime.sendTimeout.toNat) :
    ∃ d, (d = a.beat (k + 1) ∨
      d = a.beat (k + 1) + a.settings.realtime.sendTimeout.toNat ∧ Hung a k past) ∧
        Parted a g i k d past m := by
  have bound : a.beat (k + 1) ≤ d := by
    rcases hk with ⟨hk, _⟩ | hk
    · exact Nat.le_of_eq hk.symm
    · exact hk ▸ Nat.le_add_right _ _
  cases hw with
  | queued t ht hr hp hf hn =>
    exfalso
    rcases hd with hd | ⟨_, quiet⟩
    · exact Nat.not_lt_of_le (hn ▸ bound) hd
    · exact hm.unqueued quiet hf ht none (by rw [hp]; rfl)
  | closing t link ht hr hp hn hn' hh =>
    exfalso
    rcases hk with ⟨_, hk⟩ | hk
    · exact hk hh
    · rcases hd with hd | ⟨heq, quiet⟩
      · exact Nat.not_lt_of_le (hk ▸ hn) hd
      · obtain rfl := findTask_id ht
        have later := quiet_deadline (hm.fit.fits _ t ht) (quiet_task quiet ht)
          (d := d) (by rw [hk]; simp [Machine.taskDeadlines, hp])
        exact Nat.ne_of_gt later heq
  | gone d' ht hi hd' hn hp => exact ⟨d', hd', hp⟩

/-- The era of a link whose teardown has taken effect and is over. -/
theorem Machine.Reachable.ended_era {may : Move → Prop} (hm : m.Reachable may)
    (hl : .opened g l ∈ m.trace) {td : Teardown} (hi : .closing i td ∈ m.trace)
    (htd : td.generation = g) {c : Cause} (hc : .closed g c ∈ m.trace) : ∃ earlier e later,
      affairs m.trace = (earlier ++ e :: later).flatMap Era.observations ∧ e.generation = g ∧
        e.link = l ∧ e.stage = .ended i td := by
  obtain ⟨earlier, e, later, haffairs, rfl, hlink, hearlier, hlater, hstaged, _⟩ :=
    hm.exists_era hl
  have same : ∀ p ∈ earlier ++ e :: later, p.generation = e.generation → p = e := fun _ =>
    eq_of_mark_eq (fun p hp => Nat.ne_of_lt (hearlier p hp).1)
      (fun p hp => Nat.ne_of_gt (hlater p hp).1)
  refine ⟨earlier, e, later, haffairs, rfl, hlink, ?_⟩
  obtain ⟨p, hp, hop⟩ := Era.exists_of_mem haffairs hi rfl
  have stage := Era.of_closing hop
  obtain rfl := same p hp ((hstaged p hp i td stage).symm.trans htd)
  obtain ⟨q, hq, hoq⟩ := Era.exists_of_mem haffairs hc rfl
  obtain ⟨j, td', hended, htd', _⟩ := Era.of_closed hoq
  obtain rfl := same q hq ((hstaged q hq j td' (.inr hended)).symm.trans htd')
  rcases stage with stage | stage
  · cases stage.symm.trans hended
  · exact stage

/-- As long as the heartbeat keeps to its schedule its time is not up. -/
theorem Beating.detects (hb : Beating a g l i k m) (hm : m.Reachable (fun _ => True))
    (ho : .opened g l ∈ m.trace) (hl : FallsSilent g l i k m) : Detects a g l i k past m := by
  obtain ⟨t, ps, s, ht, hr, hp, htally⟩ := hb.pulse
  have written := fun {j} (hj : m.Through (a.beat j)) => hm.pulse_through hb.fluent ht hp hj
  have early : ¬ m.Through (a.beat (k + 1)) := fun h =>
    Nat.not_lt_of_le hp.written_le.2 (written h)
  have role : m.role? i = some (.heartbeat g) := Option.map_eq_some_iff.mpr ⟨t, ht, hr⟩
  exact
    { pings := ⟨s, hp.written_le.2, htally.moments hp.written_le.1, fun j _ hj => written hj⟩
      frames := fun _ hw => htally.frames hw
      others := fun j f hw => hm.scribe ho (.inl role) hw
      «open» := fun _ => ⟨hb.state, hb.generation⟩
      alarm := fun h => absurd h early
      parted := fun h => absurd h early
      late := fun h => absurd (h.mono (Nat.le_add_right _ _)) early
      era := by
        intro hc
        obtain ⟨earlier, e, later, haffairs, _⟩ := hm.exists_era ho
        obtain ⟨p, hp, hop⟩ := Era.exists_of_mem haffairs hc rfl
        obtain ⟨j, td, hended, htd, _⟩ := Era.of_closed hop
        have closing := Era.mem_of_mem haffairs hp (Era.closing_mem (.inr hended))
        obtain rfl := hl.alone j td closing htd
        exact absurd closing (hb.unclosed td) }

/-- Once the heartbeat has found the link silent, it is as good as gone. -/
theorem Alarmed.detects (hs : Alarmed a g l i k m) (hw : Winding a g i k past m)
    (hm : m.Reachable (fun _ => True)) (ho : .opened g l ∈ m.trace) (hi : Unasked m.trace i) :
    Detects a g l i k past m := by
  obtain ⟨ps, hlen, htally⟩ := hs.tally
  obtain ⟨before, pending, after, halarm⟩ := hs.alarm
  have since : a.beat (k + 1) ≤ m.now := by
    cases hw with
    | queued t ht hr hp hf hn => exact Nat.le_of_eq hn.symm
    | closing t link ht hr hp hn hn' hh => exact hn'
    | gone d ht hi hd hn hp =>
      rcases hd with rfl | ⟨rfl, _⟩
      · exact hn
      · exact Nat.le_trans (Nat.le_add_right _ _) hn
  have closing : .closing i ⟨g, .heartbeat, true⟩ ∈ m.trace := by
    rw [Machine.trace, halarm]
    simp [Client.alarm]
  -- at least one ping is on record, which tells who it is that writes on the link
  have wrote : ∃ f, .wrote i l f ∈ m.trace := by
    obtain ⟨p, ps, rfl⟩ := List.exists_cons_of_length_eq_add_one hlen
    exact ⟨_, List.mem_map_of_mem (mem_pings.mp (by rw [htally.pings]; exact .head _))⟩
  obtain ⟨f, wrote⟩ := wrote
  exact
    { pings := ⟨k + 1, Nat.le_refl _, htally.moments (Nat.le_of_eq hlen.symm),
        fun j hj _ => Nat.lt_succ_of_le hj⟩
      frames := fun _ hw => htally.frames hw
      others := fun j f' hw => hm.scribe ho (.inr ⟨f, wrote, hi⟩) hw
      «open» := fun h => absurd since (Nat.not_le_of_lt h)
      alarm := fun _ => ⟨before, pending, after, halarm⟩
      parted := by
        intro h hung
        obtain ⟨d, rfl | ⟨_, hung'⟩, parted⟩ := hw.parted hm h (.inl ⟨rfl, hung⟩)
        · exact parted
        · exact absurd hung' hung
      late := fun h => hw.parted hm h (.inr rfl)
      era := fun hc => hm.ended_era ho closing rfl hc }

theorem Onset.detects (ha : Onset g l i a) (hp : Machine.Passage a past m)
    (hl : ∀ n ∈ m :: past, FallsSilent g l i k n) : Detects a g l i k past m := by
  have hm := ha.reached.reaches hp.reaches
  have opened := hp.reaches.mem_trace ha.reached ha.opened
  rcases ha.phase hp hl with hb | ⟨hs, hw⟩
  · exact hb.detects hm opened (hl m (.head _))
  · obtain ⟨t, ht, hr, _⟩ := ha.starts
    have role : a.role? i = some (.heartbeat g) := Option.map_eq_some_iff.mpr ⟨t, ht, hr⟩
    have unasked := hp.reaches.unasked ha.reached (ha.reached.fit.fresh i t ht)
      (ha.reached.unasked role)
    exact hs.detects hw hm opened unasked

/-- A link that falls silent is torn down when the answer to the first unanswered ping is due. -/
theorem Machine.silence_detected {may : Move → Prop} {p : Machine} {v : Move}
    (hp : p.Reachable may) (h : p.allows v = true) (hnew : .opened g l ∉ p.trace)
    (ho : .opened g l ∈ (p.after v).trace) :
    (∃ i, (p.after v).role? i = some (.heartbeat g)) ∧
      ∀ i, (p.after v).role? i = some (.heartbeat g) → ∀ k past m,
        Passage (p.after v) past m → (∀ n ∈ m :: past, FallsSilent g l i k n) →
          Detects (p.after v) g l i k past m := by
  obtain ⟨served, onset⟩ := hp.onset h hnew ho
  exact ⟨served, fun i hi k past m hpass hl => (onset i hi).detects hpass hl⟩

end

namespace Machine

/-- The heartbeat of the first link pings when its interval is over. -/
def pinging : List Move := [.act (.elapse 10000), .work (.task 2), .work (.task 2)]

/-- From the opening on: the first ping is answered after a second, the next one is not. -/
def muted : List Move :=
  [.work (.task 1), .work (.task 2)] ++ pinging ++
    [.act (.elapse 1000), .act (.serverPush 0 (.data (answerTo "1"))), .work (.task 1),
      .work (.task 2), .act (.elapse 9000), .work (.task 2), .work (.task 2), .act (.elapse 10000),
      .work (.task 2), .work (.task 2), .work (.task 1), .act (.elapse 1)]

theorem detected_muted :
    Detects (fresh.replay (opening 0)) 1 0 2 1 ((fresh.replay (opening 0)).states muted)
        ((fresh.replay (opening 0)).replay muted) ∧
      ((fresh.replay (opening 0)).replay muted).Through ((fresh.replay (opening 0)).beat 2) := by
  have before : openings (fresh.replay (steps 0 2 (.connect guest none))).trace = [] := rfl
  have silent : ((fresh.replay (opening 0)).replay muted ::
      (fresh.replay (opening 0)).states muted).all (FallsSilent.check 1 0 2 1) = true := by
    decide +kernel
  refine ⟨(silence_detected (p := fresh.replay (steps 0 2 (.connect guest none)))
    (v := .work (.task 0)) (g := 1) (l := 0) (reachable_replay rfl) rfl ?_
    (List.mem_of_getElem? (i := 2) rfl)).2 2 rfl 1 _ _ (passage_replay (by decide +kernel)) ?_,
    .inl (by decide +kernel)⟩
  · intro h
    rw [← mem_openings, before] at h
    cases h
  · exact fun n hn => .of_check (List.all_eq_true.mp silent n hn)

/-- No frame answers a ping of `i` before one interval has passed since it was written. -/
def Unanswered (i : TaskId) (l : LinkId) (cid : String) (m : Machine) : Prop :=
  ∃ n moment, (observed m.history)[n]? = some ⟨moment, .wrote i l ⟨some cid, .ping⟩⟩ ∧
    (((observed m.history).drop n).filterMap (Record.reply? cid)).all
      (fun r => moment + m.interval ≤ r.1) = true

/-- From the opening on: the link is silent and does not close. -/
def clinging : List Move :=
  [.act (.setCloseMode .hang), .work (.task 1), .work (.task 2)] ++ pinging ++
    [.act (.elapse 10000), .work (.task 2), .work (.task 2), .work (.task 1)]

/-- From the opening on: the first ping is answered before it is written. -/
def forestalled : List Move :=
  [.work (.task 1), .work (.task 2), .act (.elapse 10000), .work (.task 2),
    .act (.serverPush 0 (.data (answerTo "1"))), .work (.task 1), .work (.task 2),
    .work (.task 2)] ++ pinging ++ [.act (.elapse 1)]

/-- From the opening on: the first ping is answered when its time is up. -/
def punctual : List Move :=
  [.work (.task 1), .work (.task 2)] ++ pinging ++
    [.act (.elapse 10000), .act (.serverPush 0 (.data (answerTo "1"))), .work (.task 1),
      .work (.task 2), .work (.task 2), .work (.task 2), .act (.elapse 1)]

/-- Where the link does not close, nobody hears of its end when its silence shows; and an answer
counts that arrives before its ping is written, or when the time for it is up. -/
theorem silence_clinging :
    (((fresh.replay (opening 0)).replay clinging ::
        (fresh.replay (opening 0)).states clinging).all (FallsSilent.check 1 0 2 0) = true ∧
      ((fresh.replay (opening 0)).replay clinging).Through ((fresh.replay (opening 0)).beat 1) ∧
      ((fresh.replay (opening 0)).replay clinging).state = .closing ∧
      ((fresh.replay (opening 0)).replay clinging).trace.filter Observation.isTurn =
        [.opened 1 0, .event .connected, .closing 2 ⟨1, .heartbeat, true⟩,
          .event .heartbeatTimeout]) ∧
    ∀ moves ∈ [forestalled, punctual], (fresh.replay (opening 0)).replays moves = true ∧
      Unanswered 2 0 "1" ((fresh.replay (opening 0)).replay moves) ∧
      ((fresh.replay (opening 0)).replay moves).Through ((fresh.replay (opening 0)).beat 1) ∧
      ((fresh.replay (opening 0)).replay moves).state = .open := by
  refine ⟨⟨by decide +kernel, .inr ⟨by decide +kernel, by decide +kernel⟩, rfl, rfl⟩, ?_⟩
  intro moves hm
  rw [List.mem_cons, List.mem_singleton] at hm
  rcases hm with rfl | rfl
  · exact ⟨by decide +kernel, ⟨9, 10000, rfl, by decide +kernel⟩, .inl (by decide +kernel), rfl⟩
  · exact ⟨by decide +kernel, ⟨7, 10000, rfl, by decide +kernel⟩, .inl (by decide +kernel), rfl⟩

end Machine

end GameLink.Client
