import GameLink.Proofs.Client.Overdue
import GameLink.Proofs.Client.Pulse

/-! # A heartbeat on a link that falls silent

On a link that delivers and answers its first `k` pings in time, a heartbeat stands
where its schedule has it (`Pulse`): it pings at whole intervals after the link has
opened, and the ping that is not answered ends the link when its time is up.
-/
namespace GameLink.Client

/-! ## Runs with their states -/

/-- The states of a run from `start` on, newest first, before the last one, and the last one. -/
inductive Machine.Passage (start : Machine) : List Machine → Machine → Prop
  | nil : Passage start [] start
  | cons {past : List Machine} {m : Machine} (h : Passage start past m) (v : Move)
      (hv : m.allows v = true) : Passage start (m :: past) (m.after v)

namespace Machine

theorem Passage.trans {a b c : Machine} {xs ys : List Machine} (hab : Passage a xs b)
    (hbc : Passage b ys c) : Passage a (ys ++ xs) c := by
  induction hbc with
  | nil => exact hab
  | cons _ v hv ih => exact .cons ih v hv

theorem Passage.reaches {a m : Machine} {past : List Machine} (h : Passage a past m) :
    Reaches (fun _ => True) a m := by
  induction h with
  | nil => exact .refl _ _
  | cons _ v hv ih => exact ih.step hv trivial

/-- The states before the moves of a list, newest first. -/
def states (m : Machine) : List Move → List Machine
  | [] => []
  | v :: rest => (m.after v).states rest ++ [m]

theorem passage_replay {moves : List Move} {m : Machine} (h : m.replays moves = true) :
    Passage m (m.states moves) (m.replay moves) := by
  induction moves generalizing m with
  | nil => exact .nil
  | cons v rest ih =>
    rw [replays, Bool.and_eq_true] at h
    have first : Passage m [m] (m.after v) := .cons .nil v h.1
    exact first.trans (ih h.2)

end Machine

/-- The moment of ping `j`, the first being ping 0, of a heartbeat that starts in `a`. -/
def Machine.beat (a : Machine) (j : Nat) : Nat := a.now + (j + 1) * a.interval

theorem Machine.beat_succ (a : Machine) (j : Nat) : a.beat (j + 1) = a.beat j + a.interval := by
  rw [beat, beat, Nat.succ_mul, Nat.add_assoc]

theorem Machine.beat_le (a : Machine) {i j : Nat} (h : i ≤ j) : a.beat i ≤ a.beat j :=
  Nat.add_le_add_left (Nat.mul_le_mul_right _ (Nat.succ_le_succ h)) _

/-- Time has passed a moment, or nobody can go on at it. -/
def Machine.Through (m : Machine) (moment : Nat) : Prop :=
  moment < m.now ∨ moment = m.now ∧ m.quiet = true

theorem Machine.Through.mono {m : Machine} {d d' : Nat} (h : m.Through d) (hd : d' ≤ d) :
    m.Through d' := by
  rcases h with h | ⟨rfl, hq⟩
  · exact .inl (Nat.lt_of_le_of_lt hd h)
  · exact (Nat.lt_or_eq_of_le hd).imp id fun h => ⟨h, hq⟩

/-! ## The link -/

/-- What is known so far of the link `l` of generation `g`: it delivers, nobody but its heartbeat
`i` closes it, the first `k` pings are answered in time, and the next one is not. -/
structure FallsSilent (g : Generation) (l : LinkId) (i : TaskId) (k : Nat) (m : Machine) :
    Prop where
  delivers : m.generation = g → m.state = .open ∨ m.state = .closing →
    ∃ link, m.links[l]? = some link ∧ link.mode = .deliver
  /-- The server end is there as long as the link is open. -/
  present : m.generation = g → m.state = .open →
    ∃ link, m.links[l]? = some link ∧ link.serverOpen = true
  /-- The client is not let go of as long as the link is open. -/
  kept : m.generation = g → m.state = .open → m.isCancelled g = false
  alone : ∀ j td, .closing j td ∈ m.trace → td.generation = g → j = i
  answered : ∀ j μ cid, j < k → (probes i (observed m.history))[j]? = some (μ, cid) →
    (∀ s outcome, firstReply cid (observed m.history) = some (s, outcome) →
      s < μ + m.interval ∧ ∃ e, outcome = .ok e) ∧
    (μ + m.interval ≤ m.now → firstReply cid (observed m.history) ≠ none)
  silent : ∀ μ cid s outcome, (probes i (observed m.history))[k]? = some (μ, cid) →
    firstReply cid (observed m.history) = some (s, outcome) → μ + m.interval < s

/-- What `FallsSilent` says, to be computed. -/
def FallsSilent.check (g : Generation) (l : LinkId) (i : TaskId) (k : Nat) (m : Machine) : Bool :=
  let replied := fun cid => firstReply cid (observed m.history)
  let link := fun f => (m.links[l]?).any f
  decide (m.generation = g → m.state = .open ∨ m.state = .closing →
    link (fun k => k.mode = .deliver) = true) &&
  decide (m.generation = g → m.state = .open → link Link.serverOpen = true ∧
    m.isCancelled g = false) &&
  m.trace.all (fun o => match o with
    | .closing j td => td.generation ≠ g || j = i
    | _ => true) &&
  ((probes i (observed m.history)).take k).all (fun p => match replied p.2 with
    | some (s, .ok _) => s < p.1 + m.interval
    | some (_, .error _) => false
    | none => m.now < p.1 + m.interval) &&
  ((probes i (observed m.history))[k]?).all (fun p =>
    (replied p.2).all (fun r => p.1 + m.interval < r.1))

theorem FallsSilent.of_check {g : Generation} {l : LinkId} {i : TaskId} {k : Nat} {m : Machine}
    (h : check g l i k m = true) : FallsSilent g l i k m := by
  simp only [check, Bool.and_eq_true, decide_eq_true_eq, List.all_eq_true] at h
  obtain ⟨⟨⟨⟨delivers, present⟩, alone⟩, answered⟩, silent⟩ := h
  have exists_of_any : ∀ {f : Link → Bool}, (m.links[l]?).any f = true →
      ∃ link, m.links[l]? = some link ∧ f link = true := by
    intro f hf
    cases hl : m.links[l]? with
    | none =>
      rw [hl] at hf
      cases hf
    | some link =>
      rw [hl] at hf
      exact ⟨link, rfl, hf⟩
  refine ⟨?_, ?_, fun hg ho => (present hg ho).2, ?_, ?_, ?_⟩
  · intro hg hs
    obtain ⟨link, hlink, hmode⟩ := exists_of_any (delivers hg hs)
    exact ⟨link, hlink, by simpa using hmode⟩
  · exact fun hg ho => exists_of_any (present hg ho).1
  · intro j td hmem hg
    simpa [hg] using alone _ hmem
  · intro j μ cid hj hp
    have taken : (μ, cid) ∈ (probes i (observed m.history)).take k :=
      List.mem_of_getElem? ((List.getElem?_take_of_lt hj).trans hp)
    have := answered _ taken
    dsimp only at this
    cases hr : firstReply cid (observed m.history) with
    | none =>
      rw [hr] at this
      have early : m.now < μ + m.interval := by simpa using this
      exact ⟨by simp, fun h => absurd h (Nat.not_le_of_lt early)⟩
    | some r =>
      rw [hr] at this
      obtain ⟨s, e | e⟩ := r
      · cases this
      · refine ⟨fun _ _ h => ?_, by simp⟩
        cases h
        exact ⟨by simpa using this, e, rfl⟩
  · intro μ cid s outcome hp hr
    rw [hp] at silent
    simpa [hr] using silent

/-! ## What the heartbeat has done -/

/-- Task `i` has issued the probes `ps`, one at each beat, and written the first `s` of them on the
link `l` as they were issued. -/
structure Tally (a : Machine) (l : LinkId) (i : TaskId) (rs : List Record)
    (ps : List (Nat × String)) (s : Nat) : Prop where
  probes : probes i rs = ps
  pings : pings i rs = (ps.take s).map (fun p => (p.1, l, ⟨some p.2, .ping⟩))
  times : ps.map Prod.fst = (List.range ps.length).map a.beat

namespace Tally

variable {a : Machine} {l : LinkId} {i : TaskId} {rs rs' : List Record}
  {ps : List (Nat × String)} {s : Nat} {p : Nat × String}

theorem append (h : Tally a l i rs ps s) (hp : Client.probes i rs' = [])
    (hw : Client.pings i rs' = []) : Tally a l i (rs ++ rs') ps s where
  probes := by rw [probes_append, hp, List.append_nil, h.probes]
  pings := by rw [pings_append, hw, List.append_nil, h.pings]
  times := h.times

theorem others (h : Tally a l i rs ps s) (ho : ∀ r ∈ rs', r.what.actor? ≠ some i) :
    Tally a l i (rs ++ rs') ps s := h.append (silent_of_others ho).1 (silent_of_others ho).2

theorem issue (h : Tally a l i rs ps ps.length) (cid : String) :
    Tally a l i (rs ++ [⟨a.beat ps.length, .issued i cid⟩])
      (ps ++ [(a.beat ps.length, cid)]) ps.length where
  probes := by
    rw [probes_append, h.probes]
    simp [Client.probes, Record.probe?]
  pings := by
    rw [pings_append, h.pings, List.take_append_of_le_length (Nat.le_refl _)]
    simp [Client.pings, Record.ping?]
  times := by simp [h.times, List.range_succ]

theorem write (h : Tally a l i rs (ps ++ [p]) ps.length) :
    Tally a l i (rs ++ [⟨p.1, .wrote i l ⟨some p.2, .ping⟩⟩]) (ps ++ [p]) (ps.length + 1) where
  probes := by
    rw [probes_append, h.probes]
    simp [Client.probes, Record.probe?]
  pings := by
    rw [pings_append, h.pings, List.take_append_of_le_length (Nat.le_refl _),
      List.take_of_length_le (Nat.le_refl _), List.take_of_length_le (by simp)]
    simp [Client.pings, Record.ping?]
  times := h.times

theorem moments (h : Tally a l i rs ps s) (hs : s ≤ ps.length) :
    (Client.pings i rs).map Prod.fst = (List.range s).map a.beat := by
  have first : (ps.take s).map Prod.fst = (List.range s).map a.beat := by
    rw [List.map_take, h.times, ← List.map_take, List.take_range, Nat.min_eq_left hs]
  rw [h.pings, List.map_map]
  exact first

theorem frames (h : Tally a l i rs ps s) {w : Nat × LinkId × Envelope.Outgoing}
    (hw : w ∈ Client.pings i rs) : w.2.1 = l ∧ w.2.2.message = .ping := by
  rw [h.pings] at hw
  obtain ⟨p, _, rfl⟩ := List.mem_map.mp hw
  exact ⟨rfl, rfl⟩

end Tally

/-! ## Where the heartbeat stands -/

/-- The exchange of probe `j`, under the ticket `c`. -/
structure Probing (a : Machine) (j : Nat) (x : Exchange) (c : Ticket) : Prop where
  ticket : x.ticket = some c
  message : x.message = .ping
  timeout : x.timeout = a.interval
  registered : c.registeredAt = a.beat j

/-- The position of a heartbeat at a moment, with the probes that it has issued and how many pings
it has written. -/
inductive Pulse (a : Machine) (k now : Nat) : Position → List (Nat × String) → Nat → Prop
  | starts (h : now = a.now) : Pulse a k now .start [] 0
  | ticks (ps : List (Nat × String)) (hk : ps.length ≤ k) (h : now ≤ a.beat ps.length) :
      Pulse a k now (.ticking ⟨a.interval, a.beat ps.length⟩) ps ps.length
  | queues (ps : List (Nat × String)) (x : Exchange) (c : Ticket) (hk : ps.length ≤ k)
      (hx : Probing a ps.length x c) (h : now = a.beat ps.length) :
      Pulse a k now (.probing ⟨a.interval, a.beat (ps.length + 1)⟩ x .queued)
        (ps ++ [(a.beat ps.length, c.cid)]) ps.length
  | awaits (ps : List (Nat × String)) (x : Exchange) (c : Ticket) (hk : ps.length ≤ k)
      (hx : Probing a ps.length x c) (h : now ≤ a.beat (ps.length + 1)) :
      Pulse a k now (.probing ⟨a.interval, a.beat (ps.length + 1)⟩ x .awaiting)
        (ps ++ [(a.beat ps.length, c.cid)]) (ps.length + 1)

theorem Pulse.written_le {a : Machine} {k now s : Nat} {p : Position} {ps : List (Nat × String)}
    (h : Pulse a k now p ps s) : s ≤ ps.length ∧ s ≤ k + 1 := by
  cases h with
  | starts h => exact ⟨Nat.le_refl 0, Nat.zero_le _⟩
  | ticks ps hk h => exact ⟨Nat.le_refl _, Nat.le_succ_of_le hk⟩
  | queues ps x c hk hx h =>
    exact ⟨by rw [List.length_append]; exact Nat.le_add_right _ _, Nat.le_succ_of_le hk⟩
  | awaits ps x c hk hx h =>
    exact ⟨by rw [List.length_append]; exact Nat.le_refl _, Nat.succ_le_succ hk⟩

namespace Machine

variable {may : Move → Prop} {a m n : Machine} {i : TaskId} {t : Task} {k s : Nat}
  {ps : List (Nat × String)} {v : Move}

/-- While no write stalls, nobody is in the queue where no task can go on. -/
theorem Reachable.unqueued (hm : m.Reachable may) (hq : m.quiet = true) (hf : Fluent m)
    (ht : m.task? i = some t) (draft : Option Envelope.Outgoing) :
    stances t.role t.position ≠ some (.line draft) := by
  intro hs
  obtain ⟨⟨_, ranked, _⟩, _, listed⟩ := watch_invariant.reached hm
  have inLine : i ∈ m.lockQueue := listed i ⟨draft, view_eq_some.mpr ⟨t, ht, hs⟩⟩
  cases hhead : m.lockQueue.head? with
  | none =>
    rw [List.head?_eq_none_iff.mp hhead] at inLine
    cases inLine
  | some j =>
    obtain ⟨d, hd⟩ := quiet_head hm.fit ranked hq hhead
    exact hf j d hd

/-- Time takes a heartbeat no further than its schedule. -/
theorem Reachable.pulse_elapse (hm : m.Reachable may) (hf : Fluent m) (ht : m.task? i = some t)
    (hp : Pulse a k m.now t.position ps s) {ms : Nat} (he : m.mayElapse ms = true) :
    Pulse a k (m.now + ms) t.position ps s := by
  have quiet : m.quiet = true := by
    rw [mayElapse, Bool.and_eq_true] at he
    exact he.1
  have unqueued := fun draft => hm.unqueued quiet hf ht draft
  obtain rfl := findTask_id ht
  have idle := quiet_task quiet ht
  have due := fun d hd => (mayElapse_le hm.fit he ht (d := d) hd).2
  generalize hpos : t.position = pos at hp unqueued
  cases hp with
  | starts h => simp [taskEnabled, hpos] at idle
  | ticks ps hk h => exact .ticks ps hk (due _ (by simp [taskDeadlines, hpos]))
  | queues ps x c hk hx h => exact absurd rfl (unqueued _)
  | awaits ps x c hk hx h =>
    refine .awaits ps x c hk hx ?_
    have deadline := due _ (deadline_of_exchange (by rw [Task.exchange?, hpos]) hx.ticket)
    rw [hx.registered, hx.timeout, ← a.beat_succ] at deadline
    exact deadline

/-- Once a beat is over, its ping is written. -/
theorem Reachable.pulse_through (hm : m.Reachable may) (hf : Fluent m) (ht : m.task? i = some t)
    (hp : Pulse a k m.now t.position ps s) {j : Nat} (hj : m.Through (a.beat j)) : j < s := by
  by_contra hle
  have hle : a.beat s ≤ a.beat j := a.beat_le (Nat.le_of_not_lt hle)
  -- the next beat is not over yet, so this is it and nobody can go on
  have stuck : m.now ≤ a.beat s → m.quiet = true ∧ m.now = a.beat s := by
    intro h
    rcases hj with hj | ⟨hj, hq⟩
    · omega
    · exact ⟨hq, by omega⟩
  obtain rfl := findTask_id ht
  have due : ∀ d ∈ taskDeadlines t, m.quiet = true → m.now < d := fun d hd hq =>
    quiet_deadline (hm.fit.fits _ t ht) (quiet_task hq ht) hd
  generalize hpos : t.position = pos at hp
  cases hp with
  | starts h =>
    obtain ⟨quiet, _⟩ := stuck (by rw [h, beat]; exact Nat.le_add_right _ _)
    have idle := quiet_task quiet ht
    simp [taskEnabled, hpos] at idle
  | ticks ps hk h =>
    obtain ⟨quiet, hnow⟩ := stuck h
    have later := due _ (by rw [taskDeadlines, hpos]; exact .head _) quiet
    exact Nat.ne_of_lt later hnow
  | queues ps x c hk hx h =>
    obtain ⟨quiet, _⟩ := stuck (Nat.le_of_eq h)
    exact hm.unqueued quiet hf ht _ (by rw [hpos]; rfl)
  | awaits ps x c hk hx h =>
    obtain ⟨quiet, hnow⟩ := stuck h
    have later := due _ (deadline_of_exchange (by rw [Task.exchange?, hpos]) hx.ticket) quiet
    rw [hx.registered, hx.timeout, ← a.beat_succ] at later
    exact Nat.ne_of_lt later hnow

/-- A move leaves an open client open, or a teardown of its generation has taken effect. -/
theorem Reachable.closed_by (hm : m.Reachable (fun _ => True)) (h : m.allows v = true)
    (ho : m.state = .open) : (m.after v).generation = m.generation ∧
      ((m.after v).state = .open ∨ (m.after v).state = .closing ∧
        ∃ j td, .closing j td ∈ (m.after v).trace ∧ td.generation = m.generation) := by
  have advance := hm.advance h
  rw [ho] at advance
  have closed : (m.after v).generation = m.generation → (m.after v).state = .closing →
      ∃ j td, .closing j td ∈ (m.after v).trace ∧ td.generation = m.generation := by
    intro hg hs
    obtain ⟨past, now, hch⟩ := (hm.step h trivial).chronicle
    obtain ⟨e, j, td, rfl, hgen, hstage, htd, _⟩ := hch.current_closing hs
    have current : e.generation = (m.after v).generation := hgen
    have affairs : affairs (m.after v).trace = (past ++ [e]).flatMap Era.observations := hch.affairs
    refine ⟨j, td, ?_, htd.trans (current.trans hg)⟩
    exact Era.mem_of_mem affairs (List.mem_append_right _ (.head _)) (Era.closing_mem (.inl hstage))
  generalize (m.after v).state = s' at advance closed
  generalize (m.after v).generation = g' at advance closed
  cases advance with
  | stay => exact ⟨rfl, .inl rfl⟩
  | close => exact ⟨rfl, .inr ⟨rfl, closed rfl rfl⟩⟩

end Machine

/-! ## As long as the link is open -/

/-- The link is open, and its heartbeat `i` keeps to its schedule. -/
structure Beating (a : Machine) (g : Generation) (l : LinkId) (i : TaskId) (k : Nat)
    (m : Machine) : Prop where
  state : m.state = .open
  generation : m.generation = g
  settings : m.settings = a.settings
  fluent : Fluent m
  unclosed : ∀ td, .closing i td ∉ m.trace
  pulse : ∃ t ps s, m.task? i = some t ∧ t.role = .heartbeat g ∧
    Pulse a k m.now t.position ps s ∧ Tally a l i (observed m.history) ps s

namespace Beating

variable {a m : Machine} {g : Generation} {l : LinkId} {i : TaskId} {k : Nat} {v : Move}

theorem interval (hb : Beating a g l i k m) : m.interval = a.interval := by
  rw [Machine.interval, hb.settings]
  rfl

/-- Moves of others, and time, leave the heartbeat where its schedule has it. -/
theorem others (hb : Beating a g l i k m) (hm : m.Reachable (fun _ => True))
    (ho : .opened g l ∈ m.trace) (hl : FallsSilent g l i k m)
    (hl' : FallsSilent g l i k (m.after v)) (h : m.allows v = true) (hv : v ≠ .work (.task i)) :
    Beating a g l i k (m.after v) := by
  have others := Machine.bystander hm.fit h hv
  obtain ⟨rs, hrs, quiet⟩ := others.records
  have unclosed : ∀ td, .closing i td ∉ (m.after v).trace := by
    intro td hmem
    rw [Machine.observed_append hrs] at hmem
    rcases List.mem_append.mp hmem with hmem | hmem
    · exact hb.unclosed td hmem
    · obtain ⟨r, hr, hw⟩ := List.mem_map.mp hmem
      exact quiet r hr (by rw [hw]; rfl)
  obtain ⟨hg, hs⟩ := hm.closed_by h hb.state
  have generation : (m.after v).generation = g := hg.trans hb.generation
  obtain ⟨link, hlink, hmode⟩ := hl.delivers hb.generation (.inl hb.state)
  refine ⟨?_, generation, others.settings.trans hb.settings,
    hm.fluent (.inl hb.state) (hb.generation ▸ ho) hlink hmode hb.fluent h, unclosed, ?_⟩
  · rcases hs with hs | ⟨_, j, td, hmem, htd⟩
    · exact hs
    · obtain rfl := hl'.alone j td hmem (htd.trans hb.generation)
      exact absurd hmem (unclosed td)
  · obtain ⟨t, ps, s, ht, hr, hp, htally⟩ := hb.pulse
    obtain ⟨u, hu, hrole, hpos, _⟩ := others.stays t ht
    refine ⟨u, ps, s, hu, hrole.trans hr, ?_, hrs ▸ htally.others quiet⟩
    rw [hpos]
    rcases Machine.after_now hm.fit h with hnow | ⟨ms, he, hafter⟩
    · rw [hnow]
      exact hp
    · rw [hafter]
      exact hm.pulse_elapse hb.fluent ht hp he

theorem moved {t : Task} {p : Position} {os : List Observation} {n : Machine}
    {ps : List (Nat × String)} {s : Nat} (hb : Beating a g l i k m) (ht : t.id = i)
    (hr : t.role = .heartbeat g) (h : Machine.Moved m t p os n) (ho : ∀ td, .closing i td ∉ os)
    (hf : Fluent n) (hp : Pulse a k m.now p ps s)
    (ht' : Tally a l i (observed m.history ++ os.map (Record.mk m.now)) ps s) :
    Beating a g l i k n where
  state := h.state.trans hb.state
  generation := h.generation.trans hb.generation
  settings := h.settings.trans hb.settings
  fluent := hf
  unclosed := by
    intro td hmem
    rw [Machine.observed_append h.seen] at hmem
    rcases List.mem_append.mp hmem with hmem | hmem
    · exact hb.unclosed td hmem
    · exact ho td (by simpa [Function.comp_def] using hmem)
  pulse := ⟨{ t with position := p }, ps, s, ht ▸ h.task, hr, h.now ▸ hp, h.seen ▸ ht'⟩

/-- What the registry has for the probe that is under way is its first answer. -/
theorem poll {t : Task} {c : Ticket} {rs : List Record} (hb : Beating a g l i k m)
    (hm : m.Reachable (fun _ => True)) (ho : .opened g l ∈ a.trace)
    (hrs : observed m.history = observed a.history ++ rs)
    (hnew : ∀ r ∈ observed a.history, r.what.actor? ≠ some i) (ht : m.task? i = some t)
    (hc : t.ticket? = some c) {μ : Nat} (hp : (μ, c.cid) ∈ probes i (observed m.history)) :
    m.registry.poll c.cid = (firstReply c.cid (observed m.history)).map Prod.snd := by
  refine hm.poll_first hb.state (hb.generation ▸ ho) hrs ht hc fun j hj => ?_
  have issued : .issued i c.cid ∈ m.trace := List.mem_map_of_mem (mem_probes.mp hp)
  have earlier : .issued j c.cid ∈ m.trace := by
    rw [Machine.observed_append hrs]
    exact List.mem_append_left _ hj
  obtain rfl := hm.issuer_eq issued earlier
  obtain ⟨r, hr, hw⟩ := List.mem_map.mp hj
  exact hnew r hr (by rw [hw]; rfl)

/-! ## The steps of the schedule -/

section
variable {t : Task} (hb : Beating a g l t.id k m) (ht : m.task? t.id = some t)
  (ha : t.aborted = false) (hr : t.role = .heartbeat g) (hf : Fluent (m.run (.task t.id)))
  {ps : List (Nat × String)} {x : Exchange} {c : Ticket}
include hb ht ha hr hf

theorem start (hp : t.position = .start) (hn : m.now = a.now)
    (h : Tally a l t.id (observed m.history) [] 0) : Beating a g l t.id k (m.run (.task t.id)) := by
  have step := Machine.run_heartbeat ht ha hr hp
  refine hb.moved rfl hr step (by simp) hf ?_ (h.append rfl rfl)
  have first : a.beat 0 = m.now + m.interval := by
    rw [hn, hb.interval, Machine.beat, Nat.zero_add, Nat.one_mul]
  rw [hb.interval, Heartbeat.Ticker.start, ← hb.interval, ← first, hb.interval]
  exact .ticks [] (Nat.zero_le k) (by rw [List.length_nil, first]; omega)

theorem tick (hc : m.isCancelled g = false) (he : m.taskEnabled t = true)
    (hp : t.position = .ticking ⟨a.interval, a.beat ps.length⟩) (hk : ps.length ≤ k)
    (hn : m.now ≤ a.beat ps.length) (h : Tally a l t.id (observed m.history) ps ps.length) :
    Beating a g l t.id k (m.run (.task t.id)) := by
  have due : m.now = a.beat ps.length := by
    simp only [Machine.taskEnabled, ha, hr, hp, hc, Heartbeat.Ticker.isDue, Bool.false_or,
      decide_eq_true_eq] at he
    omega
  obtain ⟨x, c, hx, hmsg, htimeout, hreg, step⟩ := Machine.run_tick ht ha hr hp hc hb.state
  have next : (Heartbeat.Ticker.consume ⟨a.interval, a.beat ps.length⟩ m.now) =
      ⟨a.interval, a.beat (ps.length + 1)⟩ := by
    rw [Heartbeat.Ticker.consume, if_neg (by dsimp only; omega), a.beat_succ]
  rw [next] at step
  refine hb.moved rfl hr step (by simp) hf (.queues ps x c hk
    ⟨hx, hmsg, htimeout.trans hb.interval, hreg.trans due⟩ due) ?_
  rw [due]
  exact h.issue c.cid

theorem written (hm : m.Reachable (fun _ => True)) (ho : .opened g l ∈ m.trace)
    (hl : FallsSilent g l t.id k m) (hx : Probing a ps.length x c)
    (hp : t.position = .probing ⟨a.interval, a.beat (ps.length + 1)⟩ x .queued)
    (hk : ps.length ≤ k) (hn : m.now = a.beat ps.length)
    (h : Tally a l t.id (observed m.history) (ps ++ [(a.beat ps.length, c.cid)]) ps.length) :
    Beating a g l t.id k (m.run (.task t.id)) := by
  have alive := hl.kept hb.generation hb.state
  obtain ⟨link, hlink, hmode⟩ := hl.delivers hb.generation (.inl hb.state)
  obtain ⟨_, hlink', hserver⟩ := hl.present hb.generation hb.state
  cases hlink.symm.trans hlink'
  obtain ⟨hwriter, k', hk', hopen⟩ := hm.writes ho alive
  cases hlink.symm.trans hk'
  have step := Machine.run_written ht ha hr hp alive hx.ticket hwriter hlink hmode hserver hopen
  refine hb.moved rfl hr step (by simp) hf (.awaits ps x c hk hx ?_) ?_
  · rw [hn, a.beat_succ]
    omega
  · have frame : Machine.frameOf x = ⟨some c.cid, .ping⟩ := by
      rw [Machine.frameOf, hx.ticket, hx.message]
      rfl
    rw [frame, hn]
    exact h.write

/-- A ping that has an answer lets the heartbeat tick on: it is one of the first `k`. Where the
time is up without one, it is the ping after those. -/
theorem awaited (hc : m.isCancelled g = false) (hl : FallsSilent g l t.id k m)
    (hx : Probing a ps.length x c)
    (hpoll : m.registry.poll c.cid = (firstReply c.cid (observed m.history)).map Prod.snd)
    (hmoment : ∀ r ∈ observed m.history, r.moment ≤ m.now)
    (he : (m.registry.wait c x.timeout m.now).isSome = true)
    (hp : t.position = .probing ⟨a.interval, a.beat (ps.length + 1)⟩ x .awaiting)
    (hk : ps.length ≤ k) (hn : m.now ≤ a.beat (ps.length + 1))
    (h : Tally a l t.id (observed m.history) (ps ++ [(a.beat ps.length, c.cid)])
      (ps.length + 1)) :
    Beating a g l t.id k (m.run (.task t.id)) ∨ m.now = a.beat (k + 1) ∧ ps.length = k ∧
      ∃ f, Machine.Begun m t g [.answered t.id c.cid (.error f)] (m.run (.task t.id)) := by
  have listed : (probes t.id (observed m.history))[ps.length]? =
      some (a.beat ps.length, c.cid) := by
    rw [h.probes]
    simp
  have deadline : Registry.deadline c x.timeout = a.beat (ps.length + 1) := by
    rw [Registry.deadline, hx.registered, hx.timeout, a.beat_succ]
  have bound : a.beat ps.length + m.interval = a.beat (ps.length + 1) := by
    rw [hb.interval, a.beat_succ]
  unfold Registry.wait at he
  rw [hpoll] at he
  cases hfirst : firstReply c.cid (observed m.history) with
  | none =>
    -- the time is up, and the ping is not one of those that are answered in time
    rw [hfirst, Option.map_none] at he
    have up : a.beat (ps.length + 1) ≤ m.now := by
      by_contra hlt
      simp [deadline, hlt] at he
    have last : ps.length = k := by
      by_contra hne
      have answered := (hl.answered ps.length _ _ (by omega) listed).2 (bound ▸ up)
      exact answered hfirst
    have failed : m.registry.wait c x.timeout m.now =
        some (.error (.timeout c.cid x.timeout)) := by
      unfold Registry.wait
      rw [hpoll, hfirst]
      exact if_pos (deadline ▸ up)
    exact .inr ⟨by rw [← last]; omega, last, _,
      Machine.run_failed ht ha hr hp hc hx.ticket failed hb.generation hb.state⟩
  | some reply =>
    obtain ⟨s, o⟩ := reply
    by_cases hlt : ps.length < k
    · left
      obtain ⟨_, e, rfl⟩ := (hl.answered ps.length _ _ hlt listed).1 s o hfirst
      have answered : m.registry.wait c x.timeout m.now = some (.ok e) := by
        unfold Registry.wait
        rw [hpoll, hfirst]
        rfl
      have step := Machine.run_answered ht ha hr hp hc hx.ticket answered
      have length : (ps ++ [(a.beat ps.length, c.cid)]).length = ps.length + 1 := by simp
      refine hb.moved rfl hr step (by simp) hf ?_ ((length ▸ h).append rfl rfl)
      rw [← length]
      exact .ticks _ (by rw [length]; exact hlt) (by rw [length]; exact hn)
    · exfalso
      have last : ps.length = k := by omega
      have late := hl.silent _ _ s o (last ▸ listed) hfirst
      obtain ⟨r, hr, rfl⟩ := moment_of_firstReply hfirst
      have early := hmoment r hr
      rw [last] at bound hn
      omega

end

/-- The heartbeat's own step keeps to its schedule, or ends the link when the time for the answer
to ping `k` is up. -/
theorem own {rs : List Record} (hb : Beating a g l i k m) (hm : m.Reachable (fun _ => True))
    (ho : .opened g l ∈ a.trace) (hrs : observed m.history = observed a.history ++ rs)
    (hnew : ∀ r ∈ observed a.history, r.what.actor? ≠ some i) (hl : FallsSilent g l i k m)
    (h : m.allows (.work (.task i)) = true) :
    Beating a g l i k (m.after (.work (.task i))) ∨
      m.now = a.beat (k + 1) ∧ ∃ t f c ps, m.task? i = some t ∧ t.role = .heartbeat g ∧
        ps.length = k + 1 ∧ Tally a l i (observed m.history) ps (k + 1) ∧
        Machine.Begun m t g [.answered i c (.error f)] (m.after (.work (.task i))) := by
  have opened : .opened g l ∈ m.trace := by
    rw [Machine.observed_append hrs]
    exact List.mem_append_left _ ho
  have alive := hl.kept hb.generation hb.state
  obtain ⟨link, hlink, hmode⟩ := hl.delivers hb.generation (.inl hb.state)
  have fluent : Fluent (m.after (.work (.task i))) :=
    hm.fluent (.inl hb.state) (hb.generation ▸ opened) hlink hmode hb.fluent h
  obtain ⟨t, ps, s, ht, hr, hp, htally⟩ := hb.pulse
  obtain rfl := findTask_id ht
  have ha := hm.fit.not_aborted ht (by rw [Task.isOperation, hr])
  have enabled : m.taskEnabled t = true := by
    have h : m.enabled (.task t.id) = true := h
    rw [Machine.enabled, ht] at h
    exact h
  generalize hpos : t.position = pos at hp
  cases hp with
  | starts hn => exact .inl (hb.start ht ha hr fluent hpos hn htally)
  | ticks ps hk hn => exact .inl (hb.tick ht ha hr fluent alive enabled hpos hk hn htally)
  | queues ps x c hk hx hn =>
    exact .inl (hb.written ht ha hr fluent hm opened hl hx hpos hk hn htally)
  | awaits ps x c hk hx hn =>
    have probed : (a.beat ps.length, c.cid) ∈ probes t.id (observed m.history) := by
      rw [htally.probes]
      simp
    have poll := hb.poll hm ho hrs hnew ht (by rw [Task.ticket?, hpos]; exact hx.ticket) probed
    have ready : (m.registry.wait c x.timeout m.now).isSome = true := by
      simpa [Machine.taskEnabled, ha, hr, hpos, alive, Machine.exchangeReady, hx.ticket]
        using enabled
    rcases hb.awaited ht ha hr fluent alive hl hx poll (fun _ hr => hm.moment_le hr) ready hpos hk
      hn htally with hb | ⟨hnow, last, f, hbegun⟩
    · exact .inl hb
    · exact .inr ⟨hnow, t, f, c.cid, ps ++ [(a.beat ps.length, c.cid)], ht, hr, by simp [last],
        last ▸ htally, hbegun⟩

end Beating

end GameLink.Client
