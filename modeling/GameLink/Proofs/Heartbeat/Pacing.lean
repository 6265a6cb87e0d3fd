import Mathlib.Tactic.Ring
import GameLink.Heartbeat.Basic

/-! # The pace of a heartbeat

`start?` says when the probe at each place of a script starts, as long as nothing stops
the heartbeat before. It knows neither the cancellation nor the end of the watch: these
only decide which of those starts come about (`Goes.calls_iff`), namely the ones that the
way is clear up to. So every law of the pace is a law of `start?`, by induction on the
script or on the place in it, and a cancellation can only shorten the list of calls.
A run ends at its first failing probe (`Goes.fails`) or is cut short (`Goes.is_cut`).
-/
namespace GameLink.Heartbeat

variable {cancel : Option Nat} {limit now moment : Nat} {t : Ticker} {probes : List Probe}

/-- Nothing stops a heartbeat up to and including `moment`. -/
def Clear (cancel : Option Nat) (limit moment : Nat) : Prop :=
  moment ≤ limit ∧ ∀ c, cancel = some c → moment < c

/-- How a heartbeat ends that is cut short. -/
def cut (cancel : Option Nat) (limit : Nat) : Result × Nat :=
  match cancel with
  | some c => if c ≤ limit then (.cancelled, c) else (.running, limit)
  | none => (.running, limit)

theorem Clear.mono {later : Nat} (h : Clear cancel limit later) (le : moment ≤ later) :
    Clear cancel limit moment :=
  ⟨le.trans h.1, fun c hc => le.trans_lt (h.2 c hc)⟩

theorem clear_some {c : Nat} :
    Clear (some c) limit moment ↔ moment < c ∧ Clear none limit moment := by
  simp [Clear, and_comm]

theorem interrupted_clear (h : Clear cancel limit moment) :
    interrupted cancel limit moment = none := by
  obtain ⟨le, before⟩ := h
  cases cancel with
  | none => simp [interrupted, le]
  | some c =>
    have := before c rfl
    simp only [interrupted]
    grind

theorem interrupted_not_clear (h : ¬Clear cancel limit moment) :
    interrupted cancel limit moment = some (cut cancel limit) := by
  cases cancel with
  | none =>
    have : limit < moment := by simpa [Clear] using h
    simp [interrupted, cut, this]
  | some c =>
    have : moment ≤ limit → c ≤ moment := by simpa [Clear] using h
    simp only [interrupted, cut]
    grind

theorem waitForever_eq : waitForever cancel limit = cut cancel limit := by
  have : ¬Clear cancel limit (limit + 1) := fun h => absurd h.1 (by omega)
  simp [waitForever, interrupted_not_clear this]

theorem cut_ne_failed (f : Failure) : (cut cancel limit).1 ≠ .failed f := by
  cases cancel <;> simp only [cut] <;> grind

/-! ## The schedule -/

/-- When the probe at place `k` of the script starts, if nothing stops the heartbeat before. -/
def start? : Ticker → Nat → List Probe → Nat → Option Nat
  | t, now, _, 0 => some (max now t.next)
  | t, now, .ends after (.ok _) :: rest, k + 1 =>
    start? (t.consume (max now t.next)) (max now t.next + after) rest k
  | _, _, _, _ + 1 => none

/-- All probes before place `k` answer. -/
def Answered (probes : List Probe) (k : Nat) : Prop :=
  ∀ j < k, ∃ after, probes[j]? = some (.ends after (.ok ()))

theorem answered_cons {after k : Nat} {rest : List Probe} :
    Answered (.ends after (.ok ()) :: rest) (k + 1) ↔ Answered rest k := by
  refine ⟨fun h j hj => h (j + 1) (by omega), fun h j hj => ?_⟩
  cases j with
  | zero => exact ⟨after, rfl⟩
  | succ j => exact h j (by omega)

/-- A probe has its place in the schedule as soon as all before it answer. -/
theorem start?_isSome {k : Nat} : (start? t now probes k).isSome ↔ Answered probes k := by
  fun_induction start? t now probes k with
  | case1 => simp [Answered]
  | case2 _ _ _ _ _ _ ih => rw [ih, answered_cons]
  | case3 t now probes k other =>
    refine ⟨fun h => by simp at h, fun h => ?_⟩
    obtain ⟨after, first⟩ := h 0 (by omega)
    obtain ⟨rest, rfl⟩ : ∃ rest, probes = .ends after (.ok ()) :: rest := by
      cases probes with
      | nil => simp at first
      | cons p rest => exact ⟨rest, by simpa using first⟩
    exact absurd rfl (other after () rest)

theorem start?_le {k s : Nat} (h : start? t now probes k = some s) : max now t.next ≤ s := by
  fun_induction start? t now probes k with
  | case1 => exact (Option.some.inj h).le
  | case2 _ _ _ _ _ _ ih => exact (Nat.le_add_right ..).trans ((Nat.le_max_left ..).trans (ih h))
  | case3 => simp at h

/-- No probe starts before the first one has ended. -/
theorem start?_after {k s : Nat} (h : start? t now probes (k + 1) = some s) :
    ∃ after, probes.head? = some (.ends after (.ok ())) ∧ max now t.next + after ≤ s := by
  match probes, h with
  | .ends after (.ok _) :: rest, h =>
    exact ⟨after, rfl, (Nat.le_max_left ..).trans (start?_le h)⟩

/-- A tick that comes late moves the next one along, up to the tolerance. -/
theorem consume_next (t : Ticker) (now : Nat) :
    now + t.period ≤ (t.consume now).next + Ticker.tolerance := by
  simp only [Ticker.consume]
  split <;> omega

theorem start?_apart {k s s' : Nat} (h : start? t now probes k = some s)
    (h' : start? t now probes (k + 1) = some s') :
    ∃ after, probes[k]? = some (.ends after (.ok ())) ∧ s + after ≤ s' ∧
      s + t.period ≤ s' + Ticker.tolerance := by
  fun_induction start? t now probes k with
  | case1 t now probes =>
    obtain rfl := Option.some.inj h
    match probes, h' with
    | .ends after (.ok _) :: rest, h' =>
      obtain rfl := Option.some.inj h'
      have := consume_next t (max now t.next)
      exact ⟨after, rfl, Nat.le_max_left .., by omega⟩
  | case2 t now after u rest k ih => exact ih h h'
  | case3 => simp at h

/-- Without drift: as long as every probe answers before the next tick, the ticks stay
where the first one put them. -/
theorem start?_onTime {k : Nat} (h : now ≤ t.next)
    (answered : ∀ j < k, ∃ after ≤ t.period, probes[j]? = some (.ends after (.ok ()))) :
    start? t now probes k = some (t.next + k * t.period) := by
  induction k generalizing t now probes with
  | zero => simp [start?, Nat.max_eq_right h]
  | succ k ih =>
    obtain ⟨after, le, first⟩ := answered 0 (by omega)
    match probes, first with
    | _ :: rest, first =>
      obtain rfl := Option.some.inj first
      have tick : t.consume t.next = { t with next := t.next + t.period } := by
        simp [Ticker.consume]
      have next : start? { t with next := t.next + t.period } (t.next + after) rest k =
          some (t.next + t.period + k * t.period) :=
        ih (by simp only; omega) fun j hj => answered (j + 1) (by omega)
      rw [start?, Nat.max_eq_right h, tick, next, Option.some.injEq]
      ring

/-! ## What a run makes of it -/

/-- How a heartbeat goes on from `now`: it is stopped before its next probe or during it,
or the probe fails, or the probe answers and it goes on from there. -/
inductive Goes (cancel : Option Nat) (limit : Nat) : Ticker → Nat → List Probe → Run → Prop
  | barred {t : Ticker} {now : Nat} {probes : List Probe}
    (stopped : ¬Clear cancel limit (max now t.next)) :
    Goes cancel limit t now probes ⟨(cut cancel limit).1, (cut cancel limit).2, [], []⟩
  | left {t : Ticker} {now : Nat} {probes : List Probe}
    (clear : Clear cancel limit (max now t.next))
    (stopped : ∀ after outcome, probes.head? = some (.ends after outcome) →
      ¬Clear cancel limit (max now t.next + after)) :
    Goes cancel limit t now probes
      ⟨(cut cancel limit).1, (cut cancel limit).2, [max now t.next], []⟩
  | failed {t : Ticker} {now after : Nat} {f : Failure} {rest : List Probe}
    (clear : Clear cancel limit (max now t.next + after)) :
    Goes cancel limit t now (.ends after (.error f) :: rest)
      ⟨.failed f, max now t.next + after, [max now t.next], [failedNote f]⟩
  | answered {t : Ticker} {now after : Nat} {rest : List Probe} {more : Run}
    (clear : Clear cancel limit (max now t.next + after))
    (onward : Goes cancel limit (t.consume (max now t.next)) (max now t.next + after) rest more) :
    Goes cancel limit t now (.ends after (.ok ()) :: rest)
      { more with calls := max now t.next :: more.calls, log := okNote :: more.log }

theorem goes_unanswered (endless : ∀ after outcome, probes.head? ≠ some (.ends after outcome)) :
    Goes cancel limit t now probes (unanswered cancel limit (max now t.next)) := by
  by_cases clear : Clear cancel limit (max now t.next)
  · rw [unanswered, interrupted_clear clear, waitForever_eq]
    exact .left clear fun after outcome h => absurd h (endless after outcome)
  · rw [unanswered, interrupted_not_clear clear]
    exact .barred clear

theorem runFrom_goes : Goes cancel limit t now probes (runFrom cancel limit t now probes) := by
  induction probes generalizing t now with
  | nil => exact goes_unanswered (by simp)
  | cons p rest ih =>
    match p with
    | .hangs => exact goes_unanswered (by simp)
    | .ends after outcome =>
      -- A way that is clear up to the end of the probe is clear up to its start.
      by_cases ends : Clear cancel limit (max now t.next + after)
      · have begins := ends.mono (Nat.le_add_right (max now t.next) after)
        cases outcome with
        | error f =>
          simp only [runFrom, interrupted_clear begins, interrupted_clear ends]
          exact .failed ends
        | ok _ =>
          simp only [runFrom, interrupted_clear begins, interrupted_clear ends]
          exact .answered ends ih
      · have stopped := interrupted_not_clear ends
        by_cases begins : Clear cancel limit (max now t.next)
        · simp only [runFrom, interrupted_clear begins, stopped]
          exact .left begins fun after' outcome' h => by
            obtain ⟨rfl, -⟩ : after = after' ∧ outcome = outcome' := by simpa using h
            exact ends
        · simp only [runFrom, interrupted_not_clear begins]
          exact .barred begins

variable {r : Run}

/-- The calls of a run are the starts of the schedule that the way is clear up to. -/
theorem Goes.calls_iff {k s : Nat} (h : Goes cancel limit t now probes r) :
    r.calls[k]? = some s ↔ start? t now probes k = some s ∧ Clear cancel limit s := by
  induction h generalizing k with
  | barred stopped =>
    refine ⟨fun h => by simp at h, fun ⟨h, clear⟩ => absurd (clear.mono (start?_le h)) stopped⟩
  | @left t now probes clear stopped =>
    cases k with
    | zero => simpa [start?] using fun h => h ▸ clear
    | succ k =>
      refine ⟨fun h => by simp at h, fun ⟨h, clear⟩ => ?_⟩
      obtain ⟨after, first, le⟩ := start?_after h
      exact absurd (clear.mono le) (stopped after _ first)
  | @failed t now after f rest clear =>
    cases k with
    | zero => simpa [start?] using fun h => h ▸ clear.mono (Nat.le_add_right ..)
    | succ k => simp [start?]
  | @answered t now after rest more clear onward ih =>
    cases k with
    | zero => simpa [start?] using fun h => h ▸ clear.mono (Nat.le_add_right ..)
    | succ k => simpa [start?] using ih

/-- A probe is the first to fail if it fails and all before it answer. -/
structure FirstFailure (probes : List Probe) (k after : Nat) (f : Failure) : Prop where
  fails : probes[k]? = some (.ends after (.error f))
  answered : Answered probes k

theorem FirstFailure.tail {p : Probe} {rest : List Probe} {k after : Nat} {f : Failure}
    (h : FirstFailure (p :: rest) (k + 1) after f) : FirstFailure rest k after f :=
  ⟨h.fails, fun j hj => h.answered (j + 1) (by omega)⟩

theorem Goes.fails {k after s : Nat} {f : Failure} (h : Goes cancel limit t now probes r)
    (first : FirstFailure probes k after f) (starts : start? t now probes k = some s)
    (clear : Clear cancel limit (s + after)) :
    r.result = .failed f ∧ r.stopped = s + after ∧ r.calls.length = k + 1 := by
  induction h generalizing k with
  | barred stopped =>
    exact absurd (clear.mono ((start?_le starts).trans (Nat.le_add_right ..))) stopped
  | @left t now probes begins stopped =>
    cases k with
    | zero =>
      obtain rfl := Option.some.inj starts
      exact absurd clear (stopped after _ (List.head?_eq_getElem? ▸ first.fails))
    | succ k =>
      obtain ⟨after', head, le⟩ := start?_after starts
      exact absurd (clear.mono (le.trans (Nat.le_add_right ..))) (stopped after' _ head)
  | @failed t now after' f' rest clear' =>
    cases k with
    | zero =>
      obtain ⟨rfl, rfl⟩ : after' = after ∧ f' = f := by simpa using first.fails
      obtain rfl := Option.some.inj starts
      exact ⟨rfl, rfl, rfl⟩
    | succ k => simp [start?] at starts
  | @answered t now after' rest more clear' onward ih =>
    cases k with
    | zero => simpa using first.fails
    | succ k => simpa using ih first.tail starts

theorem Goes.is_cut (h : Goes cancel limit t now probes r)
    (spared : ∀ k after f s, FirstFailure probes k after f → start? t now probes k = some s →
      ¬Clear cancel limit (s + after)) : (r.result, r.stopped) = cut cancel limit := by
  induction h with
  | barred => rfl
  | left => rfl
  | @failed t now after f rest clear =>
    exact absurd clear (spared 0 after f _ ⟨rfl, fun j hj => absurd hj (by omega)⟩ rfl)
  | answered clear onward ih =>
    exact ih fun k after f s first starts =>
      spared (k + 1) after f s ⟨first.fails, answered_cons.mpr first.answered⟩ starts

/-! ## The pace of a run -/

/-- The pace of a heartbeat that starts at 0, whatever its probes do, however it is
cancelled and for how long it is watched. -/
structure Paced (interval : Nat) (probes : List Probe) : Prop where
  /-- Every probe has its turn if all before it answer; only what stops the heartbeat
  keeps it from its start. -/
  turn : ∀ k, Answered probes k → ∃ s, ∀ cancel limit, ∀ s' : Nat,
    (run interval cancel limit probes).calls[k]? = some s' ↔ s' = s ∧ Clear cancel limit s
  /-- The first probe starts one interval after the heartbeat and the others at its
  multiples, as long as all before them answer within the interval. -/
  onTime : ∀ k, (∀ j < k, ∃ after ≤ interval, probes[j]? = some (.ends after (.ok ()))) →
    ∀ cancel limit, ∀ s : Nat, (run interval cancel limit probes).calls[k]? = some s ↔
      s = (k + 1) * interval ∧ Clear cancel limit s
  /-- A probe starts when the one before it has answered, and not before the interval
  has passed since that one started, up to the tolerance. -/
  apart : ∀ cancel limit, ∀ k s s' : Nat, (run interval cancel limit probes).calls[k]? = some s →
    (run interval cancel limit probes).calls[k + 1]? = some s' →
    ∃ after, probes[k]? = some (.ends after (.ok ())) ∧ s + after ≤ s' ∧
      s + interval ≤ s' + Ticker.tolerance
  /-- The first failing probe ends the heartbeat when it fails, with its own failure. -/
  fails : ∀ k after f, FirstFailure probes k after f → ∃ s, ∀ cancel limit,
    Clear cancel limit (s + after) →
      (run interval cancel limit probes).result = .failed f ∧
      (run interval cancel limit probes).stopped = s + after ∧
      (run interval cancel limit probes).calls.length = k + 1 ∧
      (run interval cancel limit probes).calls[k]? = some s
  /-- Nothing else makes it fail. -/
  failed : ∀ cancel limit f, (run interval cancel limit probes).result = .failed f →
    ∃ k after, FirstFailure probes k after f ∧
      (run interval cancel limit probes).calls.length = k + 1
  /-- A cancellation that comes no later than the heartbeat returns ends it at once;
  the probes started are those that would have started before. -/
  cancelled : ∀ limit c : Nat, c ≤ limit → c ≤ (run interval none limit probes).stopped →
    (run interval (some c) limit probes).result = .cancelled ∧
    (run interval (some c) limit probes).stopped = c ∧
    ∀ k s : Nat, (run interval (some c) limit probes).calls[k]? = some s ↔
      (run interval none limit probes).calls[k]? = some s ∧ s < c

theorem run_goes {interval : Nat} (pos : 0 < interval) :
    Goes cancel limit ⟨interval, interval⟩ 0 probes (run interval cancel limit probes) := by
  have start : Ticker.start 0 interval = ⟨interval, interval⟩ := by simp [Ticker.start]
  rw [run, if_neg (by omega), start]
  exact runFrom_goes

theorem run_paced {interval : Nat} (pos : 0 < interval) (probes : List Probe) :
    Paced interval probes where
  turn k answered := by
    obtain ⟨s, starts⟩ : ∃ s, start? ⟨interval, interval⟩ 0 probes k = some s :=
      Option.isSome_iff_exists.mp (start?_isSome.mpr answered)
    refine ⟨s, fun cancel limit s' => ?_⟩
    rw [(run_goes pos).calls_iff, starts, Option.some.injEq]
    grind
  onTime k answered cancel limit s := by
    rw [(run_goes pos).calls_iff, start?_onTime (Nat.zero_le _) answered, Option.some.injEq]
    grind
  apart cancel limit k s s' h h' :=
    start?_apart ((run_goes pos).calls_iff.mp h).1 ((run_goes pos).calls_iff.mp h').1
  fails k after f first := by
    obtain ⟨s, starts⟩ : ∃ s, start? ⟨interval, interval⟩ 0 probes k = some s :=
      Option.isSome_iff_exists.mp (start?_isSome.mpr first.answered)
    refine ⟨s, fun cancel limit clear => ?_⟩
    obtain ⟨result, stopped, length⟩ := (run_goes pos).fails first starts clear
    exact ⟨result, stopped, length,
      (run_goes pos).calls_iff.mpr ⟨starts, clear.mono (Nat.le_add_right ..)⟩⟩
  failed cancel limit f result := by
    obtain ⟨k, after, g, s, first, starts, clear⟩ : ∃ k after g s, FirstFailure probes k after g ∧
        start? ⟨interval, interval⟩ 0 probes k = some s ∧ Clear cancel limit (s + after) := by
      by_contra none
      push Not at none
      exact cut_ne_failed f ((congrArg Prod.fst ((run_goes pos).is_cut none)).symm.trans result)
    obtain ⟨ends, -, length⟩ := (run_goes pos).fails first starts clear
    obtain rfl : g = f := Result.failed.inj (ends.symm.trans result)
    exact ⟨k, after, first, length⟩
  cancelled limit c le early := by
    -- A run that is not cancelled fails at the same place, hence no earlier than `c`.
    have goes : Goes (some c) limit ⟨interval, interval⟩ 0 probes
        (run interval (some c) limit probes) := run_goes pos
    have short := goes.is_cut fun k after f s first starts clear => by
      obtain ⟨before, clear⟩ := clear_some.mp clear
      have := ((run_goes pos).fails first starts clear).2.1
      omega
    simp only [cut, if_pos le, Prod.mk.injEq] at short
    refine ⟨short.1, short.2, fun k s => ?_⟩
    rw [(run_goes pos).calls_iff, (run_goes pos).calls_iff, clear_some]
    tauto

/-- A second probe that takes two and a half intervals, and a third one that fails. -/
def overrun : List Probe :=
  [.ends 30 (.ok ()), .ends 250 (.ok ()), .ends 10 (.error .heartbeatTimeout)]

theorem overrun_paced : 0 < 100 ∧ Paced 100 overrun ∧
    (run 100 none 1000 overrun).result = .failed .heartbeatTimeout ∧
    (run 100 none 1000 overrun).calls = [100, 200, 450] ∧
    (run 100 (some 200) 1000 overrun).result = .cancelled ∧
    (run 100 (some 200) 1000 overrun).calls = [100] :=
  ⟨by decide, run_paced (by decide) overrun, by decide, by decide, by decide, by decide⟩

end GameLink.Heartbeat
