import GameLink.Proofs.Session.Renewal
import GameLink.Proofs.Client.Admission

/-! # When a session has expired

The server chooses when a token expires. Whatever number it sends is clamped into the
signed 64-bit range, whose ends are both taken. The checks of a session subtract the time
from the expiry; time is not negative, so what can be left is the range below, and it is
left exactly where the expiry is less than the time above the least number
(`Overflow.sub_time`). There the checks fault instead of answering that the token has
expired, and so does a connect, which begins with one of them. Whether to refresh is asked
by an addition to the time, which faults nowhere.
-/
namespace GameLink

/-! ## Arithmetic in range -/

namespace Overflow

theorem inRange_iff {n : Int} :
    inRange n = true ↔ Decimal.minInt64 ≤ n ∧ n ≤ Decimal.maxInt64 := by
  simp [inRange]

theorem inRange_clamp (n : Int) :
    inRange (max Decimal.minInt64 (min Decimal.maxInt64 n)) = true := by
  have ends : Decimal.minInt64 ≤ Decimal.maxInt64 := by decide
  exact inRange_iff.mpr ⟨Int.le_max_left .., Int.max_le.mpr ⟨ends, Int.min_le_left ..⟩⟩

theorem sub_time {e now : Int} (he : inRange e = true) (hnow : 0 ≤ now) :
    sub e now = if Decimal.minInt64 + now ≤ e then .ok (e - now) else .error .subtraction := by
  obtain ⟨_, high⟩ := inRange_iff.mp he
  have fits : inRange (e - now) = true ↔ Decimal.minInt64 + now ≤ e := by
    rw [inRange_iff]
    omega
  simp only [sub, fits]

/-- An expiry has passed if the time that is left is negative. -/
theorem past_time {e now : Int} (he : inRange e = true) (hnow : 0 ≤ now) :
    (sub e now).map (fun left => decide (left < 0)) =
      if Decimal.minInt64 + now ≤ e then .ok (decide (e < now)) else .error .subtraction := by
  have passed : e - now < 0 ↔ e < now := by omega
  rw [sub_time he hnow]
  split
  · simp only [Except.map, passed]
  · rfl

theorem add_time {now buffer : Int} (hnow : 0 ≤ now) (hbuffer : 0 ≤ buffer)
    (room : buffer ≤ Decimal.maxInt64 - now) : add now buffer = .ok (now + buffer) := by
  have least : Decimal.minInt64 ≤ 0 := by decide
  exact if_pos (inRange_iff.mpr ⟨by omega, by omega⟩)

end Overflow

/-! ## Expiries are in range -/

theorem ok_of_bind {ε α β : Type} {x : Except ε α} {f : α → Except ε β} {b : β}
    (h : x >>= f = .ok b) : ∃ a, x = .ok a ∧ f a = .ok b := by
  cases x with
  | error e => cases h
  | ok a => exact ⟨a, rfl, h⟩

namespace Claims

theorem inRange_seconds (n : Number) : Overflow.inRange (seconds n) = true := by
  cases n with
  | int n => exact Overflow.inRange_clamp n
  | float x => exact Overflow.inRange_clamp _

theorem inRange_expiry {members : Entries Json} {e : Int} (h : expiry members = .ok e) :
    Overflow.inRange e = true := by
  unfold expiry at h
  split at h <;> cases h
  exact inRange_seconds _

theorem inRange_decode {token : String} {c : Claims} (h : decode token = .ok c) :
    Overflow.inRange c.expiresAt = true := by
  obtain ⟨_, _, h⟩ := ok_of_bind h
  obtain ⟨_, _, h⟩ := ok_of_bind h
  obtain ⟨_, expires, h⟩ := ok_of_bind h
  obtain ⟨_, _, h⟩ := ok_of_bind h
  obtain ⟨_, _, h⟩ := ok_of_bind h
  obtain ⟨_, _, h⟩ := ok_of_bind h
  cases h
  exact inRange_expiry expires

/-- The empty text is no token. -/
theorem decode_nonempty {token : String} {c : Claims} (h : decode token = .ok c) : token ≠ "" := by
  rintro rfl
  cases h

end Claims

namespace Session

theorem latest_eq {α : Type} (pick : Grant → Option α) (gs : List Grant) (initial : α) :
    latest pick gs initial = initial ∨ ∃ g ∈ gs, pick g = some (latest pick gs initial) := by
  unfold latest
  cases h : (gs.filterMap pick).getLast? with
  | none => exact .inl rfl
  | some a => exact .inr (List.mem_filterMap.mp (List.mem_of_getLast? h))

variable {created : Bool} {birth : Int} {gs : List Grant} {s : Session}

theorem Follows.inRange_expiresAt (h : Follows created birth gs s) :
    Overflow.inRange s.expiresAt = true := by
  rw [h.expiresAt]
  rcases latest_eq (fun g => some g.access.expiresAt) gs 0 with none | ⟨g, _, last⟩
  · rw [none]
    rfl
  · rw [← Option.some.inj last]
    exact Claims.inRange_decode g.access_reads

theorem Renewed.inRange_refreshExpiresAt (h : Renewed gs s) :
    Overflow.inRange s.refreshExpiresAt = true := by
  unfold Renewed at h
  split at h
  · rw [h.2]
    rfl
  · obtain ⟨-, c, decodes, expires⟩ := h
    rw [expires]
    exact Claims.inRange_decode decodes

end Session

/-! ## A connect -/

namespace Client

/-- How a connect of task `i` begins: it is refused, it dials, or its check of the expiry faults. -/
inductive Machine.Begins (i : TaskId) (session : Session) (m n : Machine) : Prop
  | refused (computes : Decimal.minInt64 + m.clock ≤ session.expiresAt)
    (refuses : ¬m.Admits session) (reason : String)
    (quiet : Unobtrusive i m [.finished i (.failed (.connection reason))] n)
  | dials (computes : Decimal.minInt64 + m.clock ≤ session.expiresAt) (admits : m.Admits session)
    (online : Bool) (deadline : Nat) (stage : DialStage) (t : Task) (there : n.task? i = some t)
    (dialing : t.position = .dialing (m.generation + 1)
      (Link.address m.settings.server session.token online) deadline stage)
  | faults (short : session.expiresAt < Decimal.minInt64 + m.clock)
    (quiet : Unobtrusive i m [.finished i (.overflow .subtraction)] n)

namespace Machine

variable {m : Machine} {t : Task} {session : Session}

theorem run_begins (ht : m.task? t.id = some t) (ha : t.aborted = false) {op : Operation}
    (hr : t.role = .operation op) (hp : t.position = .start)
    (presents : Presents m.clock session op) (token : session.token ≠ "")
    (expiry : Overflow.inRange session.expiresAt = true) (hclock : 0 ≤ m.clock) :
    Begins t.id session m (m.run (.task t.id)) := by
  have check : session.accessExpired m.clock = _ := Overflow.past_time expiry hclock
  by_cases computes : Decimal.minInt64 + m.clock ≤ session.expiresAt
  · rw [if_pos computes] at check
    by_cases admits : m.Admits session
    · obtain ⟨_, _, _, u, online, deadline, stage, there, dialing⟩ :=
        after_admitted ht ha hr hp presents admits
      exact .dials computes admits online deadline stage u there dialing
    · obtain ⟨reason, quiet, _⟩ := after_refused ht ha hr hp presents (.inr ⟨_, check⟩) admits
      exact .refused computes admits reason quiet
  · rw [if_neg computes] at check
    obtain ⟨history, online, same, first⟩ := run_presents ht ha hr hp presents
    have faulted : m.run (.task t.id) =
        { m with history := history }.finish t.id (.overflow .subtraction) := by
      rw [first]
      simp [beginConnect, token, check]
    rw [faulted]
    exact .faults (by omega) (((Unobtrusive.refl t.id _).finish _).of_logged same)

end Machine

end Client

/-! ## A session that has started -/

namespace Session

open Client

/-- What a session answers about its expiry when the clock shows `now`. -/
structure Timed (s : Session) (now : Int) : Prop where
  accessExpired : s.accessExpired now =
    if Decimal.minInt64 + now ≤ s.expiresAt then .ok (s.expiresAt < now) else .error .subtraction
  refreshExpired : s.refreshExpired now =
    if Decimal.minInt64 + now ≤ s.refreshExpiresAt then .ok (s.refreshExpiresAt < now)
    else .error .subtraction
  expiresIn : s.expiresIn now =
    if Decimal.minInt64 + now ≤ s.expiresAt then .ok (s.expiresAt - now) else .error .subtraction
  shouldRefresh : ∀ buffer, 0 ≤ buffer → buffer ≤ Decimal.maxInt64 - now →
    s.shouldRefresh now buffer = .ok (s.expiresAt ≤ now + buffer)
  connect : ∀ (m : Machine) (t : Task) (op : Operation), m.clock = now →
    m.task? t.id = some t → t.aborted = false → t.role = .operation op → Presents now s op →
    t.position = .start → m.Begins t.id s (m.run (.task t.id))

theorem timed_of_start {first : Tokens} {created : Bool} {birth now : Int} {s : Session}
    (h : start first.token first.refreshToken created birth = .ok s) (calls : List Tokens)
    (hnow : 0 ≤ now) : Timed (s.after calls) now := by
  obtain ⟨⟨g, hg⟩, follows⟩ := follows_of_start h calls
  have access := follows.inRange_expiresAt
  have refresh := follows.refresh.inRange_refreshExpiresAt
  have token : (s.after calls).token ≠ "" := by
    have granted : grants (first :: calls) ≠ [] := by simp [grants, hg]
    exact Claims.decode_nonempty (follows.access (List.getLast?_eq_some_getLast granted)).2.1
  exact {
    accessExpired := Overflow.past_time access hnow
    refreshExpired := Overflow.past_time refresh hnow
    expiresIn := Overflow.sub_time access hnow
    shouldRefresh := by
      intro buffer hbuffer room
      rw [shouldRefresh, Overflow.add_time hnow hbuffer room]
      rfl
    connect := by
      rintro m t op rfl ht ha hr presents hp
      exact Machine.run_begins ht ha hr hp presents token access hnow }

/-- A session whose access token expires at the least 64-bit number. -/
def ancient : Session :=
  ⟨"h.eyJleHAiOi05MjIzMzcyMDM2ODU0Nzc1ODA4fQ.s", "", Decimal.minInt64, 0, 0, false, "", "", .empty⟩

theorem start_ancient :
    start ancient.tokens.token ancient.tokens.refreshToken false 0 = .ok ancient :=
  eq_ok_of_toOption (by decide +kernel)

/-- In the first second of 1970 it is still known to have expired. -/
theorem timed_ancient : Timed (ancient.after []) 0 ∧ ancient.accessExpired 0 = .ok true :=
  ⟨timed_of_start start_ancient [] (Int.le_refl 0), by decide⟩

/-- Ever after it is not, and a connect with it is neither refused nor dials. -/
theorem ancient_faults :
    start ancient.tokens.token ancient.tokens.refreshToken false 0 = .ok ancient ∧
      (∀ now, 0 < now → ancient.expiresAt < now ∧
        ancient.accessExpired now = .error .subtraction ∧
        ancient.expiresIn now = .error .subtraction) ∧
      (Machine.fresh.replay (Machine.steps 0 1 (.connect ancient none))).trace =
        [.started 0 (.connect ancient none), .finished 0 (.overflow .subtraction)] := by
  refine ⟨start_ancient, fun now hnow => ?_, rfl⟩
  have range : Overflow.inRange ancient.expiresAt = true := by decide
  have short : ¬Decimal.minInt64 + now ≤ ancient.expiresAt := by
    simp only [ancient]
    omega
  refine ⟨?_, (Overflow.past_time range (Int.le_of_lt hnow)).trans (if_neg short),
    (Overflow.sub_time range (Int.le_of_lt hnow)).trans (if_neg short)⟩
  exact Int.lt_trans (by decide) hnow

end Session

end GameLink
