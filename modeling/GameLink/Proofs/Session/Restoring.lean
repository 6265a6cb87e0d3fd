import GameLink.Proofs.Session.Renewal
import GameLink.Proofs.Json.Written

/-! # What stored tokens give back

A session is kept as its two tokens. They tell both expiries, and of the
identity what the access token at hand carries: a claim that an earlier access
token brought and this one leaves out is known to the session but not to a
restored one.
-/
namespace GameLink.Session

/-! ## Tokens as text -/

theorem Tokens.toJson_integral (t : Tokens) : t.toJson.Integral := ⟨trivial, trivial, trivial⟩

/-- Stored tokens are read back, whatever characters they have. -/
theorem Tokens.ofText_toText (t : Tokens) : Tokens.ofText t.toText = .ok t := by
  rw [Tokens.ofText, Tokens.toText, Json.Reading.ofBytes_render _ t.toJson_integral]
  rfl

/-! ## Restoring -/

/-- The whole state that is decoded from tokens. -/
structure Reproduces (s r : Session) : Prop where
  token : r.token = s.token
  refreshToken : r.refreshToken = s.refreshToken
  expiresAt : r.expiresAt = s.expiresAt
  refreshExpiresAt : r.refreshExpiresAt = s.refreshExpiresAt
  userId : r.userId = s.userId
  username : r.username = s.username
  vars : r.vars = s.vars

/-- `r` has the tokens and expiries of `s`, and of its identity what the claims of the access token
carry. So it has a part of the identity of `s` exactly if the access token carries it, or there is
nothing to carry. -/
structure Recovers (access : Claims) (s r : Session) : Prop where
  token : r.token = s.token
  refreshToken : r.refreshToken = s.refreshToken
  expiresAt : r.expiresAt = s.expiresAt
  refreshExpiresAt : r.refreshExpiresAt = s.refreshExpiresAt
  userId : r.userId = access.userId.getD ""
  username : r.username = access.username.getD ""
  vars : r.vars = access.vars.getD .empty
  userId_kept : r.userId = s.userId ↔ access.userId.isSome ∨ s.userId = ""
  username_kept : r.username = s.username ↔ access.username.isSome ∨ s.username = ""
  vars_kept : r.vars = s.vars ↔ access.vars.isSome ∨ s.vars = .empty

theorem latest_of_getLast? {α : Type} {pick : Grant → Option α} {gs : List Grant} {g : Grant}
    (h : gs.getLast? = some g) {a : α} (ha : pick g = some a) (initial : α) :
    latest pick gs initial = a := by
  obtain ⟨earlier, rfl⟩ := List.getLast?_eq_some_iff.mp h
  rw [latest_append_one, ha, Option.getD_some]

/-- A claim that the last grant leaves out is found again exactly if it has no value. -/
theorem getD_eq_latest_iff {α : Type} (pick : Grant → Option α) {gs : List Grant} {g : Grant}
    (h : gs.getLast? = some g) (initial : α) :
    (pick g).getD initial = latest pick gs initial ↔
      (pick g).isSome ∨ latest pick gs initial = initial := by
  cases ha : pick g with
  | some a => simp [latest_of_getLast? h ha]
  | none => simp [eq_comm]

/-- The refresh token of a session is empty, or one that decodes to its expiry. -/
theorem Renewed.claims {gs : List Grant} {s : Session} (h : Renewed gs s) :
    ∃ refresh, refreshClaims s.refreshToken = .ok refresh ∧
      (if refresh.isSome then s.refreshToken else "") = s.refreshToken ∧
      (refresh.map Claims.expiresAt).getD 0 = s.refreshExpiresAt := by
  unfold Renewed at h
  split at h
  · obtain ⟨htoken, hexpires⟩ := h
    exact ⟨none, by rw [htoken]; rfl, by rw [htoken]; rfl, by rw [hexpires]; rfl⟩
  · rename_i g hlast
    obtain ⟨htoken, c, hdecode, hexpires⟩ := h
    have hrenews : g.renews = true := (List.mem_filter.mp (List.mem_of_getLast? hlast)).2
    have hne : g.pair.refreshToken.isEmpty = false := by simpa [Grant.renews] using hrenews
    refine ⟨some c, ?_, if_pos rfl, hexpires.symm⟩
    rw [htoken, refreshClaims, hne, hdecode]
    rfl

/-- A session in step with its grants can be restored. -/
theorem Follows.restore {created : Bool} {now : Int} {gs : List Grant} {s : Session}
    (h : Follows created now gs s) {g : Grant} (hg : gs.getLast? = some g) (now' : Int) :
    ∃ r, Session.restore s.token s.refreshToken now' = .ok r ∧ Recovers g.access s r ∧
      r.created = false ∧ r.createdAt = now' := by
  obtain ⟨htoken, hdecode, hexpires⟩ := h.access hg
  obtain ⟨refresh, hrefresh, hkept, hrefreshExpires⟩ := h.refresh.claims
  refine ⟨(Session.blank false now').absorb s.token s.refreshToken g.access refresh, ?_, ?_, rfl,
    rfl⟩
  · simp only [Session.restore, start, apply, hdecode, hrefresh]
    rfl
  · exact {
      token := rfl
      refreshToken := hkept
      expiresAt := hexpires.symm
      refreshExpiresAt := hrefreshExpires
      userId := rfl
      username := rfl
      vars := rfl
      userId_kept := by
        rw [h.userId]
        exact getD_eq_latest_iff (fun g => g.access.userId) hg ""
      username_kept := by
        rw [h.username]
        exact getD_eq_latest_iff (fun g => g.access.username) hg ""
      vars_kept := by
        rw [h.vars]
        exact getD_eq_latest_iff (fun g => g.access.vars) hg .empty }

/-- Whatever a session went through, its tokens can be stored and read back, and give a session with
the same tokens and expiries, and the identity that the access token carries. -/
theorem restored_of_start {first : Tokens} {created : Bool} {now : Int} {s : Session}
    (h : start first.token first.refreshToken created now = .ok s) (calls : List Tokens)
    (now' : Int) :
    ∃ kept access r, Tokens.ofText (s.after calls).tokens.toText = .ok kept ∧
      Claims.decode (s.after calls).token = .ok access ∧
      restore kept.token kept.refreshToken now' = .ok r ∧ Recovers access (s.after calls) r ∧
      r.created = false ∧ r.createdAt = now' := by
  obtain ⟨⟨g, hg⟩, follows⟩ := follows_of_start h calls
  have hne : grants (first :: calls) ≠ [] := by simp [grants, hg]
  have hlast := List.getLast?_eq_some_getLast hne
  obtain ⟨r, hr, recovers, hcreated⟩ := follows.restore hlast now'
  exact ⟨_, _, r, Tokens.ofText_toText _, (follows.access hlast).2.1, hr, recovers, hcreated⟩

/-- The user id is that of the second access token, which is stored; the username came with the
first and is lost. -/
theorem restored_after_refresh :
    start "h.eyJleHAiOjIsInVzbiI6Im4ifQ.s" "" true 7 =
        .ok ⟨"h.eyJleHAiOjIsInVzbiI6Im4ifQ.s", "", 2, 0, 7, true, "", "n", .empty⟩ ∧
      ∃ kept access r,
        Tokens.ofText (tokens ⟨"h.eyJleHAiOjMsInVpZCI6IngifQ.s", "h.eyJleHAiOjEsInVpZCI6InUifQ.s",
          3, 1, 7, true, "x", "n", .empty⟩).toText = .ok kept ∧
        Claims.decode "h.eyJleHAiOjMsInVpZCI6IngifQ.s" = .ok access ∧
        restore kept.token kept.refreshToken 9 = .ok r ∧
        Recovers access ⟨"h.eyJleHAiOjMsInVpZCI6IngifQ.s", "h.eyJleHAiOjEsInVpZCI6InUifQ.s", 3, 1,
          7, true, "x", "n", .empty⟩ r ∧
        r.created = false ∧ r.createdAt = 9 := by
  have hstart : (start "h.eyJleHAiOjIsInVzbiI6Im4ifQ.s" "" true 7).toOption =
      some ⟨"h.eyJleHAiOjIsInVzbiI6Im4ifQ.s", "", 2, 0, 7, true, "", "n", .empty⟩ := by
    decide +kernel
  have hafter : Session.after
      ⟨"h.eyJleHAiOjIsInVzbiI6Im4ifQ.s", "", 2, 0, 7, true, "", "n", .empty⟩
      [⟨"h.eyJleHAiOjMsInVpZCI6IngifQ.s", "h.eyJleHAiOjEsInVpZCI6InUifQ.s"⟩] =
      ⟨"h.eyJleHAiOjMsInVpZCI6IngifQ.s", "h.eyJleHAiOjEsInVpZCI6InUifQ.s", 3, 1, 7, true, "x", "n",
        .empty⟩ := by decide +kernel
  have restored := @restored_of_start ⟨"h.eyJleHAiOjIsInVzbiI6Im4ifQ.s", ""⟩ true 7 _
    (eq_ok_of_toOption hstart)
    [⟨"h.eyJleHAiOjMsInVpZCI6IngifQ.s", "h.eyJleHAiOjEsInVpZCI6InUifQ.s"⟩] 9
  rw [hafter] at restored
  exact ⟨eq_ok_of_toOption hstart, restored⟩

/-- A session is not restored as a whole: here the stored access token carries no user id, and the
session has that of the token before. -/
theorem userId_not_reproduced :
    ¬ ∀ (first : Tokens) (created : Bool) (now : Int) (s : Session) (calls : List Tokens)
      (now' : Int), start first.token first.refreshToken created now = .ok s →
      ∃ kept r, Tokens.ofText (s.after calls).tokens.toText = .ok kept ∧
        restore kept.token kept.refreshToken now' = .ok r ∧ Reproduces (s.after calls) r := by
  intro reproduced
  have hstart : (start "h.eyJleHAiOjEsInVpZCI6InUifQ.s" "" true 7).toOption =
      some ⟨"h.eyJleHAiOjEsInVpZCI6InUifQ.s", "", 1, 0, 7, true, "u", "", .empty⟩ := by
    decide +kernel
  have hafter : Session.after
      ⟨"h.eyJleHAiOjEsInVpZCI6InUifQ.s", "", 1, 0, 7, true, "u", "", .empty⟩
      [⟨"h.eyJleHAiOjIsInVzbiI6Im4ifQ.s", ""⟩] =
      ⟨"h.eyJleHAiOjIsInVzbiI6Im4ifQ.s", "", 2, 0, 7, true, "u", "n", .empty⟩ := by decide +kernel
  have hrestore : (restore "h.eyJleHAiOjIsInVzbiI6Im4ifQ.s" "" 7).toOption =
      some ⟨"h.eyJleHAiOjIsInVzbiI6Im4ifQ.s", "", 2, 0, 7, false, "", "n", .empty⟩ := by
    decide +kernel
  obtain ⟨kept, r, hkept, hr, same⟩ := reproduced ⟨"h.eyJleHAiOjEsInVpZCI6InUifQ.s", ""⟩ true 7 _
    [⟨"h.eyJleHAiOjIsInVzbiI6Im4ifQ.s", ""⟩] 7 (eq_ok_of_toOption hstart)
  rw [hafter] at hkept same
  rw [Tokens.ofText_toText] at hkept
  obtain rfl := Except.ok.inj hkept
  have hvalue := (congrArg Except.toOption hr).symm.trans hrestore
  obtain rfl := Option.some.inj hvalue
  exact absurd same.userId (by decide)

end GameLink.Session
