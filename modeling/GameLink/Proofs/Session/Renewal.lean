import Mathlib.Data.List.Induction
import GameLink.Session.Basic

/-! # What a session keeps of its tokens

The holder of a session applies one token pair after the other. A pair whose
tokens both decode is a grant; any other leaves the session as it was. A grant
changes the access token and its expiry always, the refresh token and its expiry
where there is one, and each identity claim where the access token carries it.
So every field holds the last value that the grants give for it.
-/
namespace GameLink.Session

/-! ## One call -/

/-- Applies a pair to a session that its holder keeps, one assignment after the other. Where it
fails, the session stays as the assignments before that have made it. -/
def renew (p : Tokens) : ExceptT TokenError (StateM Session) Unit := do
  let access ← ExceptT.mk (pure (Claims.decode p.token))
  let refresh ← ExceptT.mk (pure (refreshClaims p.refreshToken))
  modify fun s => { s with token := p.token }
  modify fun s => { s with expiresAt := access.expiresAt }
  if let some userId := access.userId then
    modify fun s => { s with userId := userId }
  if let some username := access.username then
    modify fun s => { s with username := username }
  if let some vars := access.vars then
    modify fun s => { s with vars := vars }
  if let some claims := refresh then
    modify fun s => { s with refreshToken := p.refreshToken }
    modify fun s => { s with refreshExpiresAt := claims.expiresAt }

/-- Whatever can fail comes before the first assignment. -/
theorem renew_run (p : Tokens) (s : Session) :
    (renew p).run s =
      match s.apply p.token p.refreshToken with
      | .ok t => (.ok (), t)
      | .error e => (.error e, s) := by
  unfold renew apply
  cases Claims.decode p.token with
  | error e => rfl
  | ok access =>
    cases refreshClaims p.refreshToken with
    | error e => rfl
    | ok refresh =>
      obtain ⟨expiresAt, userId, username, vars⟩ := access
      cases userId <;> cases username <;> cases vars <;> cases refresh <;> rfl

/-- The session after calls, whatever they returned. -/
def after (s : Session) (calls : List Tokens) : Session :=
  calls.foldl (fun s p => ((renew p).run s).2) s

/-! ## Grants -/

/-- A pair that is accepted, with the claims of its tokens. -/
structure Grant where
  pair : Tokens
  access : Claims
  refresh : Option Claims
  access_reads : Claims.decode pair.token = .ok access
  refresh_reads : refreshClaims pair.refreshToken = .ok refresh

def Tokens.grant? (p : Tokens) : Option Grant :=
  match ha : Claims.decode p.token, hr : refreshClaims p.refreshToken with
  | .ok access, .ok refresh => some ⟨p, access, refresh, ha, hr⟩
  | _, _ => none

/-- The calls that succeed. -/
def grants (calls : List Tokens) : List Grant := calls.filterMap Tokens.grant?

/-- A grant that brings a refresh token. -/
def Grant.renews (g : Grant) : Bool := !g.pair.refreshToken.isEmpty

/-- The last value that `pick` finds in the grants, and `initial` if it finds none. -/
def latest {α : Type} (pick : Grant → Option α) (gs : List Grant) (initial : α) : α :=
  (gs.filterMap pick).getLast?.getD initial

theorem latest_append_one {α : Type} (pick : Grant → Option α) (gs : List Grant) (g : Grant)
    (initial : α) : latest pick (gs ++ [g]) initial = (pick g).getD (latest pick gs initial) := by
  cases h : pick g <;> simp [latest, h]

/-- A grant has claims of a refresh token exactly if it brings one. -/
theorem Grant.refresh_spec (g : Grant) :
    g.refresh.isSome = g.renews ∧
      ∀ c, g.refresh = some c → Claims.decode g.pair.refreshToken = .ok c := by
  have h := g.refresh_reads
  unfold refreshClaims at h
  by_cases hempty : g.pair.refreshToken.isEmpty = true
  · rw [if_pos hempty] at h
    rw [← Except.ok.inj h]
    exact ⟨by simp [renews, hempty], by simp⟩
  · rw [if_neg hempty] at h
    cases hd : Claims.decode g.pair.refreshToken with
    | error e => rw [hd] at h; cases h
    | ok c =>
      rw [hd] at h
      rw [← Except.ok.inj h]
      exact ⟨by simp [renews, hempty], by simp⟩

/-! ## A call by what it is granted -/

theorem renew_granted {p : Tokens} {g : Grant} (h : p.grant? = some g) (s : Session) :
    (renew p).run s = (.ok (), s.absorb p.token p.refreshToken g.access g.refresh) := by
  have hp : s.apply p.token p.refreshToken
      = .ok (s.absorb p.token p.refreshToken g.access g.refresh) := by
    unfold Tokens.grant? at h
    split at h
    · rename_i access refresh ha hr
      cases h
      simp only [apply, ha, hr]
      rfl
    · cases h
  rw [renew_run, hp]

theorem renew_refused {p : Tokens} (h : p.grant? = none) (s : Session) :
    ∃ e, (renew p).run s = (.error e, s) := by
  have hp : ∃ e, s.apply p.token p.refreshToken = .error e := by
    unfold Tokens.grant? at h
    split at h
    · cases h
    · rename_i hne
      unfold apply
      cases ha : Claims.decode p.token with
      | error e => exact ⟨e, rfl⟩
      | ok access =>
        cases hr : refreshClaims p.refreshToken with
        | error e => exact ⟨e, rfl⟩
        | ok refresh => exact absurd hr (hne access refresh ha)
  obtain ⟨e, he⟩ := hp
  exact ⟨e, by rw [renew_run, he]⟩

theorem grant?_pair {p : Tokens} {g : Grant} (h : p.grant? = some g) : g.pair = p := by
  unfold Tokens.grant? at h
  split at h <;> cases h
  rfl

/-- A session that starts is a blank one after its first pair. -/
theorem start_eq_ok {first : Tokens} {created : Bool} {now : Int} {s : Session}
    (h : start first.token first.refreshToken created now = .ok s) :
    (∃ g, first.grant? = some g) ∧ s = (blank created now).after [first] := by
  have hrun := renew_run first (blank created now)
  rw [show (blank created now).apply first.token first.refreshToken = .ok s from h] at hrun
  refine ⟨?_, by rw [after, List.foldl_cons, List.foldl_nil, hrun]⟩
  cases hg : first.grant? with
  | some g => exact ⟨g, rfl⟩
  | none =>
    obtain ⟨e, he⟩ := renew_refused hg (blank created now)
    rw [he] at hrun
    cases hrun

/-! ## Histories -/

theorem after_append_one (s : Session) (calls : List Tokens) (p : Tokens) :
    s.after (calls ++ [p]) = ((renew p).run (s.after calls)).2 := by
  simp [after]

/-- Refresh token and expiry are those of the last grant that brought a refresh token. -/
def Renewed (gs : List Grant) (s : Session) : Prop :=
  match (gs.filter Grant.renews).getLast? with
  | none => s.refreshToken = "" ∧ s.refreshExpiresAt = 0
  | some g => s.refreshToken = g.pair.refreshToken ∧
      ∃ c, Claims.decode g.pair.refreshToken = .ok c ∧ s.refreshExpiresAt = c.expiresAt

theorem Renewed.absorb {gs : List Grant} {s : Session} (h : Renewed gs s) (g : Grant) :
    Renewed (gs ++ [g]) (s.absorb g.pair.token g.pair.refreshToken g.access g.refresh) := by
  obtain ⟨hsome, hreads⟩ := g.refresh_spec
  cases hr : g.refresh with
  | none =>
    have hrenews : g.renews = false := by rw [← hsome, hr]; rfl
    have hlast : (gs ++ [g]).filter Grant.renews = gs.filter Grant.renews := by simp [hrenews]
    unfold Renewed
    rw [hlast]
    exact h
  | some c =>
    have hrenews : g.renews = true := by rw [← hsome, hr]; rfl
    have hlast : ((gs ++ [g]).filter Grant.renews).getLast? = some g := by simp [hrenews]
    unfold Renewed
    rw [hlast]
    exact ⟨rfl, c, hreads c hr, rfl⟩

/-- A session that holds the last value of each kind that was granted. -/
structure Follows (created : Bool) (now : Int) (gs : List Grant) (s : Session) : Prop where
  token : s.token = latest (fun g => some g.pair.token) gs ""
  expiresAt : s.expiresAt = latest (fun g => some g.access.expiresAt) gs 0
  refresh : Renewed gs s
  userId : s.userId = latest (fun g => g.access.userId) gs ""
  username : s.username = latest (fun g => g.access.username) gs ""
  vars : s.vars = latest (fun g => g.access.vars) gs .empty
  created : s.created = created
  createdAt : s.createdAt = now

section
variable {created : Bool} {now : Int}

theorem Follows.blank : Follows created now [] (blank created now) :=
  ⟨rfl, rfl, ⟨rfl, rfl⟩, rfl, rfl, rfl, rfl, rfl⟩

theorem Follows.absorb {gs : List Grant} {s : Session} (h : Follows created now gs s) (g : Grant) :
    Follows created now (gs ++ [g])
      (s.absorb g.pair.token g.pair.refreshToken g.access g.refresh) where
  token := by rw [latest_append_one]; rfl
  expiresAt := by rw [latest_append_one]; rfl
  refresh := h.refresh.absorb g
  userId := by rw [latest_append_one, ← h.userId]; rfl
  username := by rw [latest_append_one, ← h.username]; rfl
  vars := by rw [latest_append_one, ← h.vars]; rfl
  created := h.created
  createdAt := h.createdAt

/-- Calls keep a session in step with the grants among them. -/
theorem follows_after (calls : List Tokens) :
    Follows created now (grants calls) ((Session.blank created now).after calls) := by
  induction calls using List.reverseRecOn with
  | nil => exact .blank
  | append_singleton calls p ih =>
    rw [after_append_one]
    cases hg : p.grant? with
    | none =>
      obtain ⟨e, he⟩ := renew_refused hg ((Session.blank created now).after calls)
      have hgrants : grants (calls ++ [p]) = grants calls := by simp [grants, hg]
      rw [he, hgrants]
      exact ih
    | some g =>
      have hgrants : grants (calls ++ [p]) = grants calls ++ [g] := by simp [grants, hg]
      rw [renew_granted hg, hgrants, ← grant?_pair hg]
      exact ih.absorb g

/-- A session that starts has its first pair granted, and is then in step with all grants. -/
theorem follows_of_start {first : Tokens} {s : Session}
    (h : start first.token first.refreshToken created now = .ok s) (calls : List Tokens) :
    (∃ g, first.grant? = some g) ∧
      Follows created now (grants (first :: calls)) (s.after calls) := by
  obtain ⟨granted, rfl⟩ := start_eq_ok h
  have hcalls : ((Session.blank created now).after [first]).after calls =
      (Session.blank created now).after (first :: calls) := rfl
  rw [hcalls]
  exact ⟨granted, follows_after (first :: calls)⟩

end

/-! ## What its holder sees -/

/-- What is true of a session after `calls`, the pair that it was started with the first of them,
in terms of the calls that succeeded. -/
structure Kept (created : Bool) (now : Int) (calls : List Tokens) (s : Session) : Prop where
  /-- A call succeeds if both its tokens decode, and a call that fails changes nothing. -/
  succeeds : ∀ p, ((renew p).run s).1 = .ok () ↔ p.grant?.isSome
  unchanged : ∀ p e t, (renew p).run s = (.error e, t) → t = s
  /-- The access token is that of the last call that succeeded, and so is the expiry. -/
  access : ∃ g, (grants calls).getLast? = some g ∧ s.token = g.pair.token ∧
    Claims.decode s.token = .ok g.access ∧ s.expiresAt = g.access.expiresAt
  refresh : Renewed (grants calls) s
  /-- Identity claims are those of the last access token that carried them. -/
  userId : s.userId = latest (fun g => g.access.userId) (grants calls) ""
  username : s.username = latest (fun g => g.access.username) (grants calls) ""
  vars : s.vars = latest (fun g => g.access.vars) (grants calls) .empty
  created : s.created = created
  createdAt : s.createdAt = now

theorem renew_succeeds_iff (p : Tokens) (s : Session) :
    ((renew p).run s).1 = .ok () ↔ p.grant?.isSome := by
  cases hg : p.grant? with
  | none =>
    obtain ⟨e, he⟩ := renew_refused hg s
    simp [he]
  | some g => simp [renew_granted hg]

theorem renew_unchanged {p : Tokens} {s t : Session} {e : TokenError}
    (h : (renew p).run s = (.error e, t)) : t = s := by
  cases hg : p.grant? with
  | none =>
    obtain ⟨e', he⟩ := renew_refused hg s
    rw [he] at h
    exact (congrArg Prod.snd h).symm
  | some g =>
    rw [renew_granted hg] at h
    cases congrArg Prod.fst h

theorem Follows.access {created : Bool} {now : Int} {gs : List Grant} {s : Session}
    (h : Follows created now gs s) {g : Grant} (hg : gs.getLast? = some g) :
    s.token = g.pair.token ∧ Claims.decode s.token = .ok g.access ∧
      s.expiresAt = g.access.expiresAt := by
  have htoken : s.token = g.pair.token := by rw [h.token]; simp [latest, hg]
  have hexpires : s.expiresAt = g.access.expiresAt := by rw [h.expiresAt]; simp [latest, hg]
  exact ⟨htoken, htoken ▸ g.access_reads, hexpires⟩

/-- Every field of a session holds what the successful calls gave it last. Identity is read from
access tokens only: sessions whose access tokens carried the same claims show the same identity,
whatever their refresh tokens were. -/
theorem kept_of_start {first : Tokens} {created : Bool} {now : Int} {s : Session}
    (h : start first.token first.refreshToken created now = .ok s) (calls : List Tokens) :
    Kept created now (first :: calls) (s.after calls) ∧
      ∀ (first' : Tokens) (created' : Bool) (now' : Int) (s' : Session) (calls' : List Tokens),
        start first'.token first'.refreshToken created' now' = .ok s' →
        (grants (first' :: calls')).map Grant.access = (grants (first :: calls)).map Grant.access →
        (s'.after calls').userId = (s.after calls).userId ∧
          (s'.after calls').username = (s.after calls).username ∧
          (s'.after calls').vars = (s.after calls).vars := by
  obtain ⟨⟨g, hg⟩, follows⟩ := follows_of_start h calls
  constructor
  · have hne : grants (first :: calls) ≠ [] := by simp [grants, hg]
    have hlast := List.getLast?_eq_some_getLast hne
    exact {
      succeeds := fun p => renew_succeeds_iff p _
      unchanged := fun _ _ _ => renew_unchanged
      access := ⟨_, hlast, follows.access hlast⟩
      refresh := follows.refresh
      userId := follows.userId
      username := follows.username
      vars := follows.vars
      created := follows.created
      createdAt := follows.createdAt }
  · intro first' created' now' s' calls' h' haccess
    have follows' := (follows_of_start h' calls').2
    have hlatest : ∀ {α : Type} (pick : Claims → Option α) (initial : α),
        latest (fun g => pick g.access) (grants (first' :: calls')) initial =
          latest (fun g => pick g.access) (grants (first :: calls)) initial := by
      intro α pick initial
      have hpicked := congrArg (List.filterMap pick) haccess
      rw [List.filterMap_map, List.filterMap_map] at hpicked
      exact congrArg (fun vs => vs.getLast?.getD initial) hpicked
    exact ⟨by rw [follows'.userId, follows.userId, hlatest],
      by rw [follows'.username, follows.username, hlatest],
      by rw [follows'.vars, follows.vars, hlatest]⟩

theorem eq_ok_of_toOption {ε α : Type} {e : Except ε α} {a : α} (h : e.toOption = some a) :
    e = .ok a := by
  cases e with
  | error f => cases h
  | ok b => cases h; rfl

/-- The second call fails on its refresh token, after its access token has been read. The refresh
token that is kept carries a username, which the session does not take. -/
theorem kept_after_failure :
    start "h.eyJleHAiOjEsInVpZCI6InUifQ.s" "h.eyJleHAiOjIsInVzbiI6Im4ifQ.s" true 7 =
        .ok ⟨"h.eyJleHAiOjEsInVpZCI6InUifQ.s", "h.eyJleHAiOjIsInVzbiI6Im4ifQ.s", 1, 2, 7, true, "u",
          "", .empty⟩ ∧
      Kept true 7
        [⟨"h.eyJleHAiOjEsInVpZCI6InUifQ.s", "h.eyJleHAiOjIsInVzbiI6Im4ifQ.s"⟩,
          ⟨"h.eyJleHAiOjIsInVzbiI6Im4ifQ.s", "no token"⟩, ⟨"h.eyJleHAiOjMsInVpZCI6IngifQ.s", ""⟩]
        ⟨"h.eyJleHAiOjMsInVpZCI6IngifQ.s", "h.eyJleHAiOjIsInVzbiI6Im4ifQ.s", 3, 2, 7, true, "x", "",
          .empty⟩ := by
  have hstart : (start "h.eyJleHAiOjEsInVpZCI6InUifQ.s" "h.eyJleHAiOjIsInVzbiI6Im4ifQ.s" true
      7).toOption = some ⟨"h.eyJleHAiOjEsInVpZCI6InUifQ.s", "h.eyJleHAiOjIsInVzbiI6Im4ifQ.s", 1, 2,
        7, true, "u", "", .empty⟩ := by decide +kernel
  have hafter : Session.after
      ⟨"h.eyJleHAiOjEsInVpZCI6InUifQ.s", "h.eyJleHAiOjIsInVzbiI6Im4ifQ.s", 1, 2, 7, true, "u", "",
        .empty⟩
      [⟨"h.eyJleHAiOjIsInVzbiI6Im4ifQ.s", "no token"⟩, ⟨"h.eyJleHAiOjMsInVpZCI6IngifQ.s", ""⟩] =
      ⟨"h.eyJleHAiOjMsInVpZCI6IngifQ.s", "h.eyJleHAiOjIsInVzbiI6Im4ifQ.s", 3, 2, 7, true, "x", "",
        .empty⟩ := by decide +kernel
  have kept := (@kept_of_start
    ⟨"h.eyJleHAiOjEsInVpZCI6InUifQ.s", "h.eyJleHAiOjIsInVzbiI6Im4ifQ.s"⟩ true 7 _
    (eq_ok_of_toOption hstart)
    [⟨"h.eyJleHAiOjIsInVzbiI6Im4ifQ.s", "no token"⟩, ⟨"h.eyJleHAiOjMsInVpZCI6IngifQ.s", ""⟩]).1
  exact ⟨eq_ok_of_toOption hstart, hafter ▸ kept⟩

end GameLink.Session
