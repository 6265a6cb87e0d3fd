import GameLink.Proofs.Client.Replay
import GameLink.Proofs.Secrecy.Resigned

/-! # What is seen of tokens

Whoever holds a session or a client sees nothing of a token but its claims: with
another header and another signature, every result, every error, every text that
shows a session, every log record, event, word to the policy and frame is the
same. The tokens that are kept differ, and the token in an address that is dialed.
-/
namespace GameLink

/-- Both fail with the same error, or both succeed with what is related. -/
inductive Agree {ε α : Type} (R : α → α → Prop) : Except ε α → Except ε α → Prop
  | failed (e : ε) : Agree R (.error e) (.error e)
  | succeeded {a a' : α} (h : R a a') : Agree R (.ok a) (.ok a')

theorem agree_of_map_eq {ε α β : Type} {R : α → α → Prop} {f : α → β} {x x' : Except ε α}
    (hR : ∀ a a', f a = f a' → R a a') (h : x.map f = x'.map f) : Agree R x x' := by
  cases x with
  | error e =>
    cases x' with
    | error e' =>
      cases h
      exact .failed e
    | ok a' => cases h
  | ok a =>
    cases x' with
    | error e' => cases h
    | ok a' => exact .succeeded (hR a a' (Except.ok.inj h))

namespace Session

/-! ## Sessions -/

/-- What is seen of a call: the record that it writes, or its error. -/
def noted (p : Tokens) (s : Session) : Except TokenError Log.Entry :=
  match (renew p).run s with
  | (.ok (), t) => .ok t.appliedNote
  | (.error e, _) => .error e

/-- What is seen of calls, one after the other. -/
def seen : List Tokens → Session → List (Except TokenError Log.Entry)
  | [], _ => []
  | p :: rest, s => noted p s :: seen rest ((renew p).run s).2

theorem noted_veil (p : Tokens) (s : Session) : noted p.veil s.veil = noted p s := by
  rw [noted, noted, renew_veil]
  cases (renew p).run s with
  | mk outcome t => cases outcome <;> rfl

theorem seen_veil (calls : List Tokens) (s : Session) :
    seen (calls.map Tokens.veil) s.veil = seen calls s := by
  induction calls generalizing s with
  | nil => rfl
  | cons p rest ih => rw [List.map_cons, seen, seen, noted_veil, renew_veil, ih]

/-- Two sessions tell the same, as long as they are not asked for their tokens. -/
structure Tells (s s' : Session) : Prop where
  note : s.appliedNote = s'.appliedNote
  describe : s.describe = s'.describe
  userId : s.userId = s'.userId
  username : s.username = s'.username
  vars : s.vars = s'.vars
  created : s.created = s'.created
  createdAt : s.createdAt = s'.createdAt
  expiresAt : s.expiresAt = s'.expiresAt
  refreshExpiresAt : s.refreshExpiresAt = s'.refreshExpiresAt
  accessExpired : s.accessExpired = s'.accessExpired
  refreshExpired : s.refreshExpired = s'.refreshExpired
  shouldRefresh : s.shouldRefresh = s'.shouldRefresh
  expiresIn : s.expiresIn = s'.expiresIn

theorem Resigned.tells {s s' : Session} (h : s.Resigned s') : Tells s s' := by
  rw [← h.rest]
  exact ⟨rfl, rfl, rfl, rfl, rfl, rfl, rfl, rfl, rfl, rfl, rfl, rfl, rfl⟩

/-- Of the calls on two sessions, the same is seen. -/
structure Undisclosed (calls calls' : List Tokens) (s s' : Session) : Prop where
  atFirst : Tells s s'
  seen : seen calls s = seen calls' s'
  tells : Tells (s.after calls) (s'.after calls')
  resigned : (s.after calls).Resigned (s'.after calls')

theorem undisclosed_of_veil {calls calls' : List Tokens} {s s' : Session}
    (hcalls : calls.map Tokens.veil = calls'.map Tokens.veil) (h : s.veil = s'.veil) :
    Undisclosed calls calls' s s' := by
  have hafter : (s.after calls).veil = (s'.after calls').veil := by
    rw [← after_veil, ← after_veil, h, hcalls]
  have hresigned := veil_eq_veil_iff.mp hafter
  refine ⟨(veil_eq_veil_iff.mp h).tells, ?_, hresigned.tells, hresigned⟩
  rw [← seen_veil, h, hcalls, seen_veil]

theorem start_agrees {first first' : Tokens} {calls calls' : List Tokens}
    (hfirst : first.Resigned first') (hcalls : List.Forall₂ Tokens.Resigned calls calls')
    (created : Bool) (now : Int) :
    Agree (Undisclosed calls calls') (start first.token first.refreshToken created now)
      (start first'.token first'.refreshToken created now) := by
  have hstart : (start first.token first.refreshToken created now).map veil =
      (start first'.token first'.refreshToken created now).map veil := by
    rw [← start_veil, ← start_veil, Tokens.veil_eq_veil_iff.mpr hfirst]
  have hveil : calls.map Tokens.veil = calls'.map Tokens.veil :=
    Client.map_eq_of_forall₂ (fun _ _ => Tokens.veil_eq_veil_iff.mpr) hcalls
  exact agree_of_map_eq (fun _ _ => undisclosed_of_veil hveil) hstart

end Session

namespace Client

/-! ## Clients -/

namespace Machine

/-- A run is decided by its moves. -/
theorem Run.unique {start n n' : Machine} {moves : List Move} (run : Run start moves n)
    (run' : Run start moves n') : n = n' := by
  induction run generalizing n' with
  | nil => cases run'; rfl
  | cons _ v h ih =>
    cases run' with
    | cons run' _ _ => rw [ih run']

/-- What one client does by some moves, the other does by others, and the same is seen of it. -/
structure Undisclosed (server : Settings.Server) (moves moves' : List Move) (m m' : Machine) :
    Prop where
  follows : ∀ n, Run m moves n → ∃ n', Run m' moves' n'
  received : ∀ n n', Run m moves n → Run m' moves' n' → n.receive.2 = n'.receive.2
  resigned : ∀ n n', Run m moves n → Run m' moves' n' → n.Resigned server n'

theorem undisclosed_of_veil {server : Settings.Server} {moves moves' : List Move} {m m' : Machine}
    (hm : Initial m) (hm' : Initial m') (hserver : m.settings.server = server)
    (hmoves : moves.map Move.veil = moves'.map Move.veil)
    (h : m.veil server = m'.veil server) : Undisclosed server moves moves' m m' := by
  have hfollow : ∀ n, Run m moves n → ∃ n', Run m' moves' n' ∧ n'.veil server = n.veil server :=
    fun n run => run.follow (fit_invariant.initial m hm) (fit_invariant.initial m' hm') hserver
      h.symm hmoves.symm
  have hveil : ∀ n n', Run m moves n → Run m' moves' n' → n.veil server = n'.veil server := by
    intro n n' run run'
    obtain ⟨k, hk, heq⟩ := hfollow n run
    rw [run'.unique hk, heq]
  refine ⟨fun n run => ?_, fun n n' run run' => ?_, fun n n' run run' => ?_⟩
  · obtain ⟨k, hk, -⟩ := hfollow n run
    exact ⟨k, hk⟩
  · have hreceive := congrArg (fun m : Machine => m.receive.2) (hveil n n' run run')
    simpa only [received_veil] using hreceive
  · exact resigned_of_veil (hveil n n' run run')

theorem build_agrees {policy policy' : Policy} {moves moves' : List Move}
    (hpolicy : policy.Resigned policy') (hmoves : List.Forall₂ Move.Resigned moves moves')
    (settings : Settings) (delivery : Delivery) (seconds : Int) :
    Agree
      (fun m m' => Undisclosed settings.server moves moves' { m with clock := seconds }
        { m' with clock := seconds })
      (Client.build settings delivery policy) (Client.build settings delivery policy') := by
  have hveil : moves.map Move.veil = moves'.map Move.veil :=
    map_eq_of_forall₂ (fun _ _ => Move.veil_eq_veil) hmoves
  cases hinvalid : settings.invalid? with
  | some i =>
    simp only [Client.build, hinvalid]
    exact .failed _
  | none =>
    have hbuild : ∀ policy, Client.build settings delivery policy =
        .ok { settings := settings, handler := .new settings delivery, policy := policy } := by
      intro policy
      simp only [Client.build, hinvalid]
    rw [hbuild, hbuild]
    refine .succeeded (undisclosed_of_veil (.build (hbuild policy) seconds)
      (.build (hbuild policy') seconds) rfl hveil ?_)
    simp only [veil, Policy.veil_eq_veil_iff.mpr hpolicy]

end Machine

/-- Tokens with another header and another signature change nothing that is seen of a session or
of a client. -/
theorem tokens_undisclosed {first first' : Session.Tokens} {calls calls' : List Session.Tokens}
    {policy policy' : Policy} {moves moves' : List Move} (hfirst : first.Resigned first')
    (hcalls : List.Forall₂ Session.Tokens.Resigned calls calls')
    (hpolicy : policy.Resigned policy') (hmoves : List.Forall₂ Move.Resigned moves moves')
    (created : Bool) (now : Int) (settings : Settings) (delivery : Delivery) (seconds : Int) :
    Agree (Session.Undisclosed calls calls')
        (Session.start first.token first.refreshToken created now)
        (Session.start first'.token first'.refreshToken created now) ∧
      Agree
        (fun m m' => Machine.Undisclosed settings.server moves moves' { m with clock := seconds }
          { m' with clock := seconds })
        (build settings delivery policy) (build settings delivery policy') :=
  ⟨Session.start_agrees hfirst hcalls created now,
    Machine.build_agrees hpolicy hmoves settings delivery seconds⟩

/-! ## A forged token -/

def signed : String := "h.eyJleHAiOjQwMDAwMDAwMDAsInVpZCI6InUifQ.s"

/-- The claims of `signed` without its signature. -/
def forged : String := "other.eyJleHAiOjQwMDAwMDAwMDAsInVpZCI6InUifQ."

namespace Machine

/-- A client whose policy signs in again, once. -/
def returning (token : String) : Machine := { fresh with policy := .redial 1 token }

/-- The server closes the link of the first sign-in, and the policy opens the next one. -/
def resumed (token : String) : List Move :=
  steps 0 3 (.signIn token none) ++ [.act (.serverClose 0)] ++
    List.replicate 3 (.work (.task 1)) ++ List.replicate 3 (.work (.task 3))

end Machine

open Machine in
/-- The forged token goes where the signed one goes, and only the addresses tell them apart. -/
theorem undisclosed_when_forged :
    Claims.Resigned signed forged ∧
      Agree (Session.Undisclosed [⟨signed, signed⟩] [⟨forged, forged⟩])
        (Session.start signed "" true 7) (Session.start forged "" true 7) ∧
      ∃ n n', Run (returning signed) (resumed signed).reverse n ∧
        Run (returning forged) (resumed forged).reverse n' ∧
        n.Resigned ({} : Settings).server n' ∧ n.state = .open ∧
        n.links.map Link.url ≠ n'.links.map Link.url := by
  have htoken : Claims.Resigned signed forged := Claims.veil_eq_veil_iff.mp (by decide +kernel)
  have hmoves : List.Forall₂ Move.Resigned (resumed signed).reverse (resumed forged).reverse :=
    List.rel_reverse
      (.cons (.start (.signIn htoken none)) (List.forall₂_same.mpr fun v _ => .same v))
  obtain ⟨hsession, hclient⟩ := @tokens_undisclosed ⟨signed, ""⟩ ⟨forged, ""⟩ [⟨signed, signed⟩]
    [⟨forged, forged⟩] _ _ _ _ ⟨htoken, .same ""⟩ (.cons ⟨htoken, htoken⟩ .nil) (.redial htoken 1)
    hmoves true 7 {} .direct Product.presentSeconds
  have run : Run (returning signed) (resumed signed).reverse _ := run_replay (by decide +kernel)
  have run' : Run (returning forged) (resumed forged).reverse _ := run_replay (by decide +kernel)
  refine ⟨htoken, hsession, _, _, run, run', ?_, by decide +kernel, by decide +kernel⟩
  change Agree _ (.ok (returning signed)) (.ok (returning forged)) at hclient
  cases hclient with
  | succeeded h => exact h.resigned _ _ run run'

end Client
end GameLink
