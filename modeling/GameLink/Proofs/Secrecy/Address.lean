import GameLink.Link.Url
import GameLink.Proofs.Text.Percent
import GameLink.Proofs.Secrecy.Token

/-! # The token in an address

The token is the last parameter of an address, and it can be read back from
there. So an address can be told from one with another token, and the token in
it can be replaced by its claims.
-/
namespace GameLink.Link

theorem address_eq_append (server : Settings.Server) (token : String) (online : Bool) :
    address server token online = address server "" online ++ Percent.encodeText token := by
  have hempty : Percent.encodeText "" = "" := by decide
  simp only [address, query, hempty, String.append_empty, String.append_assoc]

/-- The token in an address of the server. -/
def token? (server : Settings.Server) (online : Bool) (url : String) : Option String :=
  ((Percent.decode? (url.toList.drop (address server "" online).toList.length)).bind
    Bytes.text?).filter (fun token => address server token online == url)

theorem token?_eq_some {server : Settings.Server} {online : Bool} {url token : String} :
    token? server online url = some token ↔ url = address server token online := by
  rw [token?, Option.filter_eq_some_iff, beq_iff_eq]
  constructor
  · exact fun h => h.2.symm
  · rintro rfl
    refine ⟨?_, rfl⟩
    rw [address_eq_append server token, String.toList_append, List.drop_left, Percent.encodeText,
      String.toList_ofList, Percent.decode?_encode, Option.bind_some, Bytes.text?_ofText]

theorem address_flag_ne (server : Settings.Server) (token token' : String) :
    address server token true ≠ address server token' false := by
  intro h
  have hchars := congrArg String.toList h
  simp [address, query, flagText] at hchars

/-- An address with nothing of its token but the claims; other texts stay as they are. -/
@[irreducible] def veilUrl (server : Settings.Server) (url : String) : String :=
  match token? server true url, token? server false url with
  | some token, _ => address server (Claims.veil token) true
  | none, some token => address server (Claims.veil token) false
  | none, none => url

theorem veilUrl_address (server : Settings.Server) (token : String) (online : Bool) :
    veilUrl server (address server token online) =
      address server (Claims.veil token) online := by
  have hfound : token? server online (address server token online) = some token :=
    token?_eq_some.mpr rfl
  cases online with
  | true =>
    rw [veilUrl, hfound]
  | false =>
    have hother : token? server true (address server token false) = none := by
      rw [Option.eq_none_iff_forall_ne_some]
      exact fun token' h => address_flag_ne server token' token (token?_eq_some.mp h).symm
    rw [veilUrl, hfound, hother]

theorem veilUrl_cases (server : Settings.Server) (url : String) :
    (∃ token online, url = address server token online) ∨
      veilUrl server url = url ∧ ∀ token online, url ≠ address server token online := by
  by_cases h : ∃ token online, url = address server token online
  · exact .inl h
  · have hnone : ∀ online, token? server online url = none := by
      intro online
      rw [Option.eq_none_iff_forall_ne_some]
      exact fun token htoken => h ⟨token, online, token?_eq_some.mp htoken⟩
    refine .inr ⟨?_, fun token online heq => h ⟨token, online, heq⟩⟩
    rw [veilUrl, hnone, hnone]

/-- The same text, or addresses that are the same but for header and signature of the token. -/
inductive Readdressed (server : Settings.Server) : String → String → Prop
  | same (url : String) : Readdressed server url url
  | token {token token' : String} (h : Claims.Resigned token token') (online : Bool) :
      Readdressed server (address server token online) (address server token' online)

theorem address_inj {server : Settings.Server} {token token' : String} {online online' : Bool}
    (h : address server token online = address server token' online') :
    token = token' ∧ online = online' := by
  have hflag : online = online' := by
    cases online <;> cases online'
    · rfl
    · exact absurd h.symm (address_flag_ne server token' token)
    · exact absurd h (address_flag_ne server token token')
    · rfl
  subst hflag
  exact ⟨Option.some.inj ((token?_eq_some.mpr rfl).symm.trans (token?_eq_some.mpr h)), rfl⟩

theorem readdressed_of_veilUrl {server : Settings.Server} {url url' : String}
    (h : veilUrl server url = veilUrl server url') : Readdressed server url url' := by
  rcases veilUrl_cases server url with ⟨token, online, rfl⟩ | ⟨hsame, hother⟩
  · rw [veilUrl_address] at h
    rcases veilUrl_cases server url' with ⟨token', online', rfl⟩ | ⟨hsame', hother'⟩
    · rw [veilUrl_address] at h
      obtain ⟨htoken, rfl⟩ := address_inj h
      exact .token (Claims.veil_eq_veil_iff.mp htoken) online
    · exact absurd (hsame'.symm.trans h.symm) (hother' _ _)
  · rcases veilUrl_cases server url' with ⟨token', online', rfl⟩ | ⟨hsame', -⟩
    · rw [veilUrl_address] at h
      exact absurd (hsame.symm.trans h) (hother _ _)
    · rw [← hsame, h, hsame']
      exact .same _

end GameLink.Link
