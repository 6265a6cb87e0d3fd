import GameLink.Proofs.Session.Renewal

/-! # Tokens without header and signature

Of a token only the claims are read. Taking header and signature off a token
therefore changes nothing but the token itself: neither what it decodes to nor
how a session changes by it.
-/
namespace GameLink

namespace Claims

/-! ## Segments -/

theorem segments_ne_nil (cs : List Char) : segments cs ≠ [] := by
  cases cs with
  | nil => simp [segments]
  | cons c rest =>
    rw [segments]
    split
    · simp
    · split <;> simp

/-- Segments do not hold the dots between them. -/
theorem dotless_of_mem_segments {cs s : List Char} (h : s ∈ segments cs) : '.' ∉ s := by
  induction cs generalizing s with
  | nil =>
    rw [segments, List.mem_singleton] at h
    rw [h]
    simp
  | cons c rest ih =>
    rw [segments] at h
    split at h
    · rcases List.mem_cons.mp h with rfl | h
      · simp
      · exact ih h
    · rename_i hc
      split at h
      · rename_i hnil
        exact absurd hnil (segments_ne_nil rest)
      · rename_i first more hseg
        rcases List.mem_cons.mp h with rfl | h
        · have hfirst := ih (hseg ▸ List.mem_cons_self)
          exact fun hmem => (List.mem_cons.mp hmem).elim (fun heq => hc heq.symm) hfirst
        · exact ih (hseg ▸ List.mem_cons_of_mem _ h)

/-- The text is its segments with dots between them. -/
theorem intercalate_segments (cs : List Char) : ['.'].intercalate (segments cs) = cs := by
  induction cs with
  | nil => rfl
  | cons c rest ih =>
    rw [segments]
    split
    · rename_i hc
      obtain ⟨first, more, hseg⟩ := List.exists_cons_of_ne_nil (segments_ne_nil rest)
      rw [hseg] at ih ⊢
      rw [List.intercalate_cons_cons, ih, hc]
      rfl
    · split
      · rename_i hnil
        exact absurd hnil (segments_ne_nil rest)
      · rename_i first more hseg
        rw [hseg] at ih
        cases more with
        | nil => simpa [List.intercalate] using ih
        | cons second more =>
          rw [List.intercalate_cons_cons] at ih ⊢
          rw [← ih]
          rfl

theorem segments_of_dotless {s : List Char} (h : '.' ∉ s) : segments s = [s] := by
  induction s with
  | nil => rfl
  | cons c rest ih =>
    rw [List.mem_cons, not_or] at h
    rw [segments, if_neg (Ne.symm h.1), ih h.2]

theorem segments_append_dot {s : List Char} (h : '.' ∉ s) (rest : List Char) :
    segments (s ++ '.' :: rest) = s :: segments rest := by
  induction s with
  | nil => rw [List.nil_append, segments, if_pos rfl]
  | cons c more ih =>
    rw [List.mem_cons, not_or] at h
    rw [List.cons_append, segments, if_neg (Ne.symm h.1), ih h.2]

/-- A token of three segments. -/
def assembled (header claims signature : List Char) : String :=
  String.ofList (header ++ '.' :: (claims ++ '.' :: signature))

theorem segments_assembled {header claims signature : List Char} (hh : '.' ∉ header)
    (hc : '.' ∉ claims) (hs : '.' ∉ signature) :
    segments (assembled header claims signature).toList = [header, claims, signature] := by
  rw [assembled, String.toList_ofList, segments_append_dot hh, segments_append_dot hc,
    segments_of_dotless hs]

theorem eq_assembled {token : String} {header claims signature : List Char}
    (h : segments token.toList = [header, claims, signature]) :
    token = assembled header claims signature ∧
      '.' ∉ header ∧ '.' ∉ claims ∧ '.' ∉ signature := by
  have htext := intercalate_segments token.toList
  rw [h] at htext
  refine ⟨?_, ?_, ?_, ?_⟩
  · rw [assembled, ← String.toList_inj, String.toList_ofList, ← htext]
    simp [List.intercalate]
  all_goals exact dotless_of_mem_segments (by rw [h]; simp)

/-! ## Taking off header and signature -/

/-- A token with nothing but its claims; what has another number of segments stays as it is.
It is irreducible so that comparing two clients does not begin to split tokens. -/
@[irreducible] def veil (token : String) : String :=
  match segments token.toList with
  | [_, claims, _] => assembled [] claims []
  | _ => token

theorem veil_empty : veil "" = "" := by
  rw [veil]
  rfl

theorem veil_assembled {header claims signature : List Char} (hh : '.' ∉ header)
    (hc : '.' ∉ claims) (hs : '.' ∉ signature) :
    veil (assembled header claims signature) = assembled [] claims [] := by
  rw [veil, segments_assembled hh hc hs]

/-- Tokens that differ in header and signature at most. -/
inductive Resigned : String → String → Prop
  | same (token : String) : Resigned token token
  | signed {header header' claims signature signature' : List Char} (hh : '.' ∉ header)
      (hh' : '.' ∉ header') (hc : '.' ∉ claims) (hs : '.' ∉ signature) (hs' : '.' ∉ signature') :
      Resigned (assembled header claims signature) (assembled header' claims signature')

/-- A token has three segments, or nothing is taken off. -/
theorem veil_cases (token : String) :
    (∃ header claims signature, '.' ∉ header ∧ '.' ∉ claims ∧ '.' ∉ signature ∧
      token = assembled header claims signature) ∨
      veil token = token ∧ ∀ header claims signature,
        segments token.toList ≠ [header, claims, signature] := by
  by_cases h : ∃ header claims signature, segments token.toList = [header, claims, signature]
  · obtain ⟨header, claims, signature, h⟩ := h
    obtain ⟨rfl, hh, hc, hs⟩ := eq_assembled h
    exact .inl ⟨header, claims, signature, hh, hc, hs, rfl⟩
  · refine .inr ⟨?_, fun header claims signature heq => h ⟨header, claims, signature, heq⟩⟩
    rw [veil]
    split
    · rename_i header claims signature heq
      exact absurd ⟨header, claims, signature, heq⟩ h
    · rfl

theorem veil_eq_veil_iff {t t' : String} : veil t = veil t' ↔ Resigned t t' := by
  have hempty : '.' ∉ ([] : List Char) := by simp
  constructor
  · intro h
    rcases veil_cases t with ⟨header, claims, signature, hh, hc, hs, rfl⟩ | ⟨hsame, hother⟩
    · rw [veil_assembled hh hc hs] at h
      rcases veil_cases t' with
        ⟨header', claims', signature', hh', hc', hs', rfl⟩ | ⟨hsame', hother'⟩
      · rw [veil_assembled hh' hc' hs'] at h
        have hsegments := congrArg (fun t => segments t.toList) h
        simp only [segments_assembled hempty hc hempty, segments_assembled hempty hc' hempty,
          List.cons.injEq, and_true, true_and] at hsegments
        subst hsegments
        exact .signed hh hh' hc hs hs'
      · -- what is left of a token has three segments, and `t'` has not
        rw [hsame'] at h
        exact absurd (h ▸ segments_assembled hempty hc hempty) (hother' _ _ _)
    · rw [hsame] at h
      rcases veil_cases t' with ⟨header', claims', signature', hh', hc', hs', rfl⟩ | ⟨hsame', -⟩
      · rw [veil_assembled hh' hc' hs'] at h
        exact absurd (h ▸ segments_assembled hempty hc' hempty) (hother _ _ _)
      · rw [h, hsame']
        exact .same _
  · rintro (_ | ⟨hh, hh', hc, hs, hs'⟩)
    · rfl
    · rw [veil_assembled hh hc hs, veil_assembled hh' hc hs']

theorem decode_veil (token : String) : decode (veil token) = decode token := by
  rcases veil_cases token with ⟨header, claims, signature, hh, hc, hs, rfl⟩ | ⟨hsame, -⟩
  · have hempty : '.' ∉ ([] : List Char) := by simp
    rw [veil_assembled hh hc hs]
    simp only [decode, claimsSegment, segments_assembled hempty hc hempty,
      segments_assembled hh hc hs]
  · rw [hsame]

theorem isEmpty_assembled (header claims signature : List Char) :
    (assembled header claims signature).isEmpty = false := by
  rw [← Bool.not_eq_true, String.isEmpty_iff]
  intro h
  have hchars := congrArg String.toList h
  simp [assembled] at hchars

theorem isEmpty_veil (token : String) : (veil token).isEmpty = token.isEmpty := by
  rcases veil_cases token with ⟨header, claims, signature, hh, hc, hs, rfl⟩ | ⟨hsame, -⟩
  · rw [veil_assembled hh hc hs, isEmpty_assembled, isEmpty_assembled]
  · rw [hsame]

end Claims

namespace Session

/-! ## Sessions -/

def veil (s : Session) : Session :=
  { s with token := Claims.veil s.token, refreshToken := Claims.veil s.refreshToken }

def Tokens.veil (p : Tokens) : Tokens := ⟨Claims.veil p.token, Claims.veil p.refreshToken⟩

theorem refreshClaims_veil (refreshToken : String) :
    refreshClaims (Claims.veil refreshToken) = refreshClaims refreshToken := by
  rw [refreshClaims, refreshClaims, Claims.isEmpty_veil, Claims.decode_veil]

theorem absorb_veil (s : Session) (p : Tokens) (access : Claims) (refresh : Option Claims) :
    s.veil.absorb p.veil.token p.veil.refreshToken access refresh =
      (s.absorb p.token p.refreshToken access refresh).veil := by
  cases refresh <;> rfl

theorem apply_veil (s : Session) (p : Tokens) :
    s.veil.apply p.veil.token p.veil.refreshToken =
      (s.apply p.token p.refreshToken).map veil := by
  have hdecode : Claims.decode p.veil.token = Claims.decode p.token := Claims.decode_veil p.token
  have hrefresh : refreshClaims p.veil.refreshToken = refreshClaims p.refreshToken :=
    refreshClaims_veil p.refreshToken
  simp only [apply, hdecode, hrefresh, absorb_veil]
  cases Claims.decode p.token with
  | error e => rfl
  | ok access => cases refreshClaims p.refreshToken <;> rfl

theorem veil_blank (created : Bool) (now : Int) : (blank created now).veil = blank created now := by
  simp only [veil, blank, Claims.veil_empty]

theorem start_veil (p : Tokens) (created : Bool) (now : Int) :
    start p.veil.token p.veil.refreshToken created now =
      (start p.token p.refreshToken created now).map veil := by
  rw [start, start, ← apply_veil, veil_blank]

theorem renew_veil (p : Tokens) (s : Session) :
    (renew p.veil).run s.veil = (((renew p).run s).1, ((renew p).run s).2.veil) := by
  rw [renew_run, renew_run, apply_veil]
  cases s.apply p.token p.refreshToken <;> rfl

theorem after_veil (s : Session) (calls : List Tokens) :
    s.veil.after (calls.map Tokens.veil) = (s.after calls).veil := by
  induction calls using List.reverseRecOn with
  | nil => rfl
  | append_singleton calls p ih =>
    rw [List.map_append, List.map_singleton, after_append_one, after_append_one, ih, renew_veil]

/-! ## Sessions over tokens that differ in header and signature -/

/-- The same pair but for header and signature of its tokens. -/
structure Tokens.Resigned (p p' : Tokens) : Prop where
  token : Claims.Resigned p.token p'.token
  refreshToken : Claims.Resigned p.refreshToken p'.refreshToken

/-- The same session but for header and signature of its tokens. -/
structure Resigned (s s' : Session) : Prop where
  token : Claims.Resigned s.token s'.token
  refreshToken : Claims.Resigned s.refreshToken s'.refreshToken
  rest : { s with token := s'.token, refreshToken := s'.refreshToken } = s'

theorem Tokens.veil_eq_veil_iff {p p' : Tokens} : p.veil = p'.veil ↔ p.Resigned p' := by
  rw [Tokens.veil, Tokens.veil, Tokens.mk.injEq, Claims.veil_eq_veil_iff, Claims.veil_eq_veil_iff]
  exact ⟨fun h => ⟨h.1, h.2⟩, fun h => ⟨h.token, h.refreshToken⟩⟩

theorem veil_eq_veil_iff {s s' : Session} : s.veil = s'.veil ↔ s.Resigned s' := by
  constructor
  · intro h
    refine ⟨Claims.veil_eq_veil_iff.mp (congrArg token h),
      Claims.veil_eq_veil_iff.mp (congrArg refreshToken h), ?_⟩
    exact congrArg
      (fun r : Session => { r with token := s'.token, refreshToken := s'.refreshToken }) h
  · rintro ⟨htoken, hrefresh, hrest⟩
    have hveil := congrArg veil hrest
    rw [← hveil, veil, veil, Claims.veil_eq_veil_iff.mpr htoken,
      Claims.veil_eq_veil_iff.mpr hrefresh]

end Session
end GameLink
