import GameLink.Proofs.Json.Grammar
import GameLink.Proofs.Json.Reordered
import GameLink.Proofs.Json.Layers
import GameLink.Proofs.Secrecy.Token
import GameLink.Proofs.Text.Base64

/-! # The verdict on a token

Which tokens carry claims, and which fault is found in any other, said on the
characters of the token and on the text in its middle segment. A token is judged
in five stages: its dots, what is left of the middle segment without padding, its
alphabet, its JSON, and the claims one by one. `Verdict` has a constructor for
each way to fail, which supposes that the stages before it pass.
-/
namespace GameLink

/-- The values a claim may have. -/
inductive ClaimKind.Fits : ClaimKind → Json → Prop
  | number (n : Number) : Fits .number (.number n)
  | text (s : String) : Fits .text (.string s)
  | object (members : List (String × Json)) : Fits .object (.object members)

namespace Claims

/-! ## What there is to judge -/

/-- Two dots in the token, and between them the claims with nothing but padding after them. -/
inductive Bears (claims : List Char) : String → Prop
  | intro {header signature : List Char} {padding : Nat} (hh : '.' ∉ header) (hc : '.' ∉ claims)
      (unpadded : claims.getLast? ≠ some '=') (hs : '.' ∉ signature) :
      Bears claims (assembled header (claims ++ List.replicate padding '=') signature)

/-- The token carries the members of a JSON object. -/
def Presents (token : String) (members : Entries Json) : Prop :=
  ∃ bytes, bytes ≠ [] ∧ Bears (Base64.encode .url bytes) token ∧
    (Json.object members).HasText bytes

def Absent (members : Entries Json) (claim : String) : Prop :=
  Entries.find? claim members = none ∨ Entries.find? claim members = some .null

/-- The claim is there, with a value of another kind. -/
structure Misfit (members : Entries Json) (claim : String) (kind : ClaimKind) (v : Json) : Prop where
  found : Entries.find? claim members = some v
  notNull : v ≠ .null
  unfit : ¬ kind.Fits v

inductive Gives (members : Entries Json) (claim : String) : Option String → Prop
  | absent (h : Absent members claim) : Gives members claim none
  | text {s : String} (h : Entries.find? claim members = some (.string s)) :
      Gives members claim (some s)

def textEntries (pairs : List (String × String)) : Entries Json :=
  pairs.map fun p => (p.1, .string p.2)

inductive GivesVariables (members : Entries Json) : Option (StringMap String) → Prop
  | absent (h : Absent members "vrs") : GivesVariables members none
  | texts {m : StringMap String}
      (h : Entries.find? "vrs" members = some (.object (textEntries m.entries))) :
      GivesVariables members (some m)

/-! ## The verdict -/

def GivesExpiry (members : Entries Json) (expiresAt : Int) : Prop :=
  ∃ n, Entries.find? "exp" members = some (.number n) ∧ expiresAt = seconds n

/-- All claims are as they should be. -/
structure Admits (members : Entries Json) (c : Claims) : Prop where
  expiry : GivesExpiry members c.expiresAt
  userId : Gives members "uid" c.userId
  username : Gives members "usn" c.username
  vars : GivesVariables members c.vars

/-- What is said of the members of an object; each fault supposes that the claims before it are as
they should be. -/
inductive Judges (members : Entries Json) : Except TokenError Claims → Prop
  | missing (h : Absent members "exp") : Judges members (.error (.missing "exp"))
  | expiry {v : Json} (h : Misfit members "exp" .number v) :
      Judges members (.error (.wrongKind "exp" .number v))
  | userId {e : Int} {v : Json} (expiry : GivesExpiry members e) (h : Misfit members "uid" .text v) :
      Judges members (.error (.wrongKind "uid" .text v))
  | username {e : Int} {u : Option String} {v : Json} (expiry : GivesExpiry members e)
      (userId : Gives members "uid" u) (h : Misfit members "usn" .text v) :
      Judges members (.error (.wrongKind "usn" .text v))
  | vars {e : Int} {u n : Option String} {v : Json} (expiry : GivesExpiry members e)
      (userId : Gives members "uid" u) (username : Gives members "usn" n)
      (h : Misfit members "vrs" .object v) : Judges members (.error (.wrongKind "vrs" .object v))
  | entry {e : Int} {u n : Option String} {before : List (String × String)} {key : String}
      {v : Json} {after : Entries Json} (expiry : GivesExpiry members e)
      (userId : Gives members "uid" u) (username : Gives members "usn" n)
      (h : Entries.find? "vrs" members = some (.object (textEntries before ++ (key, v) :: after)))
      (unfit : ¬ ClaimKind.text.Fits v) : Judges members (.error (.variableNotText key))
  | admitted {c : Claims} (h : Admits members c) : Judges members (.ok c)

inductive Verdict (token : String) : Except TokenError Claims → Prop
  | segmentCount (h : token.toList.count '.' ≠ 2) :
      Verdict token (.error (.segmentCount (token.toList.count '.' + 1)))
  | emptyClaims (h : Bears [] token) : Verdict token (.error .emptyClaims)
  | encoding {claims : List Char} (h : Bears claims token) (nonempty : claims ≠ [])
      (unencoded : ∀ bytes, claims ≠ Base64.encode .url bytes) : Verdict token (.error .encoding)
  | notObject {bytes : Bytes} (h : Bears (Base64.encode .url bytes) token) (nonempty : bytes ≠ [])
      (other : ∀ members, ¬ (Json.object members).HasText bytes) : Verdict token (.error .notObject)
  | claims {members : Entries Json} {r : Except TokenError Claims} (h : Presents token members)
      (judged : Judges members r) : Verdict token r

/-! ## Dots and padding -/

theorem length_segments (cs : List Char) : (segments cs).length = cs.count '.' + 1 := by
  induction cs with
  | nil => rfl
  | cons c rest ih =>
    obtain ⟨first, more, hrest⟩ := List.exists_cons_of_ne_nil (segments_ne_nil rest)
    rw [hrest, List.length_cons] at ih
    rw [segments, hrest]
    split
    · rename_i hc
      rw [hc, List.count_cons_self, List.length_cons, List.length_cons, ih]
    · rename_i hc
      rw [List.count_cons_of_ne hc, List.length_cons, ih]

theorem trimPadding_padded (cs : List Char) (padding : Nat) :
    trimPadding (cs ++ List.replicate padding '=') = trimPadding cs := by
  rw [trimPadding, trimPadding, List.reverse_append, List.reverse_replicate]
  congr 1
  induction padding with
  | zero => rfl
  | succ n ih => rw [List.replicate_succ, List.cons_append, List.dropWhile_cons_of_pos rfl, ih]

theorem trimPadding_unpadded {cs : List Char} (h : cs.getLast? ≠ some '=') :
    trimPadding cs = cs := by
  rw [List.getLast?_eq_head?_reverse] at h
  have same : cs.reverse.dropWhile (· == '=') = cs.reverse := by
    cases hcs : cs.reverse with
    | nil => rfl
    | cons c rest =>
      have hc : c ≠ '=' := fun hc => h (by rw [hcs, hc, List.head?_cons])
      exact List.dropWhile_cons_of_neg (by simpa using hc)
  rw [trimPadding, same, List.reverse_reverse]

/-- Every text is one without padding, and padding. -/
theorem exists_padding (cs : List Char) : ∃ claims padding,
    cs = claims ++ List.replicate padding '=' ∧ claims.getLast? ≠ some '=' := by
  induction cs using List.reverseRecOn with
  | nil => exact ⟨[], 0, rfl, by simp⟩
  | append_singleton cs c ih =>
    by_cases hc : c = '='
    · obtain ⟨claims, padding, rfl, unpadded⟩ := ih
      refine ⟨claims, padding + 1, ?_, unpadded⟩
      rw [hc, List.append_assoc, ← List.replicate_succ']
    · exact ⟨cs ++ [c], 0, by simp, by simpa using hc⟩

theorem dotless_padded {claims : List Char} (h : '.' ∉ claims) (padding : Nat) :
    '.' ∉ claims ++ List.replicate padding '=' := by
  rw [List.mem_append, not_or]
  exact ⟨h, fun h => absurd (List.eq_of_mem_replicate h) (by decide)⟩

theorem claimsSegment_of_bears {claims : List Char} {token : String} (h : Bears claims token) :
    claimsSegment token = if claims.isEmpty then .error .emptyClaims else .ok claims := by
  cases h with
  | @intro header signature padding hh hc unpadded hs =>
    rw [claimsSegment, segments_assembled hh (dotless_padded hc padding) hs]
    simp only [trimPadding_padded, trimPadding_unpadded unpadded]

theorem claimsSegment_of_count {token : String} (h : token.toList.count '.' ≠ 2) :
    claimsSegment token = .error (.segmentCount (token.toList.count '.' + 1)) := by
  have len := length_segments token.toList
  rw [claimsSegment]
  split
  · rename_i hseg
    rw [hseg] at len
    exact absurd (Nat.succ.inj len).symm h
  · rw [len]

/-- A token bears claims exactly if it has two dots. -/
theorem bears_of_count {token : String} (h : token.toList.count '.' = 2) :
    ∃ claims, Bears claims token := by
  have len := length_segments token.toList
  rw [h] at len
  match hseg : segments token.toList, len with
  | [header, middle, signature], _ =>
    obtain ⟨rfl, hh, hm, hs⟩ := eq_assembled hseg
    obtain ⟨claims, padding, rfl, unpadded⟩ := exists_padding middle
    exact ⟨claims, .intro hh (fun hc => hm (List.mem_append_left _ hc)) unpadded hs⟩

/-! ## The text in the middle -/

theorem document_shown {bytes : Bytes} {members : Entries Json}
    (h : (Json.object members).HasText bytes) :
    document (Base64.encode .url bytes) = .ok members := by
  simp only [document, Base64.decode?_encode, Json.ofBytes?_eq_some_iff.mpr h]

theorem document_other {bytes : Bytes} (h : ∀ members, ¬ (Json.object members).HasText bytes) :
    document (Base64.encode .url bytes) = .error .notObject := by
  simp only [document, Base64.decode?_encode]
  split
  · rename_i members hv
    exact absurd (Json.ofBytes?_eq_some_iff.mp hv) (h members)
  · rfl

theorem document_unencoded {claims : List Char} (h : ∀ bytes, claims ≠ Base64.encode .url bytes) :
    document claims = .error .encoding := by
  rw [document]
  split
  · rfl
  · rename_i bytes hbytes
    exact absurd (Base64.decode?_eq_some_iff.mp hbytes) (h bytes)

theorem decode_of_bears {claims : List Char} {token : String} (h : Bears claims token)
    (nonempty : claims ≠ []) :
    decode token = document claims >>= ofMembers := by
  rw [decode, claimsSegment_of_bears h, if_neg (by simpa using nonempty)]
  rfl

theorem Presents.canonical {token : String} {members : Entries Json} (h : Presents token members) :
    (Json.object members).Canonical := by
  obtain ⟨bytes, -, -, d, -, hv⟩ := h
  exact Json.Document.canonical_of_value? d hv

/-! ## Claims one by one -/

section
variable {members : Entries Json} {claim : String} {kind : ClaimKind} {v : Json}

theorem find?_absent (h : Absent members claim) : find? claim members = none := by
  rcases h with h | h <;> rw [find?, h] <;> rfl

theorem find?_fit (h : Entries.find? claim members = some v) (fits : kind.Fits v) :
    find? claim members = some v := by
  rw [find?, h]
  cases fits <;> rfl

theorem find?_misfit (h : Misfit members claim kind v) : find? claim members = some v := by
  have notNull : v.isNull = false := by
    cases hv : v with
    | null => exact absurd hv h.notNull
    | _ => rfl
  simp [find?, h.found, notNull]

theorem claim_cases (members : Entries Json) (claim : String) (kind : ClaimKind) :
    Absent members claim ∨ (∃ v, Entries.find? claim members = some v ∧ kind.Fits v) ∨
      ∃ v, Misfit members claim kind v := by
  cases h : Entries.find? claim members with
  | none => exact .inl (.inl h)
  | some v =>
    by_cases notNull : v = .null
    · exact .inl (.inr (notNull ▸ h))
    · by_cases fits : kind.Fits v
      · exact .inr (.inl ⟨v, rfl, fits⟩)
      · exact .inr (.inr ⟨v, h, notNull, fits⟩)

theorem expiry_given {e : Int} (h : GivesExpiry members e) : expiry members = .ok e := by
  obtain ⟨n, found, rfl⟩ := h
  rw [expiry, find?_fit found (.number n)]

theorem expiry_absent (h : Absent members "exp") : expiry members = .error (.missing "exp") := by
  rw [expiry, find?_absent h]

theorem expiry_misfit (h : Misfit members "exp" .number v) :
    expiry members = .error (.wrongKind "exp" .number v) := by
  rw [expiry, find?_misfit h]
  cases hv : v with
  | number n => exact absurd (hv ▸ .number n) h.unfit
  | _ => rfl

theorem textClaim_given {s : Option String} (h : Gives members claim s) :
    textClaim claim members = .ok s := by
  cases h with
  | absent h => rw [textClaim, find?_absent h]
  | @text s found => rw [textClaim, find?_fit found (.text s)]

theorem textClaim_misfit (h : Misfit members claim .text v) :
    textClaim claim members = .error (.wrongKind claim .text v) := by
  rw [textClaim, find?_misfit h]
  cases hv : v with
  | string s => exact absurd (hv ▸ .text s) h.unfit
  | _ => rfl

theorem textClaim_cases (members : Entries Json) (claim : String) :
    (∃ s, Gives members claim s) ∨ ∃ v, Misfit members claim .text v := by
  rcases claim_cases members claim .text with h | ⟨v, found, fits⟩ | h
  · exact .inl ⟨none, .absent h⟩
  · cases fits with
    | text s => exact .inl ⟨some s, .text found⟩
  · exact .inr h

/-! ## Variables -/

theorem textMembers_texts (pairs : List (String × String)) (rest : Entries Json)
    (m : StringMap String) : textMembers (textEntries pairs ++ rest) m =
      textMembers rest (pairs.foldl (fun m p => m.insert p.1 p.2) m) := by
  induction pairs generalizing m with
  | nil => rfl
  | cons p pairs ih => exact ih (m.insert p.1 p.2)

theorem entries_foldl_insert (pairs : List (String × String)) (m : StringMap String) :
    (pairs.foldl (fun m p => m.insert p.1 p.2) m).entries =
      pairs.foldl (fun m p => Entries.insert p.1 p.2 m) m.entries := by
  induction pairs generalizing m with
  | nil => rfl
  | cons p pairs ih => exact ih (m.insert p.1 p.2)

/-- Pairs that are in order make up a map as they are. -/
theorem foldl_insert_entries (m : StringMap String) :
    m.entries.foldl (fun m p => m.insert p.1 p.2) .empty = m := by
  have entries : Entries.ofList m.entries = m.entries :=
    Json.entries_ext (Entries.sorted_ofList _) m.sorted fun key =>
      Json.find?_ofList key (Json.nodup_keys m.sorted)
  have same := (entries_foldl_insert m.entries .empty).trans entries
  cases m
  exact StringMap.mk.injEq .. ▸ same

theorem variablesClaim_given {m : Option (StringMap String)} (h : GivesVariables members m) :
    variablesClaim members = .ok m := by
  cases h with
  | absent h => rw [variablesClaim, find?_absent h]
  | @texts m found =>
    have read := textMembers_texts m.entries [] .empty
    rw [List.append_nil, foldl_insert_entries] at read
    rw [variablesClaim, find?_fit found (.object _)]
    simp [read, textMembers, Except.map]

theorem variablesClaim_misfit (h : Misfit members "vrs" .object v) :
    variablesClaim members = .error (.wrongKind "vrs" .object v) := by
  rw [variablesClaim, find?_misfit h]
  cases hv : v with
  | object vars => exact absurd (hv ▸ .object vars) h.unfit
  | _ => rfl

theorem variablesClaim_unfit {before : List (String × String)} {key : String} {after : Entries Json}
    (found : Entries.find? "vrs" members = some (.object (textEntries before ++ (key, v) :: after)))
    (unfit : ¬ ClaimKind.text.Fits v) :
    variablesClaim members = .error (.variableNotText key) := by
  rw [variablesClaim, find?_fit found (.object _)]
  simp only [textMembers_texts]
  cases hv : v with
  | string s => exact absurd (hv ▸ .text s) unfit
  | _ => rfl

/-- Members are texts, up to a first one that is not. -/
theorem texts_or_unfit (vars : Entries Json) : (∃ pairs, vars = textEntries pairs) ∨
    ∃ before key v after, vars = textEntries before ++ (key, v) :: after ∧
      ¬ ClaimKind.text.Fits v := by
  induction vars with
  | nil => exact .inl ⟨[], rfl⟩
  | cons p vars ih =>
    obtain ⟨key, v⟩ := p
    by_cases fits : ClaimKind.text.Fits v
    · cases fits with
      | text s =>
        rcases ih with ⟨pairs, rfl⟩ | ⟨before, key', v', after, rfl, unfit⟩
        · exact .inl ⟨(key, s) :: pairs, rfl⟩
        · exact .inr ⟨(key, s) :: before, key', v', after, rfl, unfit⟩
    · exact .inr ⟨[], key, v, vars, rfl, fits⟩

theorem sorted_textEntries {pairs : List (String × String)} :
    Entries.Sorted (textEntries pairs) ↔ Entries.Sorted pairs :=
  List.pairwise_map

theorem expiry_cases (members : Entries Json) : (∃ e, GivesExpiry members e) ∨
    Absent members "exp" ∨ ∃ v, Misfit members "exp" .number v := by
  rcases claim_cases members "exp" .number with absent | ⟨v, found, fits⟩ | misfit
  · exact .inr (.inl absent)
  · cases fits with
    | number n => exact .inl ⟨seconds n, n, found, rfl⟩
  · exact .inr (.inr misfit)

theorem variables_cases (h : (Json.object members).Canonical) :
    (∃ m, GivesVariables members m) ∨ (∃ v, Misfit members "vrs" .object v) ∨
      ∃ before key v after, Entries.find? "vrs" members =
        some (.object (textEntries before ++ (key, v) :: after)) ∧ ¬ ClaimKind.text.Fits v := by
  rcases claim_cases members "vrs" .object with absent | ⟨v, found, fits⟩ | misfit
  · exact .inl ⟨none, .absent absent⟩
  · cases fits with
    | object vars =>
      rcases texts_or_unfit vars with ⟨pairs, rfl⟩ | ⟨before, key, v, after, rfl, unfit⟩
      · have sorted : Entries.Sorted pairs := sorted_textEntries.mp (h.find? found).1
        exact .inl ⟨some ⟨pairs, sorted⟩, .texts found⟩
      · exact .inr (.inr ⟨before, key, v, after, found, unfit⟩)
  · exact .inr (.inl misfit)

end

/-! ## Everything is judged -/

theorem Judges.eq {members : Entries Json} {r : Except TokenError Claims}
    (h : Judges members r) : ofMembers members = r := by
  rw [ofMembers]
  cases h with
  | missing h => rw [expiry_absent h]; rfl
  | expiry h => rw [expiry_misfit h]; rfl
  | userId expiry h => rw [expiry_given expiry, textClaim_misfit h]; rfl
  | username expiry userId h =>
    rw [expiry_given expiry, textClaim_given userId, textClaim_misfit h]; rfl
  | vars expiry userId username h =>
    rw [expiry_given expiry, textClaim_given userId, textClaim_given username,
      variablesClaim_misfit h]
    rfl
  | entry expiry userId username h unfit =>
    rw [expiry_given expiry, textClaim_given userId, textClaim_given username,
      variablesClaim_unfit h unfit]
    rfl
  | admitted h =>
    rw [expiry_given h.expiry, textClaim_given h.userId, textClaim_given h.username,
      variablesClaim_given h.vars]
    rfl

theorem exists_judges {members : Entries Json} (h : (Json.object members).Canonical) :
    ∃ r, Judges members r := by
  rcases expiry_cases members with ⟨e, expiry⟩ | absent | ⟨v, misfit⟩
  · rcases textClaim_cases members "uid" with ⟨u, userId⟩ | ⟨v, misfit⟩
    · rcases textClaim_cases members "usn" with ⟨n, username⟩ | ⟨v, misfit⟩
      · rcases variables_cases h with ⟨m, vars⟩ | ⟨v, misfit⟩ | ⟨_, _, _, _, found, unfit⟩
        · exact ⟨.ok ⟨e, u, n, m⟩, .admitted ⟨expiry, userId, username, vars⟩⟩
        · exact ⟨_, .vars expiry userId username misfit⟩
        · exact ⟨_, .entry expiry userId username found unfit⟩
      · exact ⟨_, .username expiry userId misfit⟩
    · exact ⟨_, .userId expiry misfit⟩
  · exact ⟨_, .missing absent⟩
  · exact ⟨_, .expiry misfit⟩

theorem Verdict.eq {token : String} {r : Except TokenError Claims} (h : Verdict token r) :
    decode token = r := by
  cases h with
  | segmentCount h => rw [decode, claimsSegment_of_count h]; rfl
  | emptyClaims h => rw [decode, claimsSegment_of_bears h]; rfl
  | encoding h nonempty unencoded =>
    rw [decode_of_bears h nonempty, document_unencoded unencoded]; rfl
  | notObject h nonempty other =>
    rw [decode_of_bears h (Base64.encode_ne_nil nonempty), document_other other]; rfl
  | claims h judged =>
    obtain ⟨bytes, nonempty, bears, shown⟩ := h
    rw [decode_of_bears bears (Base64.encode_ne_nil nonempty), document_shown shown]
    exact judged.eq

theorem exists_verdict (token : String) : ∃ r, Verdict token r := by
  by_cases hcount : token.toList.count '.' = 2
  · obtain ⟨claims, bears⟩ := bears_of_count hcount
    by_cases hempty : claims = []
    · exact ⟨_, .emptyClaims (hempty ▸ bears)⟩
    · by_cases encoded : ∃ bytes, claims = Base64.encode .url bytes
      · obtain ⟨bytes, rfl⟩ := encoded
        have nonempty : bytes ≠ [] := fun h => hempty (h ▸ rfl)
        by_cases shown : ∃ members, (Json.object members).HasText bytes
        · obtain ⟨members, shown⟩ := shown
          have presents : Presents token members := ⟨bytes, nonempty, bears, shown⟩
          obtain ⟨r, judged⟩ := exists_judges presents.canonical
          exact ⟨r, .claims presents judged⟩
        · exact ⟨_, .notObject bears nonempty (not_exists.mp shown)⟩
      · exact ⟨_, .encoding bears hempty (not_exists.mp encoded)⟩
  · exact ⟨_, .segmentCount hcount⟩

theorem decode_eq_iff {token : String} {r : Except TokenError Claims} :
    decode token = r ↔ Verdict token r := by
  constructor
  · rintro rfl
    obtain ⟨r, h⟩ := exists_verdict token
    exact h.eq ▸ h
  · exact Verdict.eq

theorem decode_eq_ok_iff {token : String} {c : Claims} :
    decode token = .ok c ↔ ∃ members, Presents token members ∧ Admits members c := by
  rw [decode_eq_iff]
  constructor
  · intro h
    cases h with
    | claims presents judged =>
      cases judged with
      | admitted admits => exact ⟨_, presents, admits⟩
  · rintro ⟨members, presents, admits⟩
    exact .claims presents (.admitted admits)

theorem decode_assembled {header header' claims signature signature' : List Char}
    (hh : '.' ∉ header) (hh' : '.' ∉ header') (hc : '.' ∉ claims) (hs : '.' ∉ signature)
    (hs' : '.' ∉ signature') (padding padding' : Nat) :
    decode (assembled header (claims ++ List.replicate padding '=') signature) =
      decode (assembled header' (claims ++ List.replicate padding' '=') signature') := by
  simp only [decode, claimsSegment, segments_assembled hh (dotless_padded hc padding) hs,
    segments_assembled hh' (dotless_padded hc padding') hs', trimPadding_padded]

/-- A token is accepted exactly if all five stages pass, what is found in any token is its verdict,
and neither reads anything but what is left of the middle segment without padding. -/
theorem decode_verdict :
    (∀ token c, decode token = .ok c ↔ ∃ members, Presents token members ∧ Admits members c) ∧
    (∀ token r, decode token = r ↔ Verdict token r) ∧
    ∀ {header header' claims signature signature' : List Char}, '.' ∉ header → '.' ∉ header' →
      '.' ∉ claims → '.' ∉ signature → '.' ∉ signature' → ∀ padding padding',
      decode (assembled header (claims ++ List.replicate padding '=') signature) =
        decode (assembled header' (claims ++ List.replicate padding' '=') signature') :=
  ⟨fun _ _ => decode_eq_ok_iff, fun _ _ => decode_eq_iff, decode_assembled⟩

/-- The claims `{"exp":1}` under one signature with padding, and under another without. -/
theorem decode_verdict_padded :
    decode (assembled ['h'] ("eyJleHAiOjF9".toList ++ List.replicate 2 '=') ['s']) =
      decode (assembled [] ("eyJleHAiOjF9".toList ++ List.replicate 0 '=') ['t']) ∧
    Verdict "h.eyJleHAiOjF9==.s" (.ok ⟨1, none, none, none⟩) :=
  ⟨decode_verdict.2.2 (by decide) (by decide) (by decide) (by decide) (by decide) 2 0,
    (decode_verdict.2.1 _ _).mp (Session.eq_ok_of_toOption (by decide +kernel))⟩

end Claims
end GameLink
