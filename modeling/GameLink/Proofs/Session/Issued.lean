import GameLink.Proofs.Session.Verdict
import GameLink.Proofs.Session.Expiry

/-! # Tokens that are issued are decoded

A token whose middle segment is the base64url of written claims decodes to just
these claims: for every expiry of 64 bits, every text as identity or variable, in
whatever order the claims are written, and with any other claims next to them. What
is left out or null is none.
-/
namespace GameLink.Claims
open Json

/-- Variables as they are written, in any order. -/
inductive CarriesVariables (members : List (String × Json)) : Option (StringMap String) → Prop
  | absent (h : Absent members "vrs") : CarriesVariables members none
  | texts {m : StringMap String} {vars : List (String × Json)}
      (found : Entries.find? "vrs" members = some (.object vars))
      (perm : vars.Perm (textEntries m.entries)) : CarriesVariables members (some m)

/-- An object that says the claims. What else it says can be read but is of no account. -/
structure Carries (c : Claims) (members : List (String × Json)) : Prop where
  apart : (members.map Prod.fst).Nodup
  expiry : Entries.find? "exp" members = some (.ofInt c.expiresAt)
  userId : Gives members "uid" c.userId
  username : Gives members "usn" c.username
  vars : CarriesVariables members c.vars
  others : ∀ m ∈ members, m.1 ∉ ["exp", "uid", "usn", "vrs"] → m.2.Portable 126

/-- A token with written claims in the middle. -/
def issued (header : List Char) (members : List (String × Json)) (padding : Nat)
    (signature : List Char) : String :=
  assembled header
    (Base64.encode .url (Bytes.ofText (Json.object members).render) ++ List.replicate padding '=')
    signature

/-! ## Written claims are a text of claims -/

theorem find?_map_sorted_textEntries (key : String) (pairs : List (String × String)) :
    (Entries.find? key (textEntries pairs)).map Json.sorted =
      Entries.find? key (textEntries pairs) := by
  induction pairs with
  | nil => rfl
  | cons p pairs ih =>
    by_cases h : key = p.1
    · simp [textEntries, Entries.find?, h, Json.sorted]
    · simpa [textEntries, Entries.find?, h] using ih

/-- Variables are read in key order. -/
theorem sorted_variables {m : StringMap String} {vars : List (String × Json)}
    (perm : vars.Perm (textEntries m.entries)) :
    (Json.object vars).sorted = .object (textEntries m.entries) := by
  have sorted : Entries.Sorted (textEntries m.entries) := sorted_textEntries.mpr m.sorted
  have apart : (vars.map Prod.fst).Nodup :=
    (perm.map Prod.fst).nodup_iff.mpr (nodup_keys sorted)
  have entries : Entries.ofList (sortedMembers vars) = textEntries m.entries :=
    entries_ext (Entries.sorted_ofList _) sorted fun key => by
      rw [find?_ofList_sortedMembers apart, find?_perm perm apart, find?_map_sorted_textEntries]
  rw [Json.sorted, entries]

theorem portable_variables {m : StringMap String} {vars : List (String × Json)}
    (perm : vars.Perm (textEntries m.entries)) : (Json.object vars).Portable 126 := by
  refine portable_object ((perm.map Prod.fst).nodup_iff.mpr ?_) fun v hv => ?_
  · exact nodup_keys (sorted_textEntries.mpr m.sorted)
  · obtain ⟨p, -, rfl⟩ := List.mem_map.mp (perm.mem_iff.mp hv)
    exact portable_string _ p.2

section
variable {c : Claims} {members : List (String × Json)}

theorem Gives.portable {claim : String} {s : Option String} (h : Gives members claim s) {v : Json}
    (hv : Entries.find? claim members = some v) : v.Portable 126 := by
  cases h with
  | absent h =>
    rcases h with h | h
    · rw [h] at hv
      cases hv
    · obtain rfl := Option.some.inj (h.symm.trans hv)
      exact ⟨rfl, trivial, Nat.zero_le _⟩
  | text h =>
    obtain rfl := Option.some.inj (h.symm.trans hv)
    exact portable_string _ _

theorem CarriesVariables.portable {m : Option (StringMap String)} (h : CarriesVariables members m)
    {v : Json} (hv : Entries.find? "vrs" members = some v) : v.Portable 126 := by
  cases h with
  | absent h => exact Gives.portable (.absent h) hv
  | texts found perm =>
    obtain rfl := Option.some.inj (found.symm.trans hv)
    exact portable_variables perm

theorem Carries.portable (h : Carries c members) (range : Overflow.inRange c.expiresAt = true) :
    (Json.object members).Portable 127 := by
  refine portable_object h.apart fun m hm => ?_
  obtain ⟨key, v⟩ := m
  have found := (mem_iff_find? h.apart).mp hm
  by_cases known : key ∈ ["exp", "uid", "usn", "vrs"]
  · simp only [List.mem_cons, List.not_mem_nil, or_false] at known
    rcases known with rfl | rfl | rfl | rfl
    · obtain rfl := Option.some.inj (h.expiry.symm.trans found)
      obtain ⟨low, high⟩ := Overflow.inRange_iff.mp range
      exact portable_ofInt _ low (Int.le_trans high (by decide))
    · exact h.userId.portable found
    · exact h.username.portable found
    · exact h.vars.portable found
  · exact h.others _ hm known

/-! ## What is read of them -/

/-- The members that are read, in key order. -/
def read (members : List (String × Json)) : Entries Json := Entries.ofList (sortedMembers members)

theorem Carries.find?_read (h : Carries c members) (claim : String) :
    Entries.find? claim (read members) = (Entries.find? claim members).map Json.sorted :=
  find?_ofList_sortedMembers h.apart claim

theorem Absent.read (h : Carries c members) {claim : String} (absent : Absent members claim) :
    Absent (read members) claim := by
  rcases absent with absent | absent
  · exact .inl (by rw [h.find?_read, absent]; rfl)
  · exact .inr (by rw [h.find?_read, absent]; rfl)

theorem Gives.read (h : Carries c members) {claim : String} {s : Option String}
    (gives : Gives members claim s) : Gives (read members) claim s := by
  cases gives with
  | absent absent => exact .absent (absent.read h)
  | text found => exact .text (by rw [h.find?_read, found]; rfl)

theorem CarriesVariables.read (h : Carries c members) {m : Option (StringMap String)}
    (carries : CarriesVariables members m) : GivesVariables (read members) m := by
  cases carries with
  | absent absent => exact .absent (absent.read h)
  | texts found perm =>
    exact .texts (by rw [h.find?_read, found, Option.map_some, sorted_variables perm])

theorem seconds_int {n : Int} (range : Overflow.inRange n = true) : seconds (.int n) = n := by
  obtain ⟨low, high⟩ := Overflow.inRange_iff.mp range
  rw [seconds, Int.min_eq_right high, Int.max_eq_right low]

theorem Carries.admits (h : Carries c members) (range : Overflow.inRange c.expiresAt = true) :
    Admits (read members) c where
  expiry := ⟨.int c.expiresAt, by rw [h.find?_read, h.expiry]; rfl, (seconds_int range).symm⟩
  userId := h.userId.read h
  username := h.username.read h
  vars := h.vars.read h

theorem Carries.hasText (h : Carries c members) (range : Overflow.inRange c.expiresAt = true) :
    (Json.object (read members)).HasText (Bytes.ofText (Json.object members).render) := by
  have portable := h.portable range
  refine ⟨.ofJson (.object members), ?_, value?_ofJson _ portable.depth⟩
  exact Document.ofBytes_eq_iff.mp (Document.ofBytes_render portable.integral)

end

theorem bears_issued {header signature : List Char} (hh : '.' ∉ header) (hs : '.' ∉ signature)
    (members : List (String × Json)) (padding : Nat) :
    Bears (Base64.encode .url (Bytes.ofText (Json.object members).render))
      (issued header members padding signature) := by
  refine .intro hh (Base64.dot_not_mem_encode _ _) (fun h => ?_) hs
  exact Base64.pad_not_mem_encode _ _ (List.mem_of_getLast? h)

theorem ofText_render_ne_nil (members : List (String × Json)) :
    Bytes.ofText (Json.object members).render ≠ [] := by
  rw [render, ofText_ofList, chars, List.cons_append, utf8_cons]
  exact List.append_ne_nil_of_left_ne_nil (by decide) _

/-- Written claims are decoded, in whatever order and with whatever other claims they stand. -/
theorem decode_issued {c : Claims} {members : List (String × Json)} (h : Carries c members)
    (range : Overflow.inRange c.expiresAt = true) {header signature : List Char}
    (hh : '.' ∉ header) (hs : '.' ∉ signature) (padding : Nat) :
    decode (issued header members padding signature) = .ok c :=
  decode_eq_ok_iff.mpr ⟨read members,
    ⟨_, ofText_render_ne_nil members, bears_issued hh hs members padding, h.hasText range⟩,
    h.admits range⟩

/-! ## The tokens of claims -/

theorem find?_append {α : Type} (key : String) (m m' : Entries α) :
    Entries.find? key (m ++ m') = (Entries.find? key m).or (Entries.find? key m') := by
  induction m with
  | nil => rfl
  | cons p m ih => by_cases h : key = p.1 <;> simp [Entries.find?, h, ih]

theorem find?_toList {α β : Type} (key claim : String) (o : Option α) (f : α → β) :
    Entries.find? key (o.map fun a => (claim, f a)).toList =
      if key = claim then o.map f else none := by
  cases o <;> simp [Entries.find?]

/-- The members that claims are written with. -/
def written (c : Claims) : List (String × Json) :=
  [("exp", .ofInt c.expiresAt)] ++ (c.userId.map fun s => ("uid", Json.string s)).toList ++
    (c.username.map fun s => ("usn", Json.string s)).toList ++
    (c.vars.map fun m => ("vrs", Json.object (textEntries m.entries))).toList

theorem gives_of_find? {members : Entries Json} {claim : String} {s : Option String}
    (h : Entries.find? claim members = s.map .string) : Gives members claim s := by
  cases s with
  | none => exact .absent (.inl h)
  | some s => exact .text h

theorem carriesVariables_of_find? {members : List (String × Json)} {m : Option (StringMap String)}
    (h : Entries.find? "vrs" members = m.map fun m => .object (textEntries m.entries)) :
    CarriesVariables members m := by
  cases m with
  | none => exact .absent (.inl h)
  | some m => exact .texts h (.refl _)

theorem carries_written (c : Claims) : Carries c c.written where
  apart := by
    rw [written]
    cases c.userId <;> cases c.username <;> cases c.vars <;> simp
  expiry := by simp [written, Entries.find?]
  userId := gives_of_find? (by simp [written, find?_append, find?_toList, Entries.find?])
  username := gives_of_find? (by simp [written, find?_append, find?_toList, Entries.find?])
  vars := carriesVariables_of_find? (by simp [written, find?_append, find?_toList, Entries.find?])
  others := by
    intro m hm other
    exfalso
    simp only [written, List.mem_append, List.mem_singleton, Option.mem_toList,
      Option.map_eq_some_iff] at hm
    rcases hm with ((rfl | ⟨_, -, rfl⟩) | ⟨_, -, rfl⟩) | ⟨_, -, rfl⟩ <;> simp at other

theorem encode_eq_issued (c : Claims) (header signature : String) (padding : Nat) :
    c.encode header signature padding =
      issued header.toList c.written padding signature.toList := by
  rw [← String.toList_inj, issued, assembled, String.toList_ofList, encode]
  simp only [String.toList_append, String.toList_ofList, List.append_assoc]
  rfl

/-- Claims come back from every token that is made of them. -/
theorem decode_encode {c : Claims} (range : Overflow.inRange c.expiresAt = true)
    {header signature : String} (hh : '.' ∉ header.toList) (hs : '.' ∉ signature.toList)
    (padding : Nat) :
    decode (c.encode header signature padding) = .ok c ∧
    ∀ {members : List (String × Json)}, Carries c members →
      decode (issued header.toList members padding signature.toList) = .ok c :=
  ⟨encode_eq_issued c header signature padding ▸
    decode_issued (carries_written c) range hh hs padding,
    fun carries => decode_issued carries range hh hs padding⟩

/-- A negative expiry, a quote and a letter beyond ASCII, a null, variables out of order and a
claim that is of no account. -/
theorem decode_encode_reordered :
    let c : Claims := ⟨-5, some "ä\"", none, some (.ofList [("a", "x"), ("b", "")])⟩
    decode (c.encode "h" "" 3) = .ok c ∧
    decode (issued ['h'] [("vrs", .object [("b", .string ""), ("a", .string "x")]), ("usn", .null),
      ("tid", .bool true), ("exp", .ofInt (-5)), ("uid", .string "ä\"")] 3 []) = .ok c := by
  intro c
  have header : '.' ∉ "h".toList := by decide
  have signature : '.' ∉ "".toList := by decide
  have both := @decode_encode c (by decide) _ _ header signature 3
  refine ⟨both.1, both.2 ?_⟩
  exact {
    apart := by decide
    expiry := rfl
    userId := .text rfl
    username := .absent (.inr rfl)
    vars := .texts rfl (.swap _ _ _)
    others := by simp [portable_bool] }

end GameLink.Claims
