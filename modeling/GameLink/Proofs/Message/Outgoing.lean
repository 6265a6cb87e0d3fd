import GameLink.Proofs.Message.Payloads

/-! # Outgoing envelopes on the wire

The body of an operation is an object of named fields, of which some are left out
when there is nothing to say. A frame is decoded to the operation's key with just
those fields, in key order, and two envelopes never share a frame. As maps are
written in an order of their own, this is said of every text that has the members
of its objects in some order.
-/
namespace GameLink
open Json.Reading Envelope

/-! ## Fields that may be left out -/

/-- The fields that are there. -/
def present (parts : List (String × Option Json)) : List (String × Json) :=
  parts.filterMap fun p => p.2.map fun v => (p.1, v)

@[simp]
theorem present_nil : present [] = [] := rfl

@[simp]
theorem present_cons_none (key : String) (rest : List (String × Option Json)) :
    present ((key, none) :: rest) = present rest := rfl

@[simp]
theorem present_cons_some (key : String) (v : Json) (rest : List (String × Option Json)) :
    present ((key, some v) :: rest) = (key, v) :: present rest := rfl

theorem mem_present {parts : List (String × Option Json)} {m : String × Json} :
    m ∈ present parts ↔ (m.1, some m.2) ∈ parts := by
  obtain ⟨key, v⟩ := m
  simp [present]

theorem keys_present_sublist (parts : List (String × Option Json)) :
    ((present parts).map Prod.fst).Sublist (parts.map Prod.fst) := by
  induction parts with
  | nil => exact .slnil
  | cons p rest ih =>
    obtain ⟨key, o⟩ := p
    cases o with
    | none => exact ih.cons key
    | some v => exact ih.cons_cons key

theorem find?_present (key : String) {parts : List (String × Option Json)}
    (apart : (parts.map Prod.fst).Nodup) :
    Entries.find? key (present parts) = (Entries.find? key parts).join := by
  induction parts with
  | nil => rfl
  | cons p rest ih =>
    obtain ⟨k, o⟩ := p
    obtain ⟨hnot, hrest⟩ := List.nodup_cons.mp apart
    by_cases hk : key = k
    · subst hk
      have hnone : Entries.find? key (present rest) = none :=
        Json.find?_eq_none_of_not_mem fun h => hnot ((keys_present_sublist rest).mem h)
      cases o <;> simp [Entries.find?, hnone]
    · cases o <;> simp [Entries.find?, hk, ih hrest]

/-- Fields that are found alike are alike, up to the order of members in them. -/
theorem parts_ext {parts parts' : List (String × Option Json)}
    (hnames : parts.map Prod.fst = parts'.map Prod.fst) (apart : (parts.map Prod.fst).Nodup)
    (h : ∀ key, (Entries.find? key (present parts)).map Json.sorted =
      (Entries.find? key (present parts')).map Json.sorted) :
    parts.map (fun p => p.2.map Json.sorted) = parts'.map (fun p => p.2.map Json.sorted) := by
  -- the names agree one by one, and what is found under the first says nothing about the rest
  induction parts generalizing parts' with
  | nil =>
    rw [List.map_eq_nil_iff.mp hnames.symm]
  | cons p rest ih =>
    obtain ⟨key, o⟩ := p
    obtain ⟨⟨key', o'⟩, rest', rfl, hkey, hrest⟩ := List.map_eq_cons_iff.mp hnames.symm
    obtain rfl : key' = key := hkey
    have apart' : (((key', o') :: rest').map Prod.fst).Nodup := hnames ▸ apart
    obtain ⟨hnot, hnodup⟩ := List.nodup_cons.mp apart
    obtain ⟨hnot', hnodup'⟩ := List.nodup_cons.mp apart'
    have hjoin : ∀ k, (Entries.find? k ((key', o) :: rest)).join.map Json.sorted =
        (Entries.find? k ((key', o') :: rest')).join.map Json.sorted := by
      intro k
      rw [← find?_present k apart, ← find?_present k apart', h k]
    have hhead : o.map Json.sorted = o'.map Json.sorted := by
      simpa [Entries.find?] using hjoin key'
    have htail := ih hrest.symm hnodup fun k => by
      rw [find?_present k hnodup, find?_present k hnodup']
      by_cases hk : k = key'
      · subst hk
        rw [Json.find?_eq_none_of_not_mem hnot, Json.find?_eq_none_of_not_mem hnot']
      · simpa [Entries.find?, hk] using hjoin k
    rw [List.map_cons, List.map_cons, hhead, htail]

namespace Outbound

/-- A list that counts as absent when it is empty. -/
def listed (vs : List Json) : Option Json := if vs.isEmpty then none else some (.array vs)

/-- A map that counts as absent when it is empty. -/
def mapped (m : Entries Json) : Option Json := if m.isEmpty then none else some (.object m)

/-- The fields of a body by name, with nothing for those that are left out. -/
def parts : Outbound → List (String × Option Json)
  | .matchCreate name => [("name", name.map .string)]
  | .matchJoin matchId token metadata =>
    [("match_id", matchId.map .string), ("token", token.map .string),
      ("metadata", mapped (texts metadata))]
  | .matchLeave matchId => [("match_id", some (.string matchId))]
  | .matchDataSend d =>
    [("match_id", some (.string d.matchId)), ("op_code", some (opCodeText d.opCode)),
      ("data", some (dataText d.data)), ("presences", listed (d.presences.map Presence.toJson)),
      ("reliable", some (.bool d.reliable))]
  | .channelJoin target type persistence hidden =>
    [("target", some (.string target)), ("type", some (.ofNat type.code)),
      ("persistence", some (.bool persistence)), ("hidden", some (.bool hidden))]
  | .channelLeave channelId => [("channel_id", some (.string channelId))]
  | .channelMessageSend channelId content =>
    [("channel_id", some (.string channelId)), ("content", some (.string content))]
  | .partyCreate isOpen maxSize =>
    [("open", some (.bool isOpen)), ("max_size", some (.ofNat maxSize))]
  | .partyJoin partyId => [("party_id", some (.string partyId))]
  | .partyLeave partyId => [("party_id", some (.string partyId))]
  | .partyDataSend partyId opCode data =>
    [("party_id", some (.string partyId)), ("op_code", some (opCodeText opCode)),
      ("data", some (dataText data))]
  | .matchmakerAdd t =>
    [("min_count", some (.ofNat t.minCount)), ("max_count", some (.ofNat t.maxCount)),
      ("query", some (.string t.query)), ("string_properties", mapped (texts t.stringProperties)),
      ("numeric_properties", mapped (numbers t.numericProperties))]
  | .matchmakerRemove ticket => [("ticket", some (.string ticket))]
  | .statusFollow userIds usernames =>
    [("user_ids", listed (userIds.map .string)), ("usernames", listed (usernames.map .string))]
  | .statusUnfollow userIds => [("user_ids", some (.ofStrings userIds))]
  | .statusUpdate status => [("status", status.map .string)]
  | .rpc r =>
    [("id", some (.string r.id)), ("payload", r.payload.map .string),
      ("http_key", r.httpKey.map .string)]
  | .ping => []

theorem members_eq_present (m : Outbound) : m.members = present m.parts := by
  have hoption : ∀ (key : String) (o : Option String) rest,
      present ((key, o.map .string) :: rest) = optionalText key o ++ present rest := by
    rintro key (_ | s) rest <;> rfl
  have hlist : ∀ (key : String) (vs : List Json) rest,
      present ((key, listed vs) :: rest) = unlessEmpty key vs ++ present rest := by
    intro key vs rest
    unfold listed unlessEmpty
    split <;> rfl
  have hmap : ∀ (key : String) (m : Entries Json) rest,
      present ((key, mapped m) :: rest) = mapUnlessEmpty key m ++ present rest := by
    intro key m rest
    unfold mapped mapUnlessEmpty
    split <;> rfl
  cases m <;> simp [members, MatchData.members, MatchmakerTicket.members, Rpc.members, parts,
    hoption, hlist, hmap]

theorem nodup_parts (m : Outbound) : (m.parts.map Prod.fst).Nodup := by
  cases m <;> simp [parts]

theorem kind_not_fixed (m : Outbound) : m.kind ∉ fixedKeys := by
  cases m <;> simp [kind, fixedKeys]

/-! ## Values that tell what they show -/

@[simp]
theorem sorted_string_inj {s s' : String} :
    (Json.string s).sorted = (Json.string s').sorted ↔ s = s' := by
  simp [Json.sorted]

@[simp]
theorem sorted_option_inj {o o' : Option String} :
    o.map (Json.sorted ∘ Json.string) = o'.map (Json.sorted ∘ Json.string) ↔ o = o' := by
  cases o <;> cases o' <;> simp

@[simp]
theorem sorted_bool_inj {b b' : Bool} : (Json.bool b).sorted = (Json.bool b').sorted ↔ b = b' := by
  simp [Json.sorted]

@[simp]
theorem sorted_ofNat_inj {n n' : Nat} :
    (Json.ofNat n).sorted = (Json.ofNat n').sorted ↔ n = n' := by
  simp only [Json.ofNat, Json.sorted, Json.number.injEq, Number.int.injEq, Int.ofNat_inj]

@[simp]
theorem code_inj {type type' : ChannelType} : type.code = type'.code ↔ type = type' := by
  cases type <;> cases type' <;> simp [ChannelType.code]

@[simp]
theorem sorted_opCodeText_inj {n n' : Int} :
    (opCodeText n).sorted = (opCodeText n').sorted ↔ n = n' := by
  refine ⟨fun h => ?_, fun h => by rw [h]⟩
  have htext : toString n = toString n' := sorted_string_inj.mp h
  have hn := Decimal.signed?_eq_some_iff.mpr (Decimal.writesInt_toString n)
  rw [htext, Decimal.signed?_eq_some_iff.mpr (Decimal.writesInt_toString n')] at hn
  exact (Option.some.inj hn).symm

@[simp]
theorem sorted_dataText_inj {data data' : Bytes} :
    (dataText data).sorted = (dataText data').sorted ↔ data = data' := by
  refine ⟨fun h => ?_, fun h => by rw [h]⟩
  have htext : dataText data = dataText data' := congrArg Json.string (sorted_string_inj.mp h)
  have hread := base64_dataText data
  rw [htext, base64_dataText data'] at hread
  exact (Except.ok.inj hread).symm

theorem map_sorted_inj {α : Type} {f : α → Json} (hf : ∀ a b, (f a).sorted = (f b).sorted → a = b)
    {as bs : List α} :
    (Json.array (as.map f)).sorted = (Json.array (bs.map f)).sorted ↔ as = bs := by
  have hinjective : Function.Injective (Json.sorted ∘ f) := fun a b => hf a b
  simp only [Json.sorted, Json.array.injEq, Json.sortedItems_eq_map, List.map_map]
  exact (List.map_injective_iff.mpr hinjective).eq_iff

theorem listed_inj {α : Type} {f : α → Json} (hf : ∀ a b, (f a).sorted = (f b).sorted → a = b)
    {as bs : List α} :
    (listed (as.map f)).map Json.sorted = (listed (bs.map f)).map Json.sorted ↔ as = bs := by
  refine Iff.trans ?_ (map_sorted_inj hf)
  cases as <;> cases bs <;> simp [listed, Json.sorted, Json.sortedItems_eq_map]

@[simp]
theorem sorted_ofStrings_inj {ss ss' : List String} :
    (Json.ofStrings ss).sorted = (Json.ofStrings ss').sorted ↔ ss = ss' :=
  map_sorted_inj fun _ _ => sorted_string_inj.mp

@[simp]
theorem listed_texts_inj {ss ss' : List String} :
    (listed (ss.map Json.string)).map Json.sorted = (listed (ss'.map Json.string)).map Json.sorted ↔
      ss = ss' :=
  listed_inj fun _ _ => sorted_string_inj.mp

theorem presence_inj (p q : Presence) (h : p.toJson.sorted = q.toJson.sorted) : p = q := by
  have hp := Presence.steady_reading.ofJson?_sorted p.portable_toJson.unrepeated
  have hq := Presence.steady_reading.ofJson?_sorted q.portable_toJson.unrepeated
  rw [h, hq, ofJson?, ofJson?, p.reading_toJson, q.reading_toJson] at hp
  exact (Option.some.inj hp).symm

@[simp]
theorem listed_presences_inj {ps qs : List Presence} :
    (listed (ps.map Presence.toJson)).map Json.sorted =
      (listed (qs.map Presence.toJson)).map Json.sorted ↔ ps = qs :=
  listed_inj presence_inj

theorem keys_texts (m : StringMap String) : (texts m).map Prod.fst = m.entries.map Prod.fst := by
  rw [texts, List.map_map]
  rfl

theorem find?_texts (key : String) (m : StringMap String) :
    Entries.find? key (texts m) = (Entries.find? key m.entries).map Json.string := by
  rw [texts]
  induction m.entries with
  | nil => rfl
  | cons p rest ih =>
    rw [List.map_cons, Entries.find?, Entries.find?, ih]
    split <;> rfl

theorem texts_inj {m m' : StringMap String}
    (h : (Json.object (texts m)).sorted = (Json.object (texts m')).sorted) : m = m' := by
  have hfind : ∀ (m : StringMap String) (key : String),
      Entries.find? key (Entries.ofList (Json.sortedMembers (texts m))) =
        (Entries.find? key m.entries).map (Json.sorted ∘ Json.string) := by
    intro m key
    have hkeys : ((texts m).map Prod.fst).Nodup := by
      rw [keys_texts]
      exact Json.nodup_keys m.sorted
    rw [Json.find?_ofList_sortedMembers hkeys, find?_texts, Option.map_map]
  have hentries : m.entries = m'.entries := by
    refine Json.entries_ext m.sorted m'.sorted fun key => sorted_option_inj.mp ?_
    rw [← hfind, ← hfind, Json.object.inj h]
  cases m
  cases m'
  cases hentries
  rfl

@[simp]
theorem mapped_texts_inj {m m' : StringMap String} :
    (mapped (texts m)).map Json.sorted = (mapped (texts m')).map Json.sorted ↔ m = m' := by
  refine ⟨fun h => texts_inj ?_, fun h => by rw [h]⟩
  unfold mapped at h
  cases hm : texts m <;> cases hm' : texts m' <;> simp [hm, hm'] at h ⊢
  exact h

/-! ## Bodies -/

/-- Counts that fit their types, and no properties that are not integers. -/
def Bounded : Outbound → Prop
  | .partyCreate _ maxSize => maxSize ≤ 4294967295
  | .matchmakerAdd t =>
    t.minCount ≤ 4294967295 ∧ t.maxCount ≤ 4294967295 ∧ t.numericProperties = .empty
  | _ => True

/-- A field that is left out, or is written and read back. -/
def Sound (o : Option Json) : Prop := ∀ v ∈ o, v.Portable 2

theorem sound_some {v : Json} (h : v.Portable 2) : Sound (some v) := by
  rintro _ ⟨⟩
  exact h

@[simp]
theorem sound_text (s : String) : Sound (some (.string s)) := sound_some (Json.portable_string 2 s)

@[simp]
theorem sound_flag (b : Bool) : Sound (some (.bool b)) := sound_some (Json.portable_bool 2 b)

theorem sound_count {n : Nat} (h : n ≤ 4294967295) : Sound (some (.ofNat n)) := by
  have hlow : Decimal.minInt64 ≤ (n : Int) := by simp only [Decimal.minInt64]; omega
  have hhigh : (n : Int) ≤ Decimal.maxUInt64 := by simp only [Decimal.maxUInt64]; omega
  exact sound_some (Json.portable_ofInt 2 hlow hhigh)

@[simp]
theorem sound_option (o : Option String) : Sound (o.map .string) := by
  cases o with
  | none => rintro _ ⟨⟩
  | some s => exact sound_text s

theorem sound_listed {vs : List Json} (h : ∀ v ∈ vs, v.Portable 1) : Sound (listed vs) := by
  unfold listed
  split
  · rintro _ ⟨⟩
  · exact sound_some (Json.portable_array h)

@[simp]
theorem sound_texts (ss : List String) : Sound (listed (ss.map .string)) :=
  sound_listed (List.forall_mem_map.mpr fun s _ => Json.portable_string 1 s)

@[simp]
theorem sound_presences (ps : List Presence) : Sound (listed (ps.map Presence.toJson)) :=
  sound_listed (List.forall_mem_map.mpr fun p _ => p.portable_toJson)

@[simp]
theorem sound_ofStrings (ss : List String) : Sound (some (.ofStrings ss)) :=
  sound_some (Json.portable_array (List.forall_mem_map.mpr fun s _ => Json.portable_string 1 s))

@[simp]
theorem sound_code (type : ChannelType) : Sound (some (.ofNat type.code)) :=
  sound_count (by cases type <;> decide)

@[simp]
theorem sound_mapped (m : StringMap String) : Sound (mapped (texts m)) := by
  unfold mapped
  split
  · rintro _ ⟨⟩
  · refine sound_some (Json.portable_object ?_ ?_)
    · rw [keys_texts]
      exact Json.nodup_keys m.sorted
    · intro p hp
      obtain ⟨q, -, rfl⟩ := List.mem_map.mp hp
      exact Json.portable_string 1 q.2

theorem sound_parts {m : Outbound} (h : m.Bounded) : ∀ p ∈ m.parts, Sound p.2 := by
  cases m with
  | partyCreate isOpen maxSize =>
    have hsize := sound_count h
    simp [parts, hsize]
  | matchmakerAdd ticket =>
    obtain ⟨hmin, hmax, hempty⟩ := h
    have hnumbers : Sound (mapped (numbers .empty)) := by rintro _ ⟨⟩
    simp [parts, sound_count hmin, sound_count hmax, hempty, hnumbers]
  | _ => simp [parts, opCodeText, dataText]

theorem portable_body {m : Outbound} (h : m.Bounded) : m.body.Portable 3 := by
  rw [body, members_eq_present]
  refine Json.portable_object (m.nodup_parts.sublist (keys_present_sublist _)) fun p hp => ?_
  exact sound_parts h _ (mem_present.mp hp) _ rfl

theorem names_of_kind {m m' : Outbound} (hkind : m.kind = m'.kind) :
    m.parts.map Prod.fst = m'.parts.map Prod.fst := by
  cases m <;> cases m' <;> first
    | rfl
    | simp [kind] at hkind

/-- Operations of one kind with the same fields are the same. -/
theorem eq_of_parts {m m' : Outbound} (hm : m.Bounded) (hm' : m'.Bounded) (hkind : m.kind = m'.kind)
    (hparts : m.parts.map (fun p => p.2.map Json.sorted) =
      m'.parts.map (fun p => p.2.map Json.sorted)) : m = m' := by
  cases m <;> cases m' <;> first
    | (simp [kind] at hkind; done)
    | skip
  case matchDataSend.matchDataSend d d' =>
    obtain ⟨_, _, _, _, _⟩ := d
    obtain ⟨_, _, _, _, _⟩ := d'
    simpa [parts] using hparts
  case matchmakerAdd.matchmakerAdd t t' =>
    obtain ⟨_, _, _, _, _⟩ := t
    obtain ⟨_, _, _, _, _⟩ := t'
    obtain ⟨-, -, rfl⟩ := hm
    obtain ⟨-, -, rfl⟩ := hm'
    simpa [parts] using hparts
  case rpc.rpc r r' =>
    obtain ⟨_, _, _⟩ := r
    obtain ⟨_, _, _⟩ := r'
    simpa [parts] using hparts
  case ping.ping => rfl
  all_goals simpa [parts] using hparts

/-- The fields that are there, by key. -/
def shown (m : Outbound) : Entries Json :=
  Entries.ofList (present (m.parts.map fun p => (p.1, p.2.map Json.sorted)))

theorem sortedMembers_present (parts : List (String × Option Json)) :
    Json.sortedMembers (present parts) =
      present (parts.map fun p => (p.1, p.2.map Json.sorted)) := by
  induction parts with
  | nil => rfl
  | cons p rest ih =>
    obtain ⟨key, o⟩ := p
    cases o with
    | none => exact ih
    | some v => exact congrArg ((key, v.sorted) :: ·) ih

theorem sorted_body (m : Outbound) : m.body.sorted = .object m.shown := by
  rw [body, members_eq_present, Json.sorted, sortedMembers_present, shown]

/-- Bodies of one kind that show the same are those of one operation. -/
theorem eq_of_body {m m' : Outbound} (hm : m.Bounded) (hm' : m'.Bounded) (hkind : m.kind = m'.kind)
    (hbody : m.body.sorted = m'.body.sorted) : m = m' := by
  have hreorders : m.body.Reorders m'.body := ⟨hbody, (portable_body hm).unrepeated⟩
  have apart' := (Json.unrepeated_object.mp (portable_body hm').unrepeated).1
  obtain ⟨_, hmembers, -, hfind⟩ := hreorders.object apart'
  obtain rfl := Json.object.inj hmembers
  rw [members_eq_present, members_eq_present] at hfind
  exact eq_of_parts hm hm' hkind (parts_ext (names_of_kind hkind) m.nodup_parts hfind)

end Outbound

/-! ## Envelopes -/

namespace Envelope.Outgoing

/-- A text of the envelope, with the members of its objects in some order. -/
def WrittenAs (e : Outgoing) (text : String) : Prop :=
  ∃ v : Json, v.Reorders e.toJson ∧ v.render = text

/-- The envelope as it is decoded. -/
def received (e : Outgoing) : Envelope where
  cid := e.cid.filter (fun c => !c.isEmpty)
  payload := [(e.message.kind, .object e.message.shown)]

theorem portable_toJson {e : Outgoing} (h : e.message.Bounded) : e.toJson.Portable 4 :=
  portable_frameMembers e.message.kind_not_fixed (Outbound.portable_body h)

theorem decode_writtenAs {e : Outgoing} (h : e.message.Bounded) {text : String}
    (htext : e.WrittenAs text) : decode (Bytes.ofText text) = .ok e.received := by
  obtain ⟨v, hv, rfl⟩ := htext
  have hbody := (Outbound.portable_body h).mono (show 3 ≤ payloadDepth by decide)
  rw [decode_frame e.message.kind_not_fixed hbody hv, Outbound.sorted_body, received]

/-- What is written tells which envelope it is. -/
theorem eq_of_writtenAs {e e' : Outgoing} (h : e.message.Bounded) (h' : e'.message.Bounded)
    {text : String} (htext : e.WrittenAs text) (htext' : e'.WrittenAs text) : e = e' := by
  obtain ⟨v, hv, rfl⟩ := htext
  obtain ⟨v', hv', hrender⟩ := htext'
  have hportable := hv.portable (portable_toJson h)
  have hportable' := hv'.portable (portable_toJson h')
  -- both texts hold one document, and so one value
  have hsorted : e.toJson.sorted = e'.toJson.sorted := by
    have hdocument := Json.Document.ofBytes_render hportable.integral
    rw [← hrender, Json.Document.ofBytes_render hportable'.integral] at hdocument
    have hvalue := Json.value?_ofJson v hportable.depth
    rw [← (Prod.mk.inj hdocument).1, Json.value?_ofJson v' hportable'.depth] at hvalue
    rw [← hv.sorted, ← hv'.sorted, Option.some.inj hvalue]
  have hreorders : e.toJson.Reorders e'.toJson := ⟨hsorted, (portable_toJson h).unrepeated⟩
  have hfind : ∀ key,
      (Entries.find? key (frameMembers e.cid e.message.kind e.message.body)).map Json.sorted =
        (Entries.find? key (frameMembers e'.cid e'.message.kind e'.message.body)).map
          Json.sorted := by
    obtain ⟨_, hmembers, -, hfind⟩ :=
      hreorders.object (nodup_frameMembers e'.message.kind_not_fixed)
    obtain rfl := Json.object.inj hmembers
    exact hfind
  have hcid : e.cid = e'.cid := by
    have hfound := hfind "cid"
    rw [find?_frameMembers_cid e.message.kind_not_fixed,
      find?_frameMembers_cid e'.message.kind_not_fixed, Option.map_map, Option.map_map] at hfound
    exact Outbound.sorted_option_inj.mp hfound
  have hmessage : e.message = e'.message := by
    have hne : e.message.kind ≠ "cid" := fun heq =>
      e.message.kind_not_fixed (heq ▸ List.mem_cons_self)
    have hfound := hfind e.message.kind
    rw [find?_frameMembers hne, find?_frameMembers hne, if_pos rfl] at hfound
    by_cases hkind : e.message.kind = e'.message.kind
    · rw [if_pos hkind] at hfound
      exact Outbound.eq_of_body h h' hkind (Option.some.inj hfound)
    · rw [if_neg hkind] at hfound
      cases hfound
  cases e
  cases e'
  cases hcid
  cases hmessage
  rfl

/-- An envelope is written, decoded to its kind and its fields, and told from all others. -/
structure Faithful (e : Outgoing) : Prop where
  written : e.WrittenAs e.toText
  decoded : ∀ text, e.WrittenAs text → decode (Bytes.ofText text) = .ok e.received
  apart : ∀ (e' : Outgoing) (text : String), e'.message.Bounded → e.WrittenAs text →
    e'.WrittenAs text → e' = e

theorem faithful (e : Outgoing) (h : e.message.Bounded) : e.Faithful where
  written := ⟨e.toJson, .refl (portable_toJson h).unrepeated, rfl⟩
  decoded := fun _ htext => decode_writtenAs h htext
  apart := fun _ _ h' htext htext' => eq_of_writtenAs h' h htext' htext

/-- A ticket with properties, in a frame with an empty correlation id. -/
theorem ticket_faithful :
    Faithful ⟨some "",
      .matchmakerAdd { stringProperties := .ofList [("rank", "9"), ("mode", "é")] }⟩ :=
  faithful _ ⟨by decide, by decide, rfl⟩

end Envelope.Outgoing

end GameLink
