import GameLink.Proofs.Message.Decoding
import GameLink.Proofs.Text.Base64
import GameLink.Proofs.Text.Decimal

/-! # Typed payloads survive the wire

What is encoded on one side is a member of a frame on the other, where it is
first a free-form value, with its members in order, and then read into a type.
Op codes travel as decimal text and may come back as numbers, data as padded
base64, and options as members that are left out; all of them are read back.
-/
namespace GameLink
open Json.Reading Envelope

/-! ## Encoded values in frames -/

/-- An encoded value is read back from wherever it stands as payload. -/
structure Survives {α : Type} (body : Json) (read : Json.Reading α) (x : α) : Prop where
  /-- From an envelope that holds it, in whatever way the frame was written. -/
  held : ∀ (e : Envelope) (key : String), Entries.find? key e.payload = some body.sorted →
    payloadAs read key e = .ok x
  /-- From a frame that has it among other members. -/
  amid : ∀ (members : List (String × Json)) (key : String) (e : Envelope), key ∉ fixedKeys →
    (members.map Prod.fst).Nodup → Json.IntegralMembers members → (key, body) ∈ members →
    decode (Bytes.ofText (Json.object members).render) = .ok e → payloadAs read key e = .ok x
  /-- From a frame that has only it, and a correlation id or none. -/
  alone : ∀ (cid : Option String) (key : String), key ∉ fixedKeys →
    ∃ e, decode (Bytes.ofText (Json.object (frameMembers cid key body)).render) = .ok e ∧
      payloadAs read key e = .ok x

theorem survives_of_ofJson? {α : Type} {body : Json} {read : Json.Reading α} {x : α}
    (steady : Steady read) (portable : body.Portable payloadDepth)
    (h : ofJson? read body = some x) : Survives body read x := by
  have hheld : ∀ (e : Envelope) (key : String), Entries.find? key e.payload = some body.sorted →
      payloadAs read key e = .ok x := by
    intro e key hfind
    have hsorted : ofJson? read body.sorted = some x := by
      rw [steady.ofJson?_sorted portable.unrepeated, h]
    simp only [payloadAs, hfind, hsorted]
  refine ⟨hheld, ?_, ?_⟩
  · intro members key e hkey apart integral hmem hdecode
    have hbody := (Json.mem_iff_find? apart).mp hmem
    refine hheld e key ?_
    rw [find?_payload_of_decode integral apart hdecode hkey, hbody]
    rfl
  · intro cid key hkey
    have hunrepeated := (@portable_frameMembers cid _ _ hkey _ portable).unrepeated
    exact ⟨_, decode_frame hkey portable (.refl hunrepeated), hheld _ key (if_pos rfl)⟩

/-! ## Scalars -/

@[simp]
theorem steady_opCode : Steady Json.Reading.opCode :=
  steady_of_scalar (fun _ _ => rfl) (fun _ _ => rfl)

@[simp]
theorem steady_base64 : Steady base64 := steady_of_scalar (fun _ _ => rfl) (fun _ _ => rfl)

@[simp]
theorem steady_uint32 : Steady uint32 := steady_map (steady_integer 0 4294967295) Int.toNat

theorem opCode_text {n : Int} (hlow : Decimal.minInt64 ≤ n) (hhigh : n ≤ Decimal.maxInt64) :
    Json.Reading.opCode (.ofJson (Outbound.opCodeText n)) = .ok n := by
  rw [Outbound.opCodeText, Json.Document.ofJson, Json.Reading.opCode,
    Decimal.int64?_toString hlow hhigh]

theorem opCode_ofInt {n : Int} (hlow : Decimal.minInt64 ≤ n) (hhigh : n ≤ Decimal.maxInt64) :
    Json.Reading.opCode (.ofJson (.ofInt n)) = .ok n :=
  if_pos ⟨hlow, hhigh⟩

theorem base64_dataText (bytes : Bytes) :
    base64 (.ofJson (Outbound.dataText bytes)) = .ok bytes := by
  have htext : text (.ofJson (Outbound.dataText bytes)) =
      .ok (String.ofList (Base64.encodePadded .standard bytes)) := rfl
  rw [base64, htext]
  simp [Base64.decodePadded?_encodePadded, bind, Except.bind]

/-! ## Presences and calls -/

@[simp]
theorem Presence.steady_reading : Steady Presence.reading :=
  steady_record ⟨by decide, by simp⟩ (by simp) _

theorem Presence.portable_toJson (p : Presence) : p.toJson.Portable 1 := by
  refine Json.portable_object ?_ ?_
  · cases p.status <;> simp
  · intro m hm
    rcases List.mem_append.mp hm with hm | hm
    · simp only [List.mem_cons, List.not_mem_nil, or_false] at hm
      rcases hm with rfl | rfl | rfl | rfl
      · exact Json.portable_string 0 _
      · exact Json.portable_string 0 _
      · exact Json.portable_string 0 _
      · exact Json.portable_bool 0 _
    · obtain ⟨s, -, rfl⟩ := Option.map_eq_some_iff.mp (Option.mem_toList.mp hm)
      exact Json.portable_string 0 s

theorem Presence.reading_toJson (p : Presence) : Presence.reading (.ofJson p.toJson) = .ok p := by
  obtain ⟨_, _, _, _, status⟩ := p
  cases status <;> rfl

theorem Presence.optional_toJson (p : Presence) :
    optional Presence.reading (.ofJson p.toJson) = .ok (some p) := by
  have hoptional : optional Presence.reading (.ofJson p.toJson) =
      (Presence.reading (.ofJson p.toJson)).map some := rfl
  rw [hoptional, p.reading_toJson]
  rfl

theorem portable_presences (ps : List Presence) :
    (Json.array (ps.map Presence.toJson)).Portable 2 :=
  Json.portable_array (List.forall_mem_map.mpr fun p _ => p.portable_toJson)

theorem list_presences (ps : List Presence) :
    list Presence.reading (.ofJson (.array (ps.map Presence.toJson))) = .ok ps := by
  have hitems :
      items Presence.reading (Json.Document.ofItems (ps.map Presence.toJson)) = .ok ps := by
    induction ps with
    | nil => rfl
    | cons p rest ih =>
      rw [List.map_cons, Json.Document.ofItems, items, Presence.reading_toJson, ih]
      rfl
  rw [Json.Document.ofJson, list, hitems]
  rfl

theorem Rpc.steady_reading : Steady Rpc.reading :=
  steady_record ⟨by decide, by simp⟩ (by simp) _

theorem Rpc.portable_body (r : Rpc) : (Outbound.rpc r).body.Portable 1 := by
  obtain ⟨_, payload, httpKey⟩ := r
  refine Json.portable_object ?_ ?_
  · cases payload <;> cases httpKey <;>
      simp [Outbound.members, Outbound.Rpc.members, Outbound.optionalText]
  · cases payload <;> cases httpKey <;>
      simp [Outbound.members, Outbound.Rpc.members, Outbound.optionalText, Json.portable_string]

theorem Rpc.reading_body (r : Rpc) : Rpc.reading (.ofJson (Outbound.rpc r).body) = .ok r := by
  obtain ⟨_, payload, httpKey⟩ := r
  cases payload <;> cases httpKey <;> rfl

/-- A record is read from a written object field by field. -/
theorem ofJson?_record {ρ : Type} {fields : List (Slot ρ)} (independent : Independent fields)
    {members : List (String × Json)} (apart : (members.map Prod.fst).Nodup) (blank : ρ) :
    ofJson? (record fields blank) (.object members) =
      if ∀ f ∈ fields, f.required = true → (Entries.find? f.name members).isSome = true then
        fill (fun key => (Entries.find? key members).map Json.Document.ofJson) fields blank
      else none := by
  have hlegible := Json.Document.legible_ofMembers apart
  rw [ofJson?, Json.Document.ofJson, record_object_eq independent hlegible]
  simp only [Json.Document.find?_ofMembers, Option.isSome_map]

/-! ## Data for a match -/

namespace MatchData

/-- The body of the message, with its op code written in one way or another. -/
def bodyWith (code : Json) (d : MatchData) : Json :=
  .object ([("match_id", .string d.matchId), ("op_code", code),
      ("data", Outbound.dataText d.data)] ++
    Outbound.unlessEmpty "presences" (d.presences.map Presence.toJson) ++
    [("reliable", .bool d.reliable)])

theorem body_eq_bodyWith (d : MatchData) :
    (Outbound.matchDataSend d).body = d.bodyWith (Outbound.opCodeText d.opCode) := rfl

/-- The data as those who receive it see it; no sender is named. -/
def received (d : MatchData) : Reply.PushedData where
  matchId := d.matchId
  opCode := d.opCode
  data := d.data
  reliable := d.reliable

theorem portable_bodyWith {code : Json} (hcode : code.Portable 2) (d : MatchData) :
    (d.bodyWith code).Portable 3 := by
  have hflag := Json.portable_bool 2 d.reliable
  have hpresences := portable_presences d.presences
  refine Json.portable_object ?_ ?_
  · unfold Outbound.unlessEmpty
    split <;> simp
  · unfold Outbound.unlessEmpty
    split <;> simp [hcode, hflag, hpresences, Json.portable_string, Outbound.dataText]

theorem reading_bodyWith {code : Json} (d : MatchData)
    (hcode : Json.Reading.opCode (.ofJson code) = .ok d.opCode) :
    ofJson? Reply.PushedData.reading (d.bodyWith code) = some d.received := by
  have hdata := base64_dataText d.data
  have hid : text (.ofJson (.string d.matchId)) = .ok d.matchId := rfl
  have hflag : flag (.ofJson (.bool d.reliable)) = .ok d.reliable := rfl
  rw [Reply.PushedData.reading, bodyWith, ofJson?_record ⟨by decide, by simp⟩]
  · unfold Outbound.unlessEmpty
    split <;> simp [fill, Slot.offer, put_field, put_requiredField, Entries.find?, hcode, hdata,
      hid, hflag, Except.toOption, received]
  · unfold Outbound.unlessEmpty
    split <;> simp

end MatchData

/-! ## Replies -/

namespace Reply

@[simp]
theorem Match.steady_reading : Steady Match.reading :=
  steady_record ⟨by decide, by simp⟩ (by simp) _

@[simp]
theorem Channel.steady_reading : Steady Channel.reading :=
  steady_record ⟨by decide, by simp⟩ (by simp) _

@[simp]
theorem Party.steady_reading : Steady Party.reading :=
  steady_record ⟨by decide, by simp⟩ (by simp) _

@[simp]
theorem Status.steady_reading : Steady Status.reading :=
  steady_record ⟨by decide, by simp⟩ (by simp) _

@[simp]
theorem PushedData.steady_reading : Steady PushedData.reading :=
  steady_record ⟨by decide, by simp⟩ (by simp) _

/-- Presences as replies name them: in a list, as oneself and as the leader of a party. -/
def company (present : List Presence) (self leader : Presence) : Json :=
  .object [("presences", .array (present.map Presence.toJson)), ("self", self.toJson),
    ("leader", leader.toJson)]

section
variable (present : List Presence) (self leader : Presence)

theorem portable_company : (company present self leader).Portable 3 := by
  have hpresent := portable_presences present
  have hself := self.portable_toJson.mono (Nat.le_succ 1)
  have hleader := leader.portable_toJson.mono (Nat.le_succ 1)
  exact Json.portable_object (by simp) (by simp [hpresent, hself, hleader])

theorem Match.ofJson?_company : ofJson? Match.reading (company present self leader) =
    some { presences := present, self := some self } := by
  rw [Match.reading, company, ofJson?_record ⟨by decide, by simp⟩ (by simp)]
  simp [fill, Slot.offer, put_field, Entries.find?, list_presences, Presence.optional_toJson,
    Except.toOption]

theorem Channel.ofJson?_company : ofJson? Channel.reading (company present self leader) =
    some { presences := present, self := some self } := by
  rw [Channel.reading, company, ofJson?_record ⟨by decide, by simp⟩ (by simp)]
  simp [fill, Slot.offer, put_field, Entries.find?, list_presences, Presence.optional_toJson,
    Except.toOption]

theorem Party.ofJson?_company : ofJson? Party.reading (company present self leader) =
    some { presences := present, self := some self, leader := some leader } := by
  rw [Party.reading, company, ofJson?_record ⟨by decide, by simp⟩ (by simp)]
  simp [fill, Slot.offer, put_field, Entries.find?, list_presences, Presence.optional_toJson,
    Except.toOption]

theorem Status.ofJson?_company : ofJson? Status.reading (company present self leader) =
    some { presences := present } := by
  rw [Status.reading, company, ofJson?_record ⟨by decide, by simp⟩ (by simp)]
  simp [fill, Slot.offer, put_field, Entries.find?, list_presences, Except.toOption]

end

end Reply

/-- Encoded values are read back: data for a match with its op code as text or as a number,
presences by themselves, in lists and in replies, and calls. -/
theorem typed_payloads_survive :
    (∀ d : MatchData, Decimal.minInt64 ≤ d.opCode → d.opCode ≤ Decimal.maxInt64 →
      Survives (Outbound.matchDataSend d).body Reply.PushedData.reading d.received ∧
      Survives (d.bodyWith (.ofInt d.opCode)) Reply.PushedData.reading d.received) ∧
    (∀ p : Presence, Survives p.toJson Presence.reading p) ∧
    (∀ ps : List Presence, Survives (.array (ps.map Presence.toJson)) (list Presence.reading) ps) ∧
    (∀ present self leader, let body := Reply.company present self leader
      Survives body Reply.Match.reading { presences := present, self := some self } ∧
      Survives body Reply.Channel.reading { presences := present, self := some self } ∧
      Survives body Reply.Party.reading
        { presences := present, self := some self, leader := some leader } ∧
      Survives body Reply.Status.reading { presences := present }) ∧
    (∀ r : Rpc, Survives (Outbound.rpc r).body Rpc.reading r) := by
  have hdeep : ∀ {n : Nat} {body : Json}, body.Portable n → n ≤ 3 → body.Portable payloadDepth :=
    fun h hn => h.mono (Nat.le_trans hn (by decide))
  refine ⟨fun d hlow hhigh => ⟨?_, ?_⟩, fun p => ?_, fun ps => ?_, fun present self leader => ?_,
    fun r => ?_⟩
  · rw [d.body_eq_bodyWith]
    exact survives_of_ofJson? Reply.PushedData.steady_reading
      (hdeep (d.portable_bodyWith (Json.portable_string 2 _)) (Nat.le_refl 3))
      (d.reading_bodyWith (opCode_text hlow hhigh))
  · have hcode : (Json.ofInt d.opCode).Portable 2 :=
      Json.portable_ofInt 2 hlow (Int.le_trans hhigh (by decide))
    exact survives_of_ofJson? Reply.PushedData.steady_reading
      (hdeep (d.portable_bodyWith hcode) (Nat.le_refl 3))
      (d.reading_bodyWith (opCode_ofInt hlow hhigh))
  · refine survives_of_ofJson? Presence.steady_reading (hdeep p.portable_toJson (by decide)) ?_
    rw [ofJson?, p.reading_toJson]
    rfl
  · refine survives_of_ofJson? (steady_list Presence.steady_reading)
      (hdeep (portable_presences ps) (by decide)) ?_
    rw [ofJson?, list_presences]
    rfl
  · have hbody := hdeep (Reply.portable_company present self leader) (Nat.le_refl 3)
    exact ⟨survives_of_ofJson? Reply.Match.steady_reading hbody
        (Reply.Match.ofJson?_company present self leader),
      survives_of_ofJson? Reply.Channel.steady_reading hbody
        (Reply.Channel.ofJson?_company present self leader),
      survives_of_ofJson? Reply.Party.steady_reading hbody
        (Reply.Party.ofJson?_company present self leader),
      survives_of_ofJson? Reply.Status.steady_reading hbody
        (Reply.Status.ofJson?_company present self leader)⟩
  · refine survives_of_ofJson? Rpc.steady_reading (hdeep r.portable_body (by decide)) ?_
    rw [ofJson?, r.reading_body]
    rfl

/-- Data with the lowest op code, sent without recipients and received in a frame of its own. -/
theorem data_survives :
    ∃ e, decode (Bytes.ofText (Json.object (frameMembers none "match_data"
        (Outbound.matchDataSend ⟨"m1", Decimal.minInt64, [1, 2, 255, 0], [], true⟩).body)).render) =
          .ok e ∧
      payloadAs Reply.PushedData.reading "match_data" e =
        .ok { matchId := "m1", opCode := -9223372036854775808, data := [1, 2, 255, 0],
              reliable := true } :=
  (typed_payloads_survive.1 ⟨"m1", Decimal.minInt64, [1, 2, 255, 0], [], true⟩
    (by decide) (by decide)).1.alone none "match_data" (by decide)

end GameLink
