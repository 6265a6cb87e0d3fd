import GameLink.Proofs.Json.Layers
import GameLink.Settings.Load

/-! # Two ways to settings

Settings can be read straight from a text, where every field that is missing
keeps its default, or from the free-form value of the text laid over the
defaults as a document. Both ways give the same.
-/
namespace GameLink.Settings
open Json.Reading

/-! ## Sections and their fields -/

theorem server_layout : Layout serverFields where
  optional := by simp [serverFields, field]
  apart := by simp [serverFields, field]
  commute := by simp [serverFields]

theorem realtime_layout : Layout realtimeFields where
  optional := by simp [realtimeFields, field]
  apart := by simp [realtimeFields, field]
  commute := by simp [realtimeFields]

theorem fields_layout : Layout fields where
  optional := by simp [fields, field]
  apart := by simp [fields, field]
  commute := by simp [fields]

theorem steady_uint16 : Steady uint16 :=
  steady_map (steady_map (steady_integer 0 65535) Int.toNat) UInt16.ofNat

theorem steady_uint64 : Steady uint64 :=
  steady_map (steady_map (steady_integer 0 Decimal.maxUInt64) Int.toNat) UInt64.ofNat

theorem server_steady : ∀ f ∈ serverFields, f.Steady := by
  simp [serverFields, steady_uint16]

theorem realtime_steady : ∀ f ∈ realtimeFields, f.Steady := by
  simp [realtimeFields, steady_uint64]

theorem fields_steady : ∀ f ∈ fields, f.Steady := by
  have hserver : Steady (record serverFields {}) :=
    steady_record server_layout.toIndependent server_steady {}
  have hrealtime : Steady (record realtimeFields {}) :=
    steady_record realtime_layout.toIndependent realtime_steady {}
  simp [fields, hserver, hrealtime]

theorem steady_reading : Steady reading :=
  steady_record fields_layout.toIndependent fields_steady {}

/-! ## The document of defaults -/

/-- Laying a section over its defaults changes nothing about how it is read. -/
theorem server_merge {v : Json} (hv : v.Canonical)
    (hnull : ∀ f ∈ serverFields, v.get? f.name ≠ some .null) :
    (record serverFields {} (.ofJson (Json.merge (Server.toJson {}).sorted v))).toOption =
      (record serverFields {} (.ofJson v)).toOption := by
  rw [Server.toJson, Json.sorted]
  refine record_merge_plain server_layout (Entries.sorted_ofList _) ?_ hv hnull
  simp only [serverFields, List.forall_mem_cons]
  exact ⟨⟨_, rfl, rfl, rfl⟩, ⟨_, rfl, rfl, rfl⟩, ⟨_, rfl, rfl, rfl⟩, ⟨_, rfl, rfl, rfl⟩, by simp⟩

theorem realtime_merge {v : Json} (hv : v.Canonical)
    (hnull : ∀ f ∈ realtimeFields, v.get? f.name ≠ some .null) :
    (record realtimeFields {} (.ofJson (Json.merge (Realtime.toJson {}).sorted v))).toOption =
      (record realtimeFields {} (.ofJson v)).toOption := by
  rw [Realtime.toJson, Json.sorted]
  refine record_merge_plain realtime_layout (Entries.sorted_ofList _) ?_ hv hnull
  simp only [realtimeFields, List.forall_mem_cons]
  exact ⟨⟨_, rfl, rfl, rfl⟩, ⟨_, rfl, rfl, rfl⟩, ⟨_, rfl, rfl, rfl⟩, ⟨_, rfl, rfl, rfl⟩,
    ⟨_, rfl, rfl, rfl⟩, ⟨_, rfl, rfl, rfl⟩, by simp⟩

/-- No key that settings know is null. -/
structure Present (v : Json) : Prop where
  sections : ∀ f ∈ fields, v.get? f.name ≠ some .null
  server : ∀ s, v.get? "server" = some s → ∀ f ∈ serverFields, s.get? f.name ≠ some .null
  realtime : ∀ r, v.get? "realtime" = some r → ∀ f ∈ realtimeFields, r.get? f.name ≠ some .null

theorem isNull_of_found {members : Entries Json} {s : Json} {key : String}
    (hs : Entries.find? key members = some s) (h : (Json.object members).get? key ≠ some .null) :
    s.isNull = false := by
  cases s with
  | null => exact absurd hs h
  | _ => rfl

theorem put_section {α : Type} {name : String} {read : Json.Reading α}
    {set : Settings → α → Settings} {d d' : Json.Document}
    (h : (read d).toOption = (read d').toOption) (s : Settings) :
    (field name read set).put d s = (field name read set).put d' s := by
  rw [put_field, put_field, h]

/-- Settings are not changed by laying them over the defaults. -/
theorem ofJson?_merge {v : Json} (hv : v.Canonical) (present : Present v) :
    ofJson? (Json.merge defaults v) = ofJson? v := by
  cases v with
  | object overlay =>
    have hserver := present.sections _ List.mem_cons_self
    have hrealtime := present.sections _ (List.mem_cons_of_mem _ List.mem_cons_self)
    refine record_mergeMembers fields_layout (Entries.sorted_ofList _) hv.1 ?_
    simp only [fields, List.forall_mem_cons]
    refine ⟨⟨_, rfl, rfl, fun s hs => ⟨isNull_of_found hs hserver, ?_⟩⟩,
      ⟨_, rfl, rfl, fun r hr => ⟨isNull_of_found hr hrealtime, ?_⟩⟩, by simp⟩
    · exact put_section (server_merge (hv.find? hs) (present.server s hs))
    · exact put_section (realtime_merge (hv.find? hr) (present.realtime r hr))
  | _ => rfl

/-- A text is read as settings exactly if its value laid over the defaults is, and both give the
same settings, whatever shape the text has. -/
theorem ofBytes_eq_merge {bytes : Bytes} {v : Json} (hv : Json.ofBytes? bytes = some v)
    (distinct : (Json.Document.ofBytes bytes).1.distinct = true) (present : Present v) :
    (ofBytes bytes).toOption = ofJson? (Json.merge defaults v) := by
  rw [Json.ofBytes?] at hv
  cases hd : Json.Document.ofBytes bytes with
  | mk d ended =>
    rw [hd] at hv distinct
    cases ended with
    | false => cases hv
    | true =>
      have hread : (ofBytes bytes).toOption = (reading d).toOption := by
        rw [ofBytes, Json.Reading.ofBytes, hd]
        cases hr : reading d <;> simp [hr]
      rw [hread, steady_reading hv distinct,
        ofJson?_merge (Json.Document.canonical_of_value? d hv) present]
      rfl

/-- One section leaves fields out and has one that is not known, the other is an array of the first
of its fields. -/
theorem agrees_where_partial :
    Json.ofBytes? (Bytes.ofText
        "\x7b\"server\":\x7b\"port\":80,\"x\":null\x7d,\"realtime\":[5]\x7d") =
      some (.object [("realtime", .array [.number (.int 5)]),
        ("server", .object [("port", .number (.int 80)), ("x", .null)])]) ∧
    (Json.Document.ofBytes (Bytes.ofText
        "\x7b\"server\":\x7b\"port\":80,\"x\":null\x7d,\"realtime\":[5]\x7d")).1.distinct =
      true ∧
    Present (.object [("realtime", .array [.number (.int 5)]),
      ("server", .object [("port", .number (.int 80)), ("x", .null)])]) ∧
    (ofBytes (Bytes.ofText
        "\x7b\"server\":\x7b\"port\":80,\"x\":null\x7d,\"realtime\":[5]\x7d")).toOption =
      ofJson? (Json.merge defaults (.object [("realtime", .array [.number (.int 5)]),
        ("server", .object [("port", .number (.int 80)), ("x", .null)])])) := by
  have present : Present (.object [("realtime", .array [.number (.int 5)]),
      ("server", .object [("port", .number (.int 80)), ("x", .null)])]) := by
    refine ⟨?_, ?_, ?_⟩
    · simp only [fields, List.forall_mem_cons]
      exact ⟨nofun, nofun, by simp⟩
    · intro s hs
      cases hs
      simp only [serverFields, List.forall_mem_cons]
      exact ⟨nofun, nofun, nofun, nofun, by simp⟩
    · intro r hr
      cases hr
      simp only [realtimeFields, List.forall_mem_cons]
      exact ⟨nofun, nofun, nofun, nofun, nofun, nofun, by simp⟩
  exact ⟨rfl, by decide +kernel, present, ofBytes_eq_merge rfl (by decide +kernel) present⟩

end GameLink.Settings
