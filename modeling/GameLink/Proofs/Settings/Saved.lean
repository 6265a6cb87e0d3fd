import GameLink.Proofs.Json.Reordered
import GameLink.Proofs.Settings.Agreement
import GameLink.Proofs.Settings.Loading

/-! # Settings that are saved

Settings that are written as a text are read back from it, over all texts, all
ports, all numbers of 64 bits and both values of every flag. A file that holds
this text hides every default, so that loading it without an environment gives
the settings that were saved, or refuses what cannot be used.
-/
namespace GameLink.Settings
open Json Json.Reading

/-! ## What is written is read -/

theorem natural_ofNat {n : Nat} {hi : Int} (h : (n : Int) ≤ hi) :
    natural hi (.ofJson (.ofNat n)) = .ok n := by
  have range : (0 : Int) ≤ n ∧ (n : Int) ≤ hi := ⟨Int.natCast_nonneg n, h⟩
  simp only [natural, ofNat, Document.ofJson, integer, if_pos range]
  rfl

theorem portable_ofNat (depth : Nat) {n : Nat} (h : (n : Int) ≤ Decimal.maxUInt64) :
    (ofNat n).Portable depth :=
  portable_ofInt depth (Int.le_trans (by decide) (Int.natCast_nonneg n)) h

theorem uint16_ofNat (n : UInt16) : uint16 (.ofJson (.ofNat n.toNat)) = .ok n := by
  rw [uint16, natural_ofNat (Decimal.uint16_fits n), Except.map, UInt16.ofNat_toNat]

theorem uint64_ofNat (n : UInt64) : uint64 (.ofJson (.ofNat n.toNat)) = .ok n := by
  rw [uint64, natural_ofNat (Decimal.uint64_fits n), Except.map, UInt64.ofNat_toNat]

theorem reading_server (s : Server) : record serverFields {} (.ofJson s.toJson) = .ok s := by
  simp [record, recordMembers, findField, serverFields, field, Server.toJson, Document.ofJson,
    Document.ofMembers, uint16_ofNat, text, flag, Except.map]

theorem reading_realtime (r : Realtime) : record realtimeFields {} (.ofJson r.toJson) = .ok r := by
  simp [record, recordMembers, findField, realtimeFields, field, Realtime.toJson, Document.ofJson,
    Document.ofMembers, uint64_ofNat, flag, Except.map]

theorem reading_toJson (s : Settings) : reading (.ofJson s.toJson) = .ok s := by
  rw [reading, toJson, Document.ofJson, record]
  simp [recordMembers, findField, fields, field, Document.ofMembers, reading_server,
    reading_realtime, Except.map]

/-! ## The document of settings -/

theorem portable_toJson (s : Settings) : s.toJson.Portable 2 := by
  have port : (ofNat s.server.port.toNat).Portable 0 :=
    portable_ofNat 0 (Int.le_trans (Decimal.uint16_fits _) (by decide))
  have number (n : UInt64) : (ofNat n.toNat).Portable 0 := portable_ofNat 0 (Decimal.uint64_fits n)
  refine portable_object (by simp) ?_
  simp only [List.forall_mem_cons]
  refine ⟨portable_object (by simp) ?_, portable_object (by simp) ?_, by simp⟩
  · simp [portable_string, portable_bool, port]
  · simp [portable_bool, number]

section
variable {members : List (String × Json)} (apart : (members.map Prod.fst).Nodup)
include apart

theorem get?_sorted (key : String) :
    (Json.object members).sorted.get? key = (Entries.find? key members).map Json.sorted := by
  rw [Json.sorted, Json.get?, find?_ofList_sortedMembers apart]

/-- An object of members that are not null has none in key order. -/
theorem get?_sorted_ne_null (h : ∀ m ∈ members, m.2.isNull = false) (key : String) :
    (Json.object members).sorted.get? key ≠ some .null := by
  rw [get?_sorted apart]
  intro hnull
  obtain ⟨v, hv, hsorted⟩ := Option.map_eq_some_iff.mp hnull
  have hmember := h _ (mem_of_find? hv)
  cases v <;> simp [Json.sorted, Json.isNull] at hsorted hmember

end

/-- No field is left out, so that no default is looked up. -/
theorem present_sorted (s : Settings) : Present s.toJson.sorted where
  sections f _ :=
    get?_sorted_ne_null (by simp) (by simp [Server.toJson, Realtime.toJson, Json.isNull]) _
  server v hv f _ := by
    obtain rfl : s.server.toJson.sorted = v := by
      rw [toJson, get?_sorted (by simp)] at hv
      simpa [Entries.find?] using hv
    exact get?_sorted_ne_null (by simp) (by simp [Json.isNull, Json.ofNat]) _
  realtime v hv f _ := by
    obtain rfl : s.realtime.toJson.sorted = v := by
      rw [toJson, get?_sorted (by simp)] at hv
      simpa [Entries.find?] using hv
    exact get?_sorted_ne_null (by simp) (by simp [Json.isNull, Json.ofNat]) _

theorem ofJson?_sorted (s : Settings) : ofJson? s.toJson.sorted = some s := by
  rw [ofJson?, steady_reading.ofJson?_sorted s.portable_toJson.unrepeated, Reading.ofJson?,
    reading_toJson]
  rfl

/-! ## Texts and files of settings -/

section
variable {s : Settings} {w : Json}

/-- A text of the settings is read, with the members of its objects in any order. -/
theorem ofBytes_of_reorders (h : w.Reorders s.toJson) :
    ofBytes (Bytes.ofText w.render) = .ok s := by
  have portable := h.portable s.portable_toJson
  have value : Reading.ofJson? reading w = some s := by
    rw [← steady_reading.ofJson?_sorted portable.unrepeated, h.sorted]
    exact s.ofJson?_sorted
  rw [ofBytes, Reading.ofBytes_render _ portable.integral]
  rw [Reading.ofJson?] at value
  cases hread : reading (.ofJson w) with
  | error fault => simp [hread, Except.toOption] at value
  | ok r => simpa [hread, Except.toOption] using value

theorem based_of_reorders (h : w.Reorders s.toJson) :
    Based (.content (Bytes.ofText w.render)) s := by
  have portable := h.portable s.portable_toJson
  have value : Json.ofBytes? (Bytes.ofText w.render) = some s.toJson.sorted := by
    rw [Json.ofBytes?, Document.ofBytes_render portable.integral, ← h.sorted]
    exact value?_ofJson _ (Nat.le_trans portable.depth (by decide))
  have canonical : s.toJson.sorted.Canonical :=
    Document.canonical_of_value? _ (value?_ofJson s.toJson s.portable_toJson.depth)
  refine .content (Bytes.text?_ofText _) value ?_
  rw [ofJson?_merge canonical s.present_sorted, ofJson?_sorted]

end

/-! ## Loading without an environment -/

/-- The environment of a process in which no variable is set. -/
def Environment.empty : Environment := Environment.ofVariables fun _ => none

theorem override_empty (s : Settings) : s.override .empty = ⟨s, []⟩ := rfl

theorem fileNote_content (bytes : Bytes) :
    fileNote (.content bytes) = Log.debug "loading settings from file" [] := rfl

/-- What becomes of settings that are saved. -/
structure Reloads (s : Settings) : Prop where
  /-- Their text is read as the same settings. -/
  read : ofBytes (Bytes.ofText s.toText) = .ok s
  /-- A file with this text gives them back if they can be used, and no warning is given. -/
  loaded : s.validate = .ok () →
    load (.content (Bytes.ofText s.toText)) .empty =
      ⟨.ok s, [Log.debug "loading settings from file" []]⟩
  /-- It gives what makes them unusable, if anything does. -/
  refused : ∀ i, s.validate = .error i →
    load (.content (Bytes.ofText s.toText)) .empty =
      ⟨.error (.invalid i), [Log.debug "loading settings from file" []]⟩
  /-- The order in which the members are written is of no account. -/
  reordered : ∀ w : Json, w.Reorders s.toJson →
    ofBytes (Bytes.ofText w.render) = .ok s ∧
      load (.content (Bytes.ofText w.render)) .empty =
        load (.content (Bytes.ofText s.toText)) .empty

theorem saved_reloads (s : Settings) : Reloads s := by
  have same : s.toJson.Reorders s.toJson := .refl s.portable_toJson.unrepeated
  have based : Based (.content (Bytes.ofText s.toText)) s := based_of_reorders same
  exact {
    read := ofBytes_of_reorders same
    loaded := by
      intro usable
      rw [load_of_based based, finish_eq, override_empty, usable, fileNote_content]
    refused := by
      intro i unusable
      rw [load_of_based based, finish_eq, override_empty, unusable, fileNote_content]
    reordered := by
      intro w h
      refine ⟨ofBytes_of_reorders h, ?_⟩
      rw [load_of_based (based_of_reorders h), load_of_based based, fileNote_content,
        fileNote_content] }

end GameLink.Settings
