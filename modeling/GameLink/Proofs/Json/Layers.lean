import GameLink.Json.Merge
import GameLink.Proofs.Json.Steady

/-! # Records over a document of defaults

A document laid over another is looked up key by key: a key it does not name, or
names with a null, is found below. So where the document below holds what a
record has to begin with, laying it under a text changes nothing about the
record that is read.
-/
namespace GameLink.Json

/-! ## Values in key order -/

theorem canonicalMembers_iff {m : Entries Json} :
    CanonicalMembers m ↔ ∀ p ∈ m, p.2.Canonical := by
  induction m with
  | nil => simp [CanonicalMembers]
  | cons p rest ih =>
    obtain ⟨k, v⟩ := p
    rw [CanonicalMembers, ih, List.forall_mem_cons]

theorem canonicalMembers_foldl_insert {pairs : List (String × Json)}
    (h : CanonicalMembers pairs) {m : Entries Json} (hm : CanonicalMembers m) :
    CanonicalMembers (pairs.foldl (fun m p => Entries.insert p.1 p.2 m) m) := by
  induction pairs generalizing m with
  | nil => exact hm
  | cons p rest ih =>
    refine ih h.2 (canonicalMembers_iff.mpr fun q hq => ?_)
    rcases Entries.mem_insert hq with rfl | hq
    · exact h.1
    · exact canonicalMembers_iff.mp hm q hq

theorem mem_of_find? {α : Type} {key : String} {v : α} {m : Entries α}
    (h : Entries.find? key m = some v) : (key, v) ∈ m := by
  induction m with
  | nil => cases h
  | cons p rest ih =>
    obtain ⟨k, v'⟩ := p
    rw [Entries.find?] at h
    split at h
    · rename_i hk
      cases h
      rw [hk]
      exact List.mem_cons_self
    · exact List.mem_cons_of_mem _ (ih h)

theorem Canonical.find? {m : Entries Json} (h : (Json.object m).Canonical) {key : String} {v : Json}
    (hv : Entries.find? key m = some v) : v.Canonical :=
  canonicalMembers_iff.mp h.2 _ (mem_of_find? hv)

namespace Document

mutual
/-- A free-form value that is read from a text is in key order throughout. -/
theorem canonical_of_value? : ∀ {depth : Nat} (d : Document) {v : Json},
    d.value? depth = some v → v.Canonical
  | _, .null, _, h => by cases h; trivial
  | _, .bool _, _, h => by cases h; trivial
  | _, .number n, _, h => by
    obtain ⟨x, -, rfl⟩ := Option.map_eq_some_iff.mp h
    trivial
  | _, .text s, _, h => by
    obtain ⟨x, -, rfl⟩ := Option.map_eq_some_iff.mp h
    trivial
  | _, .broken, _, h => by simp [value?] at h
  | _, .array items _, _, h => by
    obtain ⟨n, vs, rfl, rfl, hvs, rfl⟩ := value?_array h
    exact canonical_of_values? items hvs
  | _, .object members _, _, h => by
    obtain ⟨n, vs, rfl, rfl, hvs, rfl⟩ := value?_object h
    exact ⟨Entries.sorted_ofList vs,
      canonicalMembers_foldl_insert (canonical_of_members? members hvs) trivial⟩

theorem canonical_of_values? : ∀ {depth : Nat} (ds : List Document) {vs : List Json},
    values? depth ds = some vs → CanonicalItems vs
  | _, [], _, h => by cases h; trivial
  | _, d :: rest, _, h => by
    rw [values?] at h
    split at h
    · rename_i hv hvs
      cases h
      exact ⟨canonical_of_value? d hv, canonical_of_values? rest hvs⟩
    · cases h

theorem canonical_of_members? : ∀ {depth : Nat} (members : List (Option String × Document))
    {vs : List (String × Json)}, members? depth members = some vs → CanonicalMembers vs
  | _, [], _, h => by cases h; trivial
  | _, (_, d) :: rest, _, h => by
    unfold members? at h
    split at h
    · rename_i hv hvs
      cases h
      exact ⟨canonical_of_value? d hv, canonical_of_members? rest hvs⟩
    · cases h
end

end Document

/-! ## Look-up in layers -/

theorem merge_of_not_object {b : Json} (h : b.isObject = false) (v : Json) : merge b v = v := by
  cases v with
  | object overlay =>
    cases b with
    | object members => cases h
    | _ => rfl
  | _ => rfl

/-- What a key has when one layer gives it `b` and the layer above gives it `o`. -/
def layered (b : Option Json) : Option Json → Option Json
  | none => b
  | some v =>
    if v.isNull then b
    else some (match b with
      | some existing => merge existing v
      | none => v)

theorem sorted_mergeMembers {base overlay : Entries Json} (h : Entries.Sorted base) :
    Entries.Sorted (mergeMembers base overlay) := by
  induction overlay generalizing base with
  | nil => exact h
  | cons p rest ih =>
    obtain ⟨k, v⟩ := p
    rw [mergeMembers]
    split
    · exact ih h
    · exact ih (h.insert k _)

theorem find?_mergeMembers (key : String) {base overlay : Entries Json}
    (h : (overlay.map Prod.fst).Nodup) :
    Entries.find? key (mergeMembers base overlay) =
      layered (Entries.find? key base) (Entries.find? key overlay) := by
  induction overlay generalizing base with
  | nil => rfl
  | cons p rest ih =>
    obtain ⟨k, v⟩ := p
    obtain ⟨hnot, hrest⟩ := List.nodup_cons.mp h
    rw [mergeMembers, Entries.find?]
    by_cases hk : key = k
    · subst hk
      have hlast := find?_eq_none_of_not_mem hnot
      rw [if_pos rfl]
      by_cases hnull : v.isNull = true
      · rw [if_pos hnull, ih hrest, hlast]
        simp [layered, hnull]
      · rw [if_neg hnull, ih hrest, hlast, Entries.find?_insert_self]
        cases Entries.find? key base <;> simp [layered, hnull]
    · rw [if_neg hk]
      split
      · exact ih hrest
      · rw [ih hrest, Entries.find?_insert_of_ne _ _ hk]

namespace Reading
open Document
variable {ρ : Type}

/-- A record of what is laid over `base` is that of the overlay alone, if `base` gives each field
what it begins with, and no field tells apart what is laid over that. -/
theorem record_mergeMembers {fields : List (Slot ρ)} (layout : Layout fields) {blank : ρ}
    {base overlay : Entries Json} (hbase : Entries.Sorted base) (hoverlay : Entries.Sorted overlay)
    (h : ∀ f ∈ fields, ∃ e, Entries.find? f.name base = some e ∧
      f.put (ofJson e) blank = some blank ∧
      ∀ v, Entries.find? f.name overlay = some v →
        v.isNull = false ∧ ∀ r, f.put (ofJson (merge e v)) r = f.put (ofJson v) r) :
    (record fields blank (ofJson (.object (mergeMembers base overlay)))).toOption =
      (record fields blank (ofJson (.object overlay))).toOption := by
  have hkeys := nodup_keys hoverlay
  rw [ofJson, ofJson,
    record_object layout (legible_ofMembers (nodup_keys (sorted_mergeMembers hbase))),
    record_object layout (legible_ofMembers hkeys)]
  refine fill_eq_of_idle layout.toIndependent fun f hf => ?_
  obtain ⟨e, hfound, hblank, hlaid⟩ := h f hf
  rw [find?_ofMembers, find?_ofMembers, find?_mergeMembers f.name hkeys, hfound]
  cases hv : Entries.find? f.name overlay with
  | none => exact .inr ⟨rfl, hblank⟩
  | some v =>
    obtain ⟨hnull, hsame⟩ := hlaid v hv
    rw [layered, hnull]
    exact .inl hsame

/-- Fields that are no containers take the place of what is below them. -/
theorem record_merge_plain {fields : List (Slot ρ)} (layout : Layout fields) {blank : ρ}
    {base : Entries Json} (hbase : Entries.Sorted base)
    (h : ∀ f ∈ fields, ∃ e, Entries.find? f.name base = some e ∧ e.isObject = false ∧
      f.put (ofJson e) blank = some blank)
    {v : Json} (hv : v.Canonical) (hnull : ∀ f ∈ fields, v.get? f.name ≠ some .null) :
    (record fields blank (ofJson (merge (.object base) v))).toOption =
      (record fields blank (ofJson v)).toOption := by
  cases v with
  | object overlay =>
    rw [merge]
    refine record_mergeMembers layout hbase hv.1 fun f hf => ?_
    obtain ⟨e, hfound, hplain, hblank⟩ := h f hf
    refine ⟨e, hfound, hblank, fun v hfound' => ⟨?_, fun r => by rw [merge_of_not_object hplain]⟩⟩
    cases v with
    | null => exact absurd hfound' (hnull f hf)
    | _ => rfl
  | _ => rfl

end Reading
end GameLink.Json
