import GameLink.Proofs.Json.Layers
import GameLink.Proofs.Json.Reordered

/-! # The laws of an overlay

Objects in key order are known by their look-ups, and a look-up in a merged object
is decided by the two values under that key alone (`find?_merge`). So each law is
shown key by key: laying a value over itself, or the same overlay twice, changes
nothing the second time, and what stands at the end of a path depends on what the
two documents have there.
-/
namespace GameLink.Json

/-! ## One level -/

theorem isNull_iff {v : Json} : v.isNull = true ↔ v = .null := by
  cases v <;> simp [isNull]

theorem merge_objects (below above : Entries Json) :
    merge (.object below) (.object above) = .object (mergeMembers below above) := by
  rw [merge]

theorem get?_object (key : String) (members : Entries Json) :
    (Json.object members).get? key = Entries.find? key members := rfl

theorem layered_null (b : Option Json) : layered b (some .null) = b := rfl

theorem layered_new {v : Json} (hv : v ≠ .null) : layered none (some v) = some v :=
  if_neg (mt isNull_iff.mp hv)

theorem layered_some (e : Json) {v : Json} (hv : v ≠ .null) :
    layered (some e) (some v) = some (merge e v) :=
  if_neg (mt isNull_iff.mp hv)

/-- Under a key an overlay does what it does as a whole. -/
theorem find?_merge {below above : Entries Json} (sorted : Entries.Sorted above) (key : String) :
    Entries.find? key (mergeMembers below above) =
      layered (Entries.find? key below) (Entries.find? key above) :=
  find?_mergeMembers key (nodup_keys sorted)

theorem canonicalMembers_of_find? {m : Entries Json} (sorted : Entries.Sorted m)
    (h : ∀ key v, Entries.find? key m = some v → v.Canonical) : CanonicalMembers m := by
  refine canonicalMembers_iff.mpr fun p hp => ?_
  exact h p.1 p.2 ((mem_iff_find? (nodup_keys sorted)).mp hp)

/-- What is merged is in key order where both documents are. -/
theorem canonical_merge {b o : Json} (hb : b.Canonical) (ho : o.Canonical) :
    (merge b o).Canonical := by
  induction o using induction generalizing b with
  | null | bool | number | string | array => exact ho
  | object above ih =>
    cases b with
    | object below =>
      rw [merge_objects]
      have sorted := @sorted_mergeMembers below above hb.1
      refine ⟨sorted, canonicalMembers_of_find? sorted fun key v found => ?_⟩
      rw [find?_merge ho.1] at found
      cases hv : Entries.find? key above with
      | none =>
        rw [hv] at found
        exact hb.find? found
      | some w =>
        rw [hv] at found
        by_cases hnull : w = .null
        · rw [hnull, layered_null] at found
          exact hb.find? found
        · cases he : Entries.find? key below with
          | none =>
            rw [he, layered_new hnull] at found
            exact Option.some.inj found ▸ ho.find? hv
          | some e =>
            rw [he, layered_some e hnull] at found
            exact Option.some.inj found ▸ ih _ (mem_of_find? hv) (hb.find? he) (ho.find? hv)
    | _ => exact ho

/-! ## Laying the same over it again -/

theorem layered_self {o : Option Json} (h : ∀ v, o = some v → merge v v = v) :
    layered o o = o := by
  cases o with
  | none => rfl
  | some v =>
    by_cases hnull : v = .null
    · rw [hnull, layered_null]
    · rw [layered_some v hnull, h v rfl]

theorem merge_self {v : Json} (hv : v.Canonical) : merge v v = v := by
  induction v using induction with
  | null | bool | number | string | array => rfl
  | object members ih =>
    rw [merge_objects]
    refine congrArg Json.object (entries_ext (sorted_mergeMembers hv.1) hv.1 fun key => ?_)
    rw [find?_merge hv.1]
    exact layered_self fun w found => ih _ (mem_of_find? found) (hv.find? found)

theorem layered_again {b o : Option Json}
    (h : ∀ v, o = some v → merge v v = v ∧ ∀ e, b = some e → merge (merge e v) v = merge e v) :
    layered (layered b o) o = layered b o := by
  cases o with
  | none => rfl
  | some v =>
    obtain ⟨self, again⟩ := h v rfl
    by_cases hnull : v = .null
    · rw [hnull, layered_null]
    · cases b with
      | none => rw [layered_new hnull, layered_some v hnull, self]
      | some e => rw [layered_some e hnull, layered_some _ hnull, again e rfl]

theorem merge_again {b o : Json} (hb : b.Canonical) (ho : o.Canonical) :
    merge (merge b o) o = merge b o := by
  induction o using induction generalizing b with
  | null | bool | number | string | array => rfl
  | object above ih =>
    cases b with
    | object below =>
      rw [merge_objects, merge_objects]
      have sorted := @sorted_mergeMembers below above hb.1
      refine congrArg Json.object (entries_ext (sorted_mergeMembers sorted) sorted fun key => ?_)
      rw [find?_merge ho.1, find?_merge ho.1]
      refine layered_again fun v found => ⟨merge_self (ho.find? found), fun e below => ?_⟩
      exact ih _ (mem_of_find? found) (hb.find? below) (ho.find? found)
    | _ => exact merge_self ho

/-! ## Keys -/

theorem mem_keys_iff {α : Type} {key : String} {m : Entries α} :
    key ∈ Entries.keys m ↔ ∃ v, Entries.find? key m = some v := by
  constructor
  · intro hmem
    induction m with
    | nil => cases hmem
    | cons p rest ih =>
      rw [Entries.find?]
      split
      · exact ⟨p.2, rfl⟩
      · rename_i hne
        exact ih ((List.mem_cons.mp hmem).resolve_left hne)
  · rintro ⟨v, found⟩
    exact List.mem_map.mpr ⟨(key, v), mem_of_find? found, rfl⟩

/-- The merged keys are those below and those that the overlay gives a value other than null. -/
theorem mem_keys_mergeMembers {below above : Entries Json} (sorted : Entries.Sorted above)
    {key : String} : key ∈ Entries.keys (mergeMembers below above) ↔
      key ∈ Entries.keys below ∨ ∃ v, Entries.find? key above = some v ∧ v ≠ .null := by
  rw [mem_keys_iff, mem_keys_iff, find?_merge sorted]
  cases Entries.find? key above with
  | none => simp [layered]
  | some v =>
    by_cases hnull : v = .null
    · rw [hnull, layered_null]
      simp
    · cases Entries.find? key below with
      | none => simp [layered_new hnull, hnull]
      | some e => simp [layered_some e hnull]

/-! ## Paths -/

/-- The value at the end of a path of keys. -/
def at? (v : Json) : List String → Option Json
  | [] => some v
  | key :: path => (v.get? key).bind fun w => w.at? path

def LeadsToObject (v : Json) (path : List String) : Prop :=
  ∃ members, v.at? path = some (.object members)

/-- What is found at one place of a merged document, by what the base and the overlay have there. -/
inductive Lays : Option Json → Option Json → Option Json → Prop
  | unnamed (b : Option Json) : Lays b none b
  | null (b : Option Json) : Lays b (some .null) b
  | new {v : Json} (hv : v ≠ .null) : Lays none (some v) (some v)
  | replaced {e v : Json} (hv : v ≠ .null) (plain : e.isObject = false ∨ v.isObject = false) :
      Lays (some e) (some v) (some v)
  | merged (below above : Entries Json) : Lays (some (.object below)) (some (.object above))
      (some (merge (.object below) (.object above)))

theorem lays_layered (b o : Option Json) : Lays b o (layered b o) := by
  cases o with
  | none => exact .unnamed b
  | some v =>
    by_cases hnull : v = .null
    · rw [hnull]
      exact .null b
    · cases b with
      | none =>
        rw [layered_new hnull]
        exact .new hnull
      | some e =>
        rw [layered_some e hnull]
        cases e with
        | object below =>
          cases v with
          | object above => exact .merged below above
          | _ => exact .replaced hnull (.inr rfl)
        | _ =>
          rw [merge_of_not_object rfl]
          exact .replaced hnull (.inl rfl)

/-- Every proper part of the path leads to an object. -/
def Passes (v : Json) (path : List String) : Prop :=
  ∀ p, p <+: path → p ≠ path → v.LeadsToObject p

theorem Passes.object {v : Json} {key : String} {path : List String} (h : v.Passes (key :: path)) :
    ∃ members, v = .object members := by
  obtain ⟨members, hv⟩ := h [] List.nil_prefix (by simp)
  exact ⟨members, Option.some.inj hv⟩

theorem Passes.next {members : Entries Json} {key next : String} {path : List String}
    (h : (Json.object members).Passes (key :: next :: path)) :
    ∃ v, Entries.find? key members = some v ∧ v.Passes (next :: path) := by
  have step : ∀ p, p <+: next :: path → p ≠ next :: path →
      ∃ v, Entries.find? key members = some v ∧ v.LeadsToObject p := by
    intro p hp hne
    obtain ⟨inner, found⟩ := h (key :: p) (List.cons_prefix_cons.mpr ⟨rfl, hp⟩) (by simpa using hne)
    obtain ⟨v, hv, leads⟩ := Option.bind_eq_some_iff.mp found
    exact ⟨v, hv, inner, leads⟩
  obtain ⟨v, hv, -⟩ := step [] List.nil_prefix (by simp)
  refine ⟨v, hv, fun p hp hne => ?_⟩
  obtain ⟨w, hw, leads⟩ := step p hp hne
  rw [hv] at hw
  exact Option.some.inj hw ▸ leads

/-- At the end of a path through objects of both, the overlay lies over the base. -/
theorem lays_at {b o : Json} (ho : o.Canonical) {path : List String}
    (nonempty : path ≠ []) (hbase : b.Passes path) (hover : o.Passes path) :
    Lays (b.at? path) (o.at? path) ((merge b o).at? path) := by
  induction path generalizing b o with
  | nil => exact absurd rfl nonempty
  | cons key path ih =>
    obtain ⟨below, rfl⟩ := hbase.object
    obtain ⟨above, rfl⟩ := hover.object
    rw [merge_objects]
    simp only [at?, get?_object, find?_merge ho.1]
    cases path with
    | nil =>
      simp only [at?, Option.bind_fun_some]
      exact lays_layered _ _
    | cons next path =>
      -- both have an object under the key, so the merged document has the merge of the two
      obtain ⟨e, he, hbase⟩ := hbase.next
      obtain ⟨v, hv, hover⟩ := hover.next
      obtain ⟨inner, rfl⟩ := hover.object
      rw [he, hv]
      exact ih (ho.find? hv) (by simp) hbase hover

/-! ## All laws -/

/-- What holds of a document laid over another. -/
structure Overlaid (b o : Json) : Prop where
  canonical : (merge b o).Canonical
  again : merge (merge b o) o = merge b o
  keys : ∀ below above, b = .object below → o = .object above → ∃ merged,
    merge b o = .object merged ∧ ∀ key, key ∈ Entries.keys merged ↔
      key ∈ Entries.keys below ∨ ∃ v, Entries.find? key above = some v ∧ v ≠ .null
  paths : ∀ path, path ≠ [] → b.Passes path → o.Passes path →
    Lays (b.at? path) (o.at? path) ((merge b o).at? path)

/-- The members of a value are in key order, as they are in a map: nothing else is asked. -/
theorem merge_lawful {b o v : Json} (hb : b.Canonical) (ho : o.Canonical) (hv : v.Canonical) :
    merge v v = v ∧ Overlaid b o := by
  refine ⟨merge_self hv, canonical_merge hb ho, merge_again hb ho, ?_, fun _ => lays_at ho⟩
  rintro below above rfl rfl
  exact ⟨_, merge_objects below above, fun key => mem_keys_mergeMembers ho.1⟩

/-- A document with a null of its own, and one that has every kind of value for it. -/
def lower : Json :=
  .object [("a", .object [("x", .ofInt 1), ("y", .null)]), ("b", .ofInt 2), ("c", .null)]

def upper : Json :=
  .object [("a", .object [("x", .null), ("z", .object [("w", .null)])]), ("b", .null),
    ("c", .object []), ("d", .null)]

theorem merge_lawful_nulls :
    lower.Canonical ∧ upper.Canonical ∧ (merge lower lower = lower ∧ Overlaid lower upper) ∧
      merge lower upper = .object
        [("a", .object [("x", .ofInt 1), ("y", .null), ("z", .object [("w", .null)])]),
          ("b", .ofInt 2), ("c", .object [])] := by
  have hlower : lower.Canonical := by
    simp only [lower, Canonical, CanonicalMembers, ofInt, and_true]
    decide
  have hupper : upper.Canonical := by
    simp only [upper, Canonical, CanonicalMembers, and_true]
    decide
  exact ⟨hlower, hupper, merge_lawful hlower hupper hlower, rfl⟩

end GameLink.Json
