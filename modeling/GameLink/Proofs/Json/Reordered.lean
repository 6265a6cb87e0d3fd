import Mathlib.Data.List.Nodup
import GameLink.Proofs.Json.Steady
import GameLink.Proofs.Json.Written

/-! # Values up to the order of members

What an object says does not depend on the order in which its members are
written, and a map writes them in an order of its own. Two values say the same
when they have the same sorted form and neither repeats a key: then one can be
written where the other can, and a steady reading makes the same of both.
-/
namespace GameLink.Json
open Document

/-! ## Items and members -/

@[elab_as_elim]
theorem induction {P : Json → Prop} (null : P .null) (bool : ∀ b, P (.bool b))
    (number : ∀ n, P (.number n)) (string : ∀ s, P (.string s))
    (array : ∀ items, (∀ v ∈ items, P v) → P (.array items))
    (object : ∀ members, (∀ m ∈ members, P m.2) → P (.object members)) (v : Json) : P v := by
  cases v with
  | null => exact null
  | bool b => exact bool b
  | number n => exact number n
  | string s => exact string s
  | array items =>
    refine array items fun item hitem => ?_
    have : sizeOf item < sizeOf items := List.sizeOf_lt_of_mem hitem
    exact induction null bool number string array object item
  | object members =>
    refine object members fun m hm => ?_
    have : sizeOf m < sizeOf members := List.sizeOf_lt_of_mem hm
    have : sizeOf m.2 < sizeOf m := by cases m; simp +arith
    exact induction null bool number string array object m.2
termination_by sizeOf v

theorem ofItems_eq_map (items : List Json) : ofItems items = items.map ofJson := by
  induction items with
  | nil => rfl
  | cons v rest ih => rw [ofItems, ih, List.map_cons]

theorem sortedItems_eq_map (items : List Json) : sortedItems items = items.map sorted := by
  induction items with
  | nil => rfl
  | cons v rest ih => rw [sortedItems, ih, List.map_cons]

theorem sortedMembers_eq_map (members : List (String × Json)) :
    sortedMembers members = members.map fun m => (m.1, m.2.sorted) := by
  induction members with
  | nil => rfl
  | cons m rest ih => rw [sortedMembers, ih, List.map_cons]

theorem keys_sortedMembers (members : List (String × Json)) :
    (sortedMembers members).map Prod.fst = members.map Prod.fst := by
  rw [sortedMembers_eq_map, List.map_map]
  rfl

theorem find?_sortedMembers (key : String) (members : List (String × Json)) :
    Entries.find? key (sortedMembers members) = (Entries.find? key members).map sorted := by
  induction members with
  | nil => rfl
  | cons m rest ih =>
    rw [sortedMembers, Entries.find?, Entries.find?, ih]
    split <;> rfl

theorem integralItems_iff {items : List Json} :
    IntegralItems items ↔ ∀ v ∈ items, v.Integral := by
  induction items with
  | nil => simp [IntegralItems]
  | cons v rest ih => simp [IntegralItems, ih]

theorem integralMembers_iff {members : List (String × Json)} :
    IntegralMembers members ↔ ∀ m ∈ members, m.2.Integral := by
  induction members with
  | nil => simp [IntegralMembers]
  | cons m rest ih => simp [IntegralMembers, ih]

theorem depthItems_le_iff {n : Nat} {items : List Json} :
    depthItems items ≤ n ↔ ∀ v ∈ items, v.depth ≤ n := by
  induction items with
  | nil => simp [depthItems]
  | cons v rest ih => rw [depthItems, Nat.max_le, ih, List.forall_mem_cons]

theorem depthMembers_le_iff {n : Nat} {members : List (String × Json)} :
    depthMembers members ≤ n ↔ ∀ m ∈ members, m.2.depth ≤ n := by
  induction members with
  | nil => simp [depthMembers]
  | cons m rest ih => rw [depthMembers, Nat.max_le, ih, List.forall_mem_cons]

/-! ## Entries and their look-ups -/

theorem mem_iff_find? {α : Type} {m : Entries α} (apart : (m.map Prod.fst).Nodup) {key : String}
    {v : α} : (key, v) ∈ m ↔ Entries.find? key m = some v := by
  induction m with
  | nil => simp [Entries.find?]
  | cons p rest ih =>
    obtain ⟨k, w⟩ := p
    obtain ⟨hnot, hrest⟩ := List.nodup_cons.mp apart
    rw [List.mem_cons, Entries.find?]
    by_cases hk : key = k
    · subst hk
      have hmem : (key, v) ∉ rest := fun h => hnot (List.mem_map.mpr ⟨(key, v), h, rfl⟩)
      rw [if_pos rfl, or_iff_left hmem, Prod.mk.injEq, Option.some.injEq]
      exact ⟨fun h => h.2.symm, fun h => ⟨rfl, h.symm⟩⟩
    · simp [hk, ih hrest]

theorem mem_ofList {α : Type} {pairs : List (String × α)} (apart : (pairs.map Prod.fst).Nodup)
    {p : String × α} : p ∈ Entries.ofList pairs ↔ p ∈ pairs := by
  rw [mem_iff_find? (nodup_keys (Entries.sorted_ofList pairs)), find?_ofList p.1 apart,
    ← mem_iff_find? apart]

theorem find?_ofList_sortedMembers {members : List (String × Json)}
    (apart : (members.map Prod.fst).Nodup) (key : String) :
    Entries.find? key (Entries.ofList (sortedMembers members)) =
      (Entries.find? key members).map sorted := by
  rw [← keys_sortedMembers] at apart
  rw [find?_ofList key apart, find?_sortedMembers]

/-- Entries in order are known by what is found in them. -/
theorem entries_ext {α : Type} {m m' : Entries α} (h : Entries.Sorted m) (h' : Entries.Sorted m')
    (hfind : ∀ key, Entries.find? key m = Entries.find? key m') : m = m' := by
  have hmem : ∀ p, p ∈ m ↔ p ∈ m' := by
    intro p
    rw [mem_iff_find? (nodup_keys h), mem_iff_find? (nodup_keys h'), hfind]
  -- permutations of each other that are both in order
  have hperm : m.Perm m' :=
    (List.perm_ext_iff_of_nodup (List.Nodup.of_map Prod.fst (nodup_keys h))
      (List.Nodup.of_map Prod.fst (nodup_keys h'))).mpr hmem
  refine hperm.eq_of_pairwise (fun p q _ _ hlt hgt => ?_) h h'
  exact absurd (String.lt_trans hlt hgt) (String.lt_irrefl _)

theorem find?_perm {α : Type} {m m' : Entries α} (h : m.Perm m') (apart : (m.map Prod.fst).Nodup)
    (key : String) : Entries.find? key m = Entries.find? key m' := by
  have apart' := (h.map Prod.fst).nodup_iff.mp apart
  ext v
  rw [← mem_iff_find? apart, ← mem_iff_find? apart', h.mem_iff]

/-- Distinct keys are put in the same order wherever they come from. -/
theorem ofList_perm {α : Type} {m m' : List (String × α)} (h : m.Perm m')
    (apart : (m.map Prod.fst).Nodup) : Entries.ofList m = Entries.ofList m' := by
  have apart' := (h.map Prod.fst).nodup_iff.mp apart
  refine entries_ext (Entries.sorted_ofList m) (Entries.sorted_ofList m') fun key => ?_
  rw [find?_ofList key apart, find?_ofList key apart', find?_perm h apart]

/-! ## Values -/

/-- No object repeats a key. -/
def Unrepeated (v : Json) : Prop := (ofJson v).distinct = true

theorem unrepeated_array {items : List Json} :
    (Json.array items).Unrepeated ↔ ∀ v ∈ items, v.Unrepeated := by
  rw [Unrepeated, ofJson, distinct]
  induction items with
  | nil => simp [ofItems, allDistinct]
  | cons v rest ih => simp [ofItems, allDistinct, ih, Unrepeated]

theorem membersDistinct_ofMembers {members : List (String × Json)} :
    membersDistinct (ofMembers members) = true ↔ ∀ m ∈ members, m.2.Unrepeated := by
  induction members with
  | nil => simp [ofMembers, membersDistinct]
  | cons m rest ih =>
    rw [ofMembers, membersDistinct, Bool.and_eq_true, ih, List.forall_mem_cons, Unrepeated]

theorem keys_ofMembers (members : List (String × Json)) :
    (ofMembers members).map Prod.fst = (members.map Prod.fst).map some := by
  rw [ofMembers_eq_map, List.map_map, List.map_map]
  rfl

theorem unrepeated_object {members : List (String × Json)} :
    (Json.object members).Unrepeated ↔
      (members.map Prod.fst).Nodup ∧ ∀ m ∈ members, m.2.Unrepeated := by
  rw [Unrepeated, ofJson, distinct, Bool.and_eq_true, decide_eq_true_eq, keys_ofMembers,
    List.nodup_map_iff fun _ _ => Option.some.inj, membersDistinct_ofMembers]

theorem values?_ofItems {depth : Nat} {items : List Json}
    (h : ∀ v ∈ items, (ofJson v).value? depth = some v.sorted) :
    values? depth (ofItems items) = some (sortedItems items) := by
  induction items with
  | nil => rfl
  | cons v rest ih =>
    rw [List.forall_mem_cons] at h
    rw [ofItems, values?, h.1, ih h.2, sortedItems]

theorem members?_ofMembers {depth : Nat} {members : List (String × Json)}
    (h : ∀ m ∈ members, (ofJson m.2).value? depth = some m.2.sorted) :
    members? depth (ofMembers members) = some (sortedMembers members) := by
  induction members with
  | nil => rfl
  | cons m rest ih =>
    rw [List.forall_mem_cons] at h
    simp only [ofMembers, members?, h.1, ih h.2, sortedMembers]

/-- The value of the document that shows a value has the members in order. -/
theorem value?_ofJson (v : Json) {depth : Nat} (h : v.depth ≤ depth) :
    (ofJson v).value? depth = some v.sorted := by
  induction v using induction generalizing depth with
  | null | bool | number | string => rfl
  | array items ih =>
    obtain ⟨n, rfl⟩ : ∃ n, depth = n + 1 := ⟨depth - 1, by rw [Json.depth] at h; omega⟩
    have hitems := depthItems_le_iff.mp (Nat.le_of_succ_le_succ h)
    rw [ofJson, value?, if_pos rfl, values?_ofItems fun v hv => ih v hv (hitems v hv)]
    rfl
  | object members ih =>
    obtain ⟨n, rfl⟩ : ∃ n, depth = n + 1 := ⟨depth - 1, by rw [Json.depth] at h; omega⟩
    have hmembers := depthMembers_le_iff.mp (Nat.le_of_succ_le_succ h)
    rw [ofJson, value?, if_pos rfl, members?_ofMembers fun m hm => ih m hm (hmembers m hm)]
    rfl

theorem exists_of_forall₂ {α β : Type} {R : α → β → Prop} {as : List α} {bs : List β}
    (h : List.Forall₂ R as bs) : ∀ a ∈ as, ∃ b, R a b := by
  induction h with
  | nil => simp
  | cons hab _ ih => exact List.forall_mem_cons.mpr ⟨⟨_, hab⟩, ih⟩

theorem depth_le_of_value? {v w : Json} {depth : Nat} (h : (ofJson v).value? depth = some w) :
    v.depth ≤ depth := by
  induction v using induction generalizing depth w with
  | null | bool | number | string => exact Nat.zero_le _
  | array items ih =>
    rw [ofJson] at h
    obtain ⟨n, vs, rfl, -, hvs, -⟩ := value?_array h
    rw [ofItems_eq_map] at hvs
    refine Nat.succ_le_succ (depthItems_le_iff.mpr fun v hv => ?_)
    obtain ⟨w, hw⟩ := exists_of_forall₂ (values?_eq_some hvs) _ (List.mem_map_of_mem hv)
    exact ih v hv hw
  | object members ih =>
    rw [ofJson] at h
    obtain ⟨n, vs, rfl, -, hvs, -⟩ := value?_object h
    rw [ofMembers_eq_map] at hvs
    refine Nat.succ_le_succ (depthMembers_le_iff.mpr fun m hm => ?_)
    obtain ⟨w, hw⟩ := exists_of_forall₂ (members?_eq_some hvs) _ (List.mem_map_of_mem hm)
    exact ih m hm hw.2

theorem members?_ofMembers_iff {depth : Nat} {members vs : List (String × Json)} :
    members? depth (ofMembers members) = some vs ↔
      (∀ m ∈ members, m.2.depth ≤ depth) ∧ vs = sortedMembers members := by
  constructor
  · intro h
    have hdepth : ∀ m ∈ members, m.2.depth ≤ depth := by
      intro m hm
      rw [ofMembers_eq_map] at h
      obtain ⟨w, hw⟩ := exists_of_forall₂ (members?_eq_some h) _ (List.mem_map_of_mem hm)
      exact depth_le_of_value? hw.2
    rw [members?_ofMembers fun m hm => value?_ofJson m.2 (hdepth m hm)] at h
    exact ⟨hdepth, (Option.some.inj h).symm⟩
  · rintro ⟨hdepth, rfl⟩
    exact members?_ofMembers fun m hm => value?_ofJson m.2 (hdepth m hm)

/-- What holds of all members holds of them in order. -/
theorem forall_mem_sorted {P : Json → Prop} {members : List (String × Json)}
    (apart : (members.map Prod.fst).Nodup) :
    (∀ m ∈ Entries.ofList (sortedMembers members), P m.2) ↔ ∀ m ∈ members, P m.2.sorted := by
  rw [← keys_sortedMembers] at apart
  simp only [mem_ofList apart]
  rw [sortedMembers_eq_map, List.forall_mem_map]

theorem integral_sorted_iff {v : Json} (h : v.Unrepeated) : v.sorted.Integral ↔ v.Integral := by
  -- without the hypothesis a member that is overwritten could be the one that is no integer
  induction v using induction with
  | null | bool | number | string => rfl
  | array items ih =>
    have hitems := unrepeated_array.mp h
    rw [sorted, Integral, Integral, integralItems_iff, integralItems_iff, sortedItems_eq_map,
      List.forall_mem_map]
    exact forall₂_congr fun v hv => ih v hv (hitems v hv)
  | object members ih =>
    obtain ⟨apart, hmembers⟩ := unrepeated_object.mp h
    rw [sorted, Integral, Integral, integralMembers_iff, integralMembers_iff,
      forall_mem_sorted apart]
    exact forall₂_congr fun m hm => ih m hm (hmembers m hm)

theorem depth_sorted_le_iff {v : Json} (h : v.Unrepeated) {n : Nat} :
    v.sorted.depth ≤ n ↔ v.depth ≤ n := by
  induction v using induction generalizing n with
  | null | bool | number | string => rfl
  | array items ih =>
    have hitems := unrepeated_array.mp h
    cases n with
    | zero => simp [sorted, depth]
    | succ n =>
      rw [sorted, depth, depth, Nat.add_le_add_iff_right, Nat.add_le_add_iff_right,
        depthItems_le_iff, depthItems_le_iff, sortedItems_eq_map, List.forall_mem_map]
      exact forall₂_congr fun v hv => ih v hv (hitems v hv)
  | object members ih =>
    obtain ⟨apart, hmembers⟩ := unrepeated_object.mp h
    cases n with
    | zero => simp [sorted, depth]
    | succ n =>
      rw [sorted, depth, depth, Nat.add_le_add_iff_right, Nat.add_le_add_iff_right,
        depthMembers_le_iff, depthMembers_le_iff, @forall_mem_sorted (·.depth ≤ n) _ apart]
      exact forall₂_congr fun m hm => ih m hm (hmembers m hm)

/-- A value that is written and read back, at most `n` containers deep. -/
structure Portable (n : Nat) (v : Json) : Prop where
  unrepeated : v.Unrepeated
  integral : v.Integral
  depth : v.depth ≤ n

theorem Portable.mono {n n' : Nat} {v : Json} (h : v.Portable n) (hn : n ≤ n') : v.Portable n' :=
  ⟨h.unrepeated, h.integral, Nat.le_trans h.depth hn⟩

theorem portable_bool (n : Nat) (b : Bool) : (Json.bool b).Portable n := ⟨rfl, trivial, n.zero_le⟩

theorem portable_string (n : Nat) (s : String) : (Json.string s).Portable n :=
  ⟨rfl, trivial, n.zero_le⟩

theorem portable_ofInt (n : Nat) {k : Int} (hlow : Decimal.minInt64 ≤ k)
    (hhigh : k ≤ Decimal.maxUInt64) : (ofInt k).Portable n :=
  ⟨rfl, ⟨hlow, hhigh⟩, n.zero_le⟩

theorem portable_array {n : Nat} {items : List Json} (h : ∀ v ∈ items, v.Portable n) :
    (Json.array items).Portable (n + 1) where
  unrepeated := unrepeated_array.mpr fun v hv => (h v hv).unrepeated
  integral := integralItems_iff.mpr fun v hv => (h v hv).integral
  depth := Nat.succ_le_succ (depthItems_le_iff.mpr fun v hv => (h v hv).depth)

theorem portable_object {n : Nat} {members : List (String × Json)}
    (apart : (members.map Prod.fst).Nodup) (h : ∀ m ∈ members, m.2.Portable n) :
    (Json.object members).Portable (n + 1) where
  unrepeated := unrepeated_object.mpr ⟨apart, fun m hm => (h m hm).unrepeated⟩
  integral := integralMembers_iff.mpr fun m hm => (h m hm).integral
  depth := Nat.succ_le_succ (depthMembers_le_iff.mpr fun m hm => (h m hm).depth)

/-- The same value but for the order in which the members of its objects are written. -/
structure Reorders (v w : Json) : Prop where
  sorted : v.sorted = w.sorted
  unrepeated : v.Unrepeated

theorem Reorders.refl {v : Json} (h : v.Unrepeated) : v.Reorders v := ⟨rfl, h⟩

theorem Reorders.portable {v w : Json} (h : v.Reorders w) {n : Nat} (hw : w.Portable n) :
    v.Portable n where
  unrepeated := h.unrepeated
  integral := by
    rw [← integral_sorted_iff h.unrepeated, h.sorted, integral_sorted_iff hw.unrepeated]
    exact hw.integral
  depth := by
    rw [← depth_sorted_le_iff h.unrepeated, h.sorted, depth_sorted_le_iff hw.unrepeated]
    exact hw.depth

/-- A text is the same in any order. -/
theorem eq_of_sorted_string {o : Option Json} {s : Option String}
    (h : o.map Json.sorted = (s.map Json.string).map Json.sorted) : o = s.map Json.string := by
  cases s with
  | none => exact Option.map_eq_none_iff.mp h
  | some s =>
    obtain ⟨v, rfl, hv⟩ := Option.map_eq_some_iff.mp h
    cases v <;> simp [Json.sorted] at hv
    exact congrArg (fun s => some (Json.string s)) hv

/-- Another order of the members of an object is one of an object with the same look-ups. -/
theorem Reorders.object {v : Json} {members : List (String × Json)}
    (h : v.Reorders (.object members)) (apart : (members.map Prod.fst).Nodup) :
    ∃ members', v = .object members' ∧ (members'.map Prod.fst).Nodup ∧
      ∀ key, (Entries.find? key members').map Json.sorted =
        (Entries.find? key members).map Json.sorted := by
  cases v with
  | object members' =>
    have apart' := (unrepeated_object.mp h.unrepeated).1
    refine ⟨members', rfl, apart', fun key => ?_⟩
    have hsorted := h.sorted
    rw [Json.sorted, Json.sorted, Json.object.injEq] at hsorted
    rw [← find?_ofList_sortedMembers apart', ← find?_ofList_sortedMembers apart, hsorted]
  | _ =>
    have hsorted := h.sorted
    simp [Json.sorted] at hsorted

/-- A steady reading makes the same of a value as of its members in order. -/
theorem Reading.Steady.ofJson?_sorted {α : Type} {read : Reading α} (h : read.Steady) {v : Json}
    (hv : v.Unrepeated) : ofJson? read v.sorted = ofJson? read v :=
  (h (value?_ofJson v (Nat.le_refl _)) hv).symm

end GameLink.Json
