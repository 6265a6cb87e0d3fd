import Mathlib.Data.List.Forall2
import GameLink.Proofs.Json.Records

/-! # Reading a text and reading its value

A text can be read straight into a type, or first as a free-form value. The
value has its members in key order and only the last of those that repeat a
key. So where no key repeats, a reading that does not depend on the order of
members makes the same of the document and of its value.
-/
namespace GameLink.Json

/-! ## Entries with distinct keys -/

theorem nodup_keys {α : Type} {m : Entries α} (h : Entries.Sorted m) : (m.map Prod.fst).Nodup := by
  rw [List.Nodup, List.pairwise_map]
  exact h.imp fun hlt heq => absurd (heq ▸ hlt) (String.lt_irrefl _)

theorem find?_eq_none_of_not_mem {α : Type} {key : String} {m : Entries α}
    (h : key ∉ m.map Prod.fst) : Entries.find? key m = none := by
  induction m with
  | nil => rfl
  | cons p rest ih =>
    obtain ⟨k, v⟩ := p
    rw [List.map_cons, List.mem_cons, not_or] at h
    rw [Entries.find?, if_neg h.1, ih h.2]

theorem find?_foldl_insert {α : Type} (key : String) {pairs : List (String × α)}
    (h : (pairs.map Prod.fst).Nodup) (m : Entries α) :
    Entries.find? key (pairs.foldl (fun m p => Entries.insert p.1 p.2 m) m) =
      (Entries.find? key pairs).or (Entries.find? key m) := by
  induction pairs generalizing m with
  | nil => rfl
  | cons p rest ih =>
    obtain ⟨k, v⟩ := p
    obtain ⟨hnot, hrest⟩ := List.nodup_cons.mp h
    rw [List.foldl_cons, ih hrest, Entries.find?]
    by_cases hk : key = k
    · subst hk
      rw [if_pos rfl, find?_eq_none_of_not_mem hnot, Entries.find?_insert_self]
      rfl
    · rw [if_neg hk, Entries.find?_insert_of_ne _ _ hk]

/-- Putting entries in order does not change what is found. -/
theorem find?_ofList {α : Type} (key : String) {pairs : List (String × α)}
    (h : (pairs.map Prod.fst).Nodup) :
    Entries.find? key (Entries.ofList pairs) = Entries.find? key pairs := by
  rw [Entries.ofList, find?_foldl_insert key h]
  exact Option.or_none

namespace Document

/-! ## The value of a document -/

theorem values?_eq_some {depth : Nat} {ds : List Document} {vs : List Json}
    (h : values? depth ds = some vs) : List.Forall₂ (fun d v => d.value? depth = some v) ds vs := by
  induction ds generalizing vs with
  | nil => cases h; exact .nil
  | cons d rest ih =>
    rw [values?] at h
    split at h
    · rename_i v vs' hv hvs
      cases h
      exact .cons hv (ih hvs)
    · cases h

theorem members?_eq_some {depth : Nat} {members : Members} {vs : List (String × Json)}
    (h : members? depth members = some vs) :
    List.Forall₂ (fun m p => m.1 = some p.1 ∧ m.2.value? depth = some p.2) members vs := by
  induction members generalizing vs with
  | nil => cases h; exact .nil
  | cons m rest ih =>
    obtain ⟨key, d⟩ := m
    unfold members? at h
    split at h
    · rename_i k v vs' hv hvs
      cases h
      exact .cons ⟨rfl, hv⟩ (ih hvs)
    · cases h

/-- An array with a value is closed and one container deeper than its items. -/
theorem value?_array {depth : Nat} {items : List Document} {closed : Bool} {v : Json}
    (h : value? depth (.array items closed) = some v) :
    ∃ n vs, depth = n + 1 ∧ closed = true ∧ values? n items = some vs ∧ v = .array vs := by
  cases depth with
  | zero => simp [value?] at h
  | succ n =>
    rw [value?] at h
    split at h
    · rename_i hclosed
      obtain ⟨vs, hvs, rfl⟩ := Option.map_eq_some_iff.mp h
      exact ⟨n, vs, rfl, hclosed, hvs, rfl⟩
    · cases h

theorem value?_object {depth : Nat} {members : Members} {closed : Bool} {v : Json}
    (h : value? depth (.object members closed) = some v) :
    ∃ n vs, depth = n + 1 ∧ closed = true ∧ members? n members = some vs ∧
      v = .object (Entries.ofList vs) := by
  cases depth with
  | zero => simp [value?] at h
  | succ n =>
    rw [value?] at h
    split at h
    · rename_i hclosed
      obtain ⟨vs, hvs, rfl⟩ := Option.map_eq_some_iff.mp h
      exact ⟨n, vs, rfl, hclosed, hvs, rfl⟩
    · cases h

theorem value?_cases {depth : Nat} {d : Document} {v : Json} (h : d.value? depth = some v) :
    ofJson v = d ∨
      (∃ n items vs, d = .array items true ∧ values? n items = some vs ∧ v = .array vs) ∨
      ∃ n members vs, d = .object members true ∧ members? n members = some vs ∧
        v = .object (Entries.ofList vs) := by
  cases d with
  | null => cases h; exact .inl rfl
  | bool b => cases h; exact .inl rfl
  | number n =>
    obtain ⟨x, rfl, rfl⟩ := Option.map_eq_some_iff.mp h
    exact .inl rfl
  | text s =>
    obtain ⟨x, rfl, rfl⟩ := Option.map_eq_some_iff.mp h
    exact .inl rfl
  | broken => simp [value?] at h
  | array items closed =>
    obtain ⟨n, vs, -, rfl, hvs, rfl⟩ := value?_array h
    exact .inr (.inl ⟨n, items, vs, rfl, hvs, rfl⟩)
  | object members closed =>
    obtain ⟨n, vs, -, rfl, hvs, rfl⟩ := value?_object h
    exact .inr (.inr ⟨n, members, vs, rfl, hvs, rfl⟩)

mutual
/-- No object repeats a key. -/
def distinct : Document → Bool
  | .array items _ => allDistinct items
  | .object members _ => decide (members.map Prod.fst).Nodup && membersDistinct members
  | _ => true

def allDistinct : List Document → Bool
  | [] => true
  | d :: rest => d.distinct && allDistinct rest

def membersDistinct : List (Option String × Document) → Bool
  | [] => true
  | (_, d) :: rest => d.distinct && membersDistinct rest
end

theorem distinct_of_mem_items {ds : List Document} (h : allDistinct ds = true) :
    ∀ d ∈ ds, d.distinct = true := by
  induction ds with
  | nil => simp
  | cons d rest ih =>
    rw [allDistinct, Bool.and_eq_true] at h
    intro d' hd'
    rcases List.mem_cons.mp hd' with rfl | hd'
    · exact h.1
    · exact ih h.2 d' hd'

theorem distinct_of_mem_members {members : Members} (h : membersDistinct members = true) :
    ∀ m ∈ members, m.2.distinct = true := by
  induction members with
  | nil => simp
  | cons m rest ih =>
    obtain ⟨k, d⟩ := m
    rw [membersDistinct, Bool.and_eq_true] at h
    intro m' hm'
    rcases List.mem_cons.mp hm' with rfl | hm'
    · exact h.1
    · exact ih h.2 m' hm'

mutual
theorem wellFormed_of_value? : ∀ {depth : Nat} (d : Document) {v : Json},
    d.value? depth = some v → d.wellFormed = true
  | _, .null, _, _ | _, .bool _, _, _ | _, .number _, _, _ | _, .text _, _, _ => rfl
  | _, .broken, _, h => by simp [value?] at h
  | _, .array items _, _, h => by
    obtain ⟨n, vs, rfl, rfl, hvs, rfl⟩ := value?_array h
    exact allWellFormed_of_values? items hvs
  | _, .object members _, _, h => by
    obtain ⟨n, vs, rfl, rfl, hvs, rfl⟩ := value?_object h
    exact membersWellFormed_of_members? members hvs

theorem allWellFormed_of_values? : ∀ {depth : Nat} (ds : List Document) {vs : List Json},
    values? depth ds = some vs → allWellFormed ds = true
  | _, [], _, _ => rfl
  | _, d :: rest, _, h => by
    rw [values?] at h
    split at h
    · rename_i hv hvs
      rw [allWellFormed, wellFormed_of_value? d hv, allWellFormed_of_values? rest hvs]
      rfl
    · cases h

theorem membersWellFormed_of_members? : ∀ {depth : Nat} (members : List (Option String × Document))
    {vs : List (String × Json)}, members? depth members = some vs → membersWellFormed members = true
  | _, [], _, _ => rfl
  | _, (_, d) :: rest, _, h => by
    unfold members? at h
    split at h
    · rename_i hv hvs
      rw [membersWellFormed, wellFormed_of_value? d hv, membersWellFormed_of_members? rest hvs]
      rfl
    · cases h
end

mutual
theorem wellFormed_ofJson : ∀ v : Json, (ofJson v).wellFormed = true
  | .null | .bool _ | .number _ | .string _ => rfl
  | .array items => by
    rw [ofJson, wellFormed, allWellFormed_ofItems items]
    rfl
  | .object members => by
    rw [ofJson, wellFormed, membersWellFormed_ofMembers members]
    rfl

theorem allWellFormed_ofItems : ∀ vs : List Json, allWellFormed (ofItems vs) = true
  | [] => rfl
  | v :: rest => by
    rw [ofItems, allWellFormed, wellFormed_ofJson v, allWellFormed_ofItems rest]
    rfl

theorem membersWellFormed_ofMembers : ∀ vs : List (String × Json),
    membersWellFormed (ofMembers vs) = true
  | [] => rfl
  | (_, v) :: rest => by
    rw [ofMembers, membersWellFormed, wellFormed_ofJson v, membersWellFormed_ofMembers rest]
    rfl
end

/-! ## Members and entries -/

theorem ofMembers_eq_map (vs : List (String × Json)) :
    ofMembers vs = vs.map (fun p => (some p.1, ofJson p.2)) := by
  induction vs with
  | nil => rfl
  | cons p rest ih => rw [ofMembers, ih, List.map_cons]

theorem find?_ofMembers (key : String) (vs : List (String × Json)) :
    find? key (ofMembers vs) = (Entries.find? key vs).map ofJson := by
  induction vs with
  | nil => rfl
  | cons p rest ih =>
    obtain ⟨k, v⟩ := p
    rw [ofMembers, find?, Entries.find?, ih]
    by_cases hk : key = k
    · rw [if_pos (congrArg some hk.symm), if_pos hk]
      rfl
    · rw [if_neg (fun h => hk (Option.some.inj h).symm), if_neg hk]

theorem legible_ofMembers {vs : List (String × Json)} (h : (vs.map Prod.fst).Nodup) :
    Legible (ofMembers vs) := by
  rw [ofMembers_eq_map]
  refine ⟨?_, ?_, ?_⟩
  · intro m hm
    obtain ⟨p, -, rfl⟩ := List.mem_map.mp hm
    rfl
  · intro m hm
    obtain ⟨p, -, rfl⟩ := List.mem_map.mp hm
    exact wellFormed_ofJson p.2
  · have hkeys : (vs.map (fun p => (some p.1, ofJson p.2))).map Prod.fst =
        (vs.map Prod.fst).map some := by simp
    rw [hkeys]
    exact List.pairwise_map.mpr (h.imp fun hne heq => hne (Option.some.inj heq))

/-- Members with values are found where their values are. -/
theorem find?_values {depth : Nat} {members : Members} {vs : List (String × Json)}
    (h : List.Forall₂ (fun m p => m.1 = some p.1 ∧ m.2.value? depth = some p.2) members vs)
    (key : String) :
    find? key members = none ∧ Entries.find? key vs = none ∨
      ∃ d v, find? key members = some d ∧ Entries.find? key vs = some v ∧
        d.value? depth = some v ∧ (some key, d) ∈ members := by
  induction h with
  | nil => exact .inl ⟨rfl, rfl⟩
  | @cons m p members vs hm _ ih =>
    obtain ⟨k, d⟩ := m
    obtain ⟨k', v⟩ := p
    obtain ⟨rfl, hv⟩ := hm
    by_cases hk : key = k'
    · subst hk
      exact .inr ⟨d, v, if_pos rfl, if_pos rfl, hv, List.mem_cons_self⟩
    · rw [find?, Entries.find?, if_neg (fun h => hk (Option.some.inj h).symm), if_neg hk]
      rcases ih with ih | ⟨d', v', hd', hv', hvalue, hmem⟩
      · exact .inl ih
      · exact .inr ⟨d', v', hd', hv', hvalue, List.mem_cons_of_mem _ hmem⟩

theorem legible_of_values {depth : Nat} {members : Members} {vs : List (String × Json)}
    (h : List.Forall₂ (fun m p => m.1 = some p.1 ∧ m.2.value? depth = some p.2) members vs)
    (apart : (members.map Prod.fst).Nodup) : Legible members := by
  have hall : ∀ m ∈ members, m.1.isSome = true ∧ m.2.wellFormed = true := by
    clear apart
    induction h with
    | nil => simp
    | @cons m p _ _ hm _ ih =>
      intro m' hm'
      rcases List.mem_cons.mp hm' with rfl | hm'
      · exact ⟨by rw [hm.1]; rfl, wellFormed_of_value? _ hm.2⟩
      · exact ih m' hm'
  exact ⟨fun m hm => (hall m hm).1, fun m hm => (hall m hm).2, apart⟩

theorem nodup_values {depth : Nat} {members : Members} {vs : List (String × Json)}
    (h : List.Forall₂ (fun m p => m.1 = some p.1 ∧ m.2.value? depth = some p.2) members vs)
    (apart : (members.map Prod.fst).Nodup) : (vs.map Prod.fst).Nodup := by
  have hkeys : members.map Prod.fst = (vs.map Prod.fst).map some := by
    clear apart
    induction h with
    | nil => rfl
    | cons hm _ ih => rw [List.map_cons, List.map_cons, List.map_cons, ih, hm.1]
  rw [hkeys, List.Nodup, List.pairwise_map] at apart
  exact apart.imp fun hne heq => hne (congrArg some heq)

end Document

namespace Reading
open Document
variable {α ρ : Type}

/-! ## Steady readings -/

/-- A reading makes the same of a document without repeated keys as of its value. -/
def Steady (read : Reading α) : Prop :=
  ∀ {depth : Nat} {d : Document} {v : Json}, d.value? depth = some v → d.distinct = true →
    (read d).toOption = (read (.ofJson v)).toOption

/-- A reading that takes no containers. -/
theorem steady_of_scalar {read : Reading α}
    (harray : ∀ items closed, (read (.array items closed)).toOption = none)
    (hobject : ∀ members closed, (read (.object members closed)).toOption = none) :
    Steady read := by
  intro depth d v h _
  rcases value?_cases h with heq | ⟨n, items, vs, rfl, -, rfl⟩ | ⟨n, members, vs, rfl, -, rfl⟩
  · rw [heq]
  · rw [harray, ofJson, harray]
  · rw [hobject, ofJson, hobject]

@[simp]
theorem steady_text : Steady text := steady_of_scalar (fun _ _ => rfl) (fun _ _ => rfl)

@[simp]
theorem steady_flag : Steady flag := steady_of_scalar (fun _ _ => rfl) (fun _ _ => rfl)

theorem steady_integer (lo hi : Int) : Steady (integer lo hi) :=
  steady_of_scalar (fun _ _ => rfl) (fun _ _ => rfl)

theorem steady_map {β : Type} {read : Reading α} (h : Steady read) (f : α → β) :
    Steady (fun d => (read d).map f) := by
  intro depth d v hv hd
  have hmap : ∀ e : Except Fault α, (e.map f).toOption = e.toOption.map f := by
    intro e
    cases e <;> rfl
  rw [hmap, hmap, h hv hd]

@[simp]
theorem steady_optional {read : Reading α} (h : Steady read) : Steady (optional read) := by
  intro depth d v hv hd
  rcases value?_cases hv with heq | ⟨n, items, vs, rfl, -, rfl⟩ | ⟨n, members, vs, rfl, -, rfl⟩
  · rw [heq]
  · exact steady_map h some hv hd
  · exact steady_map h some hv hd

theorem items_values {read : Reading α} (h : Steady read) {depth : Nat} {ds : List Document}
    {vs : List Json} (hvs : List.Forall₂ (fun d v => d.value? depth = some v) ds vs)
    (hds : ∀ d ∈ ds, d.distinct = true) :
    (items read ds).toOption = (items read (ofItems vs)).toOption := by
  induction hvs with
  | nil => rfl
  | @cons d v ds vs hv _ ih =>
    have hhead := h hv (hds d List.mem_cons_self)
    have htail := ih fun d hd => hds d (List.mem_cons_of_mem _ hd)
    rw [ofItems, items, items]
    cases hd : read d <;> cases hv : read (.ofJson v) <;> rw [hd, hv] at hhead <;>
      cases hhead <;> try rfl
    cases hds : items read ds <;> cases hvs : items read (ofItems vs) <;> rw [hds, hvs] at htail <;>
      cases htail <;> rfl

@[simp]
theorem steady_list {read : Reading α} (h : Steady read) : Steady (list read) := by
  intro depth d v hv hd
  rcases value?_cases hv with heq | ⟨n, ds, vs, rfl, hvs, rfl⟩ | ⟨n, members, vs, rfl, -, rfl⟩
  · rw [heq]
  · have hitems := items_values h (values?_eq_some hvs) (distinct_of_mem_items hd)
    rw [ofJson, list, list]
    cases hl : items read ds <;> cases hr : items read (ofItems vs) <;> rw [hl, hr] at hitems <;>
      cases hitems <;> rfl
  · rfl

/-- A field for which it makes no difference. -/
def Slot.Steady (f : Slot ρ) : Prop :=
  ∀ {depth : Nat} {d : Document} {v : Json}, d.value? depth = some v → d.distinct = true →
    ∀ r, f.put d r = f.put (.ofJson v) r

@[simp]
theorem steady_field {name : String} {read : Reading α} {set : ρ → α → ρ} (h : Steady read) :
    (field name read set).Steady := by
  intro depth d v hv hd r
  rw [put_field, put_field, h hv hd]

@[simp]
theorem steady_requiredField {name : String} {read : Reading α} {set : ρ → α → ρ}
    (h : Steady read) : (requiredField name read set).Steady :=
  @steady_field α ρ name read set h

theorem recordItems_values {depth : Nat} {fields : List (Slot ρ)} (h : ∀ f ∈ fields, f.Steady)
    {ds : List Document} {vs : List Json}
    (hvs : List.Forall₂ (fun d v => d.value? depth = some v) ds vs)
    (hds : ∀ d ∈ ds, d.distinct = true) (r : ρ) :
    (recordItems true fields ds r).toOption =
      (recordItems true fields (ofItems vs) r).toOption := by
  induction hvs generalizing fields r with
  | nil => rfl
  | @cons d v ds vs hv _ ih =>
    cases fields with
    | nil => rfl
    | cons f fields =>
      have hput := h f List.mem_cons_self hv (hds d List.mem_cons_self) r
      have hrest := ih (fun g hg => h g (List.mem_cons_of_mem _ hg))
        (fun d hd => hds d (List.mem_cons_of_mem _ hd))
      rw [ofItems, recordItems, recordItems]
      unfold Slot.put at hput
      cases hr : f.store d r <;> cases hr' : f.store (.ofJson v) r <;> rw [hr, hr'] at hput
      · rfl
      · cases hput
      · cases hput
      · cases hput
        exact hrest _

/-- Records of steady fields are steady. -/
theorem steady_record {fields : List (Slot ρ)} (independent : Independent fields)
    (h : ∀ f ∈ fields, f.Steady) (blank : ρ) : Steady (record fields blank) := by
  intro depth d v hv hd
  rcases value?_cases hv with heq | ⟨n, items, vs, rfl, hvs, rfl⟩ | ⟨n, members, vs, rfl, hvs, rfl⟩
  · rw [heq]
  · exact recordItems_values h (values?_eq_some hvs) (distinct_of_mem_items hd) blank
  · rw [distinct, Bool.and_eq_true, decide_eq_true_eq] at hd
    have hshown := members?_eq_some hvs
    have hkeys := nodup_values hshown hd.1
    have hsorted := nodup_keys (Entries.sorted_ofList vs)
    -- a field finds a document on the left just where it finds the value on the right
    have hfound : ∀ f ∈ fields, (find? f.name members).isSome =
        (find? f.name (ofMembers (Entries.ofList vs))).isSome ∧
        ∀ r, f.offer (find? f.name members) r =
          f.offer (find? f.name (ofMembers (Entries.ofList vs))) r := by
      intro f hf
      rw [find?_ofMembers, find?_ofList f.name hkeys]
      rcases find?_values hshown f.name with ⟨hnone, hnone'⟩ | ⟨d, v, hsome, hsome', hvalue, hmem⟩
      · rw [hnone, hnone']
        exact ⟨rfl, fun _ => rfl⟩
      · rw [hsome, hsome']
        exact ⟨rfl, h f hf hvalue (distinct_of_mem_members hd.2 _ hmem)⟩
    have hfill : fill (find? · members) fields blank =
        fill (find? · (ofMembers (Entries.ofList vs))) fields blank :=
      fill_congr (fun f hf => (hfound f hf).2) blank
    rw [record_object_eq independent (legible_of_values hshown hd.1), ofJson,
      record_object_eq independent (legible_ofMembers hsorted), hfill]
    refine if_congr (forall₂_congr fun f hf => ?_) rfl rfl
    rw [(hfound f hf).1]

end Reading
end GameLink.Json
