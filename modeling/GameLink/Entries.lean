/-! # Sorted association lists

A free-form object is a list of members in increasing key order, and a map of
strings is such a list with the order in its type. `insert` keeps the order and
replaces an earlier value, so reading members one after the other keeps the
last value of a repeated key, and two maps with the same look-ups are the same
list. Keys compare by code points, which is also the order of their UTF-8
bytes.
-/
namespace GameLink

abbrev Entries (α : Type) := List (String × α)

namespace Entries
variable {α : Type}

def insert (k : String) (v : α) : Entries α → Entries α
  | [] => [(k, v)]
  | (k', v') :: rest =>
    if k < k' then (k, v) :: (k', v') :: rest
    else if k = k' then (k, v) :: rest
    else (k', v') :: insert k v rest

def find? (k : String) : Entries α → Option α
  | [] => none
  | (k', v) :: rest => if k = k' then some v else find? k rest

def erase (k : String) : Entries α → Entries α
  | [] => []
  | (k', v) :: rest => if k = k' then erase k rest else (k', v) :: erase k rest

def keys (m : Entries α) : List String := m.map Prod.fst

/-- Puts pairs in order; the last value of a repeated key stays. -/
def ofList (pairs : List (String × α)) : Entries α :=
  pairs.foldl (fun m p => insert p.1 p.2 m) []

/-- Keys strictly increase. -/
def Sorted (m : Entries α) : Prop := m.Pairwise (fun a b => a.1 < b.1)

instance (m : Entries α) : Decidable (Sorted m) := by unfold Sorted; infer_instance

theorem sorted_nil : Sorted ([] : Entries α) := List.Pairwise.nil

theorem mem_insert {k : String} {v : α} {p : String × α} {m : Entries α}
    (h : p ∈ insert k v m) : p = (k, v) ∨ p ∈ m := by
  induction m with
  | nil => simpa [insert] using h
  | cons q rest ih =>
    obtain ⟨k', v'⟩ := q
    simp only [insert] at h
    split at h
    · simpa using h
    · split at h
      · rcases List.mem_cons.1 h with h | h
        · exact .inl h
        · exact .inr (List.mem_cons_of_mem _ h)
      · rcases List.mem_cons.1 h with h | h
        · exact .inr (h ▸ List.mem_cons_self)
        · exact (ih h).imp id (List.mem_cons_of_mem _)

theorem lt_of_not_lt_of_ne {a b : String} (h : ¬ a < b) (hne : a ≠ b) : b < a := by
  rcases String.le_total a b with hle | hle
  · exact absurd (String.le_antisymm hle (String.not_lt.1 h)) hne
  · exact String.not_le.1 fun hab => hne (String.le_antisymm hab hle)

theorem Sorted.insert {m : Entries α} (h : Sorted m) (k : String) (v : α) :
    Sorted (insert k v m) := by
  induction m with
  | nil => simp [Entries.insert, Sorted]
  | cons q rest ih =>
    obtain ⟨k', v'⟩ := q
    have htail : Sorted rest := (List.pairwise_cons.1 h).2
    have hhead := (List.pairwise_cons.1 h).1
    simp only [Entries.insert]
    split
    · rename_i hlt
      refine List.pairwise_cons.2 ⟨fun p hp => ?_, h⟩
      rcases List.mem_cons.1 hp with rfl | hp
      · exact hlt
      · exact String.lt_trans hlt (hhead p hp)
    · rename_i hlt
      split
      · rename_i heq
        subst heq
        exact List.pairwise_cons.2 ⟨fun p hp => hhead p hp, htail⟩
      · rename_i hne
        refine List.pairwise_cons.2 ⟨fun p hp => ?_, ih htail⟩
        rcases mem_insert hp with rfl | hp
        · exact lt_of_not_lt_of_ne hlt hne
        · exact hhead p hp

theorem find?_insert_self (k : String) (v : α) (m : Entries α) :
    find? k (insert k v m) = some v := by
  induction m with
  | nil => simp [insert, find?]
  | cons q rest ih =>
    obtain ⟨k', v'⟩ := q
    simp only [insert]
    split
    · simp [find?]
    · split
      · simp [find?]
      · rename_i hne
        simp [find?, hne, ih]

theorem find?_insert_of_ne {k k' : String} (v : α) (m : Entries α) (h : k' ≠ k) :
    find? k' (insert k v m) = find? k' m := by
  induction m with
  | nil => simp [insert, find?, h]
  | cons q rest ih =>
    obtain ⟨k'', v''⟩ := q
    simp only [insert]
    split
    · simp [find?, h]
    · split
      · rename_i heq
        subst heq
        simp [find?, h]
      · simp [find?, ih]

theorem sorted_foldl_insert (pairs : List (String × α)) {m : Entries α} (h : Sorted m) :
    Sorted (pairs.foldl (fun m p => insert p.1 p.2 m) m) := by
  induction pairs generalizing m with
  | nil => exact h
  | cons p rest ih => exact ih (h.insert p.1 p.2)

theorem sorted_ofList (pairs : List (String × α)) : Sorted (ofList pairs) :=
  sorted_foldl_insert pairs sorted_nil

end Entries

/-- A map with text keys; equal maps are equal lists. -/
structure StringMap (α : Type) where
  entries : Entries α
  sorted : Entries.Sorted entries
deriving DecidableEq

namespace StringMap
variable {α : Type}

def empty : StringMap α := ⟨[], Entries.sorted_nil⟩

instance : Inhabited (StringMap α) := ⟨empty⟩

def ofList (pairs : List (String × α)) : StringMap α :=
  ⟨Entries.ofList pairs, Entries.sorted_ofList pairs⟩

def insert (m : StringMap α) (k : String) (v : α) : StringMap α :=
  ⟨Entries.insert k v m.entries, m.sorted.insert k v⟩

def find? (m : StringMap α) (k : String) : Option α := Entries.find? k m.entries

def isEmpty (m : StringMap α) : Bool := m.entries.isEmpty

def size (m : StringMap α) : Nat := m.entries.length

end StringMap

end GameLink
