import GameLink.Json.Reading

/-! # Records by their fields

Members are read in the order they are written, while a record lists its fields
in an order of its own. Where no key repeats and no two fields set the same part,
the order does not matter: each field is offered the member of its name, if there
is one, and fields that are required have one.
-/
namespace GameLink.Json

namespace Document

/-- The document of a member. -/
def find? (key : String) : Members → Option Document
  | [] => none
  | (k, d) :: rest => if k = some key then some d else find? key rest

/-- Members that can be passed over or told apart, whichever fields a record has. -/
structure Legible (members : Members) : Prop where
  named : ∀ m ∈ members, m.1.isSome
  wellFormed : ∀ m ∈ members, m.2.wellFormed
  apart : (members.map Prod.fst).Nodup

theorem Legible.tail {m : Option String × Document} {members : Members}
    (h : Legible (m :: members)) : Legible members where
  named := fun m hm => h.named m (List.mem_cons_of_mem _ hm)
  wellFormed := fun m hm => h.wellFormed m (List.mem_cons_of_mem _ hm)
  apart := (List.nodup_cons.mp h.apart).2

theorem find?_eq_none {key : String} {members : Members} (h : some key ∉ members.map Prod.fst) :
    find? key members = none := by
  induction members with
  | nil => rfl
  | cons m rest ih =>
    obtain ⟨k, d⟩ := m
    rw [List.map_cons, List.mem_cons, not_or] at h
    rw [find?, if_neg (Ne.symm h.1), ih h.2]

end Document

namespace Reading
open Document
variable {ρ α β : Type}

/-! ## Fields -/

/-- The record after a field has been given a document. -/
def Slot.put (f : Slot ρ) (d : Document) (r : ρ) : Option ρ := (f.store d r).toOption

/-- A field that is offered nothing keeps what it has. -/
def Slot.offer (f : Slot ρ) : Option Document → ρ → Option ρ
  | none, r => some r
  | some d, r => f.put d r

section
variable (name : String) (read : Reading α) (set : ρ → α → ρ)

@[simp]
theorem field_name : (field name read set).name = name := rfl

@[simp]
theorem requiredField_name : (requiredField name read set).name = name := rfl

@[simp]
theorem field_required : (field name read set).required = false := rfl

@[simp]
theorem requiredField_required : (requiredField name read set).required = true := rfl

end

/-- It does not matter which of the two is read first. -/
def Slot.Commute (f g : Slot ρ) : Prop :=
  ∀ d d' r, (f.put d r).bind (g.put d') = (g.put d' r).bind (f.put d)

theorem Slot.Commute.symm {f g : Slot ρ} (h : f.Commute g) : g.Commute f :=
  fun d d' r => (h d' d r).symm

theorem put_field {name : String} {read : Reading α} {set : ρ → α → ρ} (d : Document) (r : ρ) :
    (field name read set).put d r = (read d).toOption.map (set r) := by
  simp only [Slot.put, field]
  cases read d <;> rfl

theorem put_requiredField {name : String} {read : Reading α} {set : ρ → α → ρ} (d : Document)
    (r : ρ) : (requiredField name read set).put d r = (read d).toOption.map (set r) :=
  @put_field ρ α name read set d r

theorem commute_of_put {f g : Slot ρ} {read : Reading α} {read' : Reading β} {set : ρ → α → ρ}
    {set' : ρ → β → ρ} (hf : ∀ d r, f.put d r = (read d).toOption.map (set r))
    (hg : ∀ d r, g.put d r = (read' d).toOption.map (set' r))
    (h : ∀ r a b, set' (set r a) b = set (set' r b) a) : f.Commute g := by
  intro d d' r
  cases hd : (read d).toOption <;> cases hd' : (read' d').toOption <;>
    simp [hf, hg, hd, hd', h]

@[simp]
theorem commute_field {name name' : String} {read : Reading α} {read' : Reading β}
    {set : ρ → α → ρ} {set' : ρ → β → ρ} (h : ∀ r a b, set' (set r a) b = set (set' r b) a) :
    (field name read set).Commute (field name' read' set') :=
  commute_of_put put_field put_field h

@[simp]
theorem commute_field_required {name name' : String} {read : Reading α} {read' : Reading β}
    {set : ρ → α → ρ} {set' : ρ → β → ρ} (h : ∀ r a b, set' (set r a) b = set (set' r b) a) :
    (field name read set).Commute (requiredField name' read' set') :=
  commute_of_put put_field put_requiredField h

@[simp]
theorem commute_required_field {name name' : String} {read : Reading α} {read' : Reading β}
    {set : ρ → α → ρ} {set' : ρ → β → ρ} (h : ∀ r a b, set' (set r a) b = set (set' r b) a) :
    (requiredField name read set).Commute (field name' read' set') :=
  commute_of_put put_requiredField put_field h

@[simp]
theorem commute_required_required {name name' : String} {read : Reading α} {read' : Reading β}
    {set : ρ → α → ρ} {set' : ρ → β → ρ} (h : ∀ r a b, set' (set r a) b = set (set' r b) a) :
    (requiredField name read set).Commute (requiredField name' read' set') :=
  commute_of_put put_requiredField put_requiredField h

theorem Slot.Commute.offer {f g : Slot ρ} (h : f.Commute g) (o o' : Option Document) (r : ρ) :
    (f.offer o r).bind (g.offer o') = (g.offer o' r).bind (f.offer o) := by
  cases o with
  | none => exact (Option.bind_fun_some (g.offer o' r)).symm
  | some d =>
    cases o' with
    | none => exact Option.bind_fun_some (f.put d r)
    | some d' => exact h d d' r

/-- Fields that are told apart by name and set different parts of the record. -/
structure Independent (fields : List (Slot ρ)) : Prop where
  apart : (fields.map Slot.name).Nodup
  commute : fields.Pairwise Slot.Commute

theorem Independent.tail {f : Slot ρ} {fields : List (Slot ρ)} (h : Independent (f :: fields)) :
    Independent fields where
  apart := (List.nodup_cons.mp h.apart).2
  commute := (List.pairwise_cons.mp h.commute).2

theorem Independent.name_ne {f : Slot ρ} {fields : List (Slot ρ)} (h : Independent (f :: fields))
    {g : Slot ρ} (hg : g ∈ fields) : g.name ≠ f.name := by
  intro heq
  have hnot := (List.nodup_cons.mp h.apart).1
  exact hnot (heq ▸ List.mem_map_of_mem hg)

/-- Independent fields that can all be missing. -/
structure Layout (fields : List (Slot ρ)) : Prop extends Independent fields where
  optional : ∀ f ∈ fields, f.required = false

/-! ## Filling fields in their own order -/

/-- The record after each field has been offered the document of its name. -/
def fill (look : String → Option Document) : List (Slot ρ) → ρ → Option ρ
  | [], r => some r
  | f :: fields, r => (f.offer (look f.name) r).bind (fill look fields)

theorem fill_congr {look look' : String → Option Document} {fields : List (Slot ρ)}
    (h : ∀ f ∈ fields, ∀ r, f.offer (look f.name) r = f.offer (look' f.name) r) (r : ρ) :
    fill look fields r = fill look' fields r := by
  induction fields generalizing r with
  | nil => rfl
  | cons f fields ih =>
    have htail := ih (fun g hg => h g (List.mem_cons_of_mem _ hg))
    rw [fill, fill, h f List.mem_cons_self, funext htail]

theorem fill_none (fields : List (Slot ρ)) (r : ρ) : fill (fun _ => none) fields r = some r := by
  induction fields with
  | nil => rfl
  | cons f fields ih => rw [fill, Slot.offer, Option.bind_some, ih]

/-- A field may be filled before all others. -/
theorem fill_eq_put {fields : List (Slot ρ)} (independent : Independent fields) {f : Slot ρ}
    (hf : f ∈ fields) {look look' : String → Option Document} {d : Document}
    (hlook : look f.name = some d) (hlook' : look' f.name = none)
    (hother : ∀ name, name ≠ f.name → look name = look' name) (r : ρ) :
    fill look fields r = (f.put d r).bind (fill look' fields) := by
  induction fields generalizing r with
  | nil => cases hf
  | cons g fields ih =>
    rcases List.mem_cons.mp hf with rfl | hmem
    · have htail : ∀ r, fill look fields r = fill look' fields r :=
        fill_congr fun g hg r => by rw [hother _ (independent.name_ne hg)]
      have hskip : fill look' (f :: fields) = fill look' fields := by
        funext r
        rw [fill, hlook', Slot.offer, Option.bind_some]
      rw [fill, hlook, Slot.offer, hskip, funext htail]
    · have hne : g.name ≠ f.name := (independent.name_ne hmem).symm
      have hcommute : f.Commute g := ((List.pairwise_cons.mp independent.commute).1 f hmem).symm
      calc fill look (g :: fields) r
          = (g.offer (look' g.name) r).bind fun r => (f.put d r).bind (fill look' fields) := by
            rw [fill, hother _ hne, funext (ih independent.tail hmem)]
        _ = ((f.put d r).bind (g.offer (look' g.name))).bind (fill look' fields) := by
            rw [← Option.bind_assoc]
            exact congrArg (·.bind (fill look' fields)) (hcommute.offer (some d) _ r).symm
        _ = (f.put d r).bind (fill look' (g :: fields)) := by
            rw [Option.bind_assoc]
            rfl

/-- A field may be left out where what it is offered changes nothing. -/
theorem fill_eq_of_idle {fields : List (Slot ρ)} (independent : Independent fields)
    {look look' : String → Option Document} {r : ρ}
    (h : ∀ f ∈ fields, (∀ r, f.offer (look f.name) r = f.offer (look' f.name) r) ∨
      look' f.name = none ∧ f.offer (look f.name) r = some r) :
    fill look fields r = fill look' fields r := by
  induction fields generalizing r with
  | nil => rfl
  | cons f fields ih =>
    have hfirst : f.offer (look f.name) r = f.offer (look' f.name) r := by
      rcases h f List.mem_cons_self with hsame | ⟨hnone, hidle⟩
      · exact hsame r
      · rw [hidle, hnone]
        rfl
    rw [fill, fill, hfirst]
    cases hr : f.offer (look' f.name) r with
    | none => rfl
    | some r' =>
      refine ih independent.tail fun g hg => (h g (List.mem_cons_of_mem _ hg)).imp id ?_
      rintro ⟨hnone, hidle⟩
      -- what changes nothing before `f` changes nothing after it
      have hcommute := ((List.pairwise_cons.mp independent.commute).1 g hg).offer (look' f.name)
        (look g.name) r
      rw [hr, hidle, Option.bind_some, Option.bind_some, hr] at hcommute
      exact ⟨hnone, hcommute⟩

/-! ## Objects -/

theorem findField_eq_none {fields : List (Slot ρ)} {name : String}
    (h : findField fields name = none) : ∀ f ∈ fields, f.name ≠ name := by
  intro f hf
  have hf' := List.find?_eq_none.mp h f hf
  simpa using hf'

theorem findField_eq_some {fields : List (Slot ρ)} {name : String} {f : Slot ρ}
    (h : findField fields name = some f) : f ∈ fields ∧ f.name = name := by
  have hname := List.find?_some h
  exact ⟨List.mem_of_find?_eq_some h, by simpa using hname⟩

theorem recordMembers_toOption {fields : List (Slot ρ)} (independent : Independent fields)
    {members : Members} (legible : Legible members) {seen : List String}
    (hseen : ∀ k ∈ seen, some k ∉ members.map Prod.fst) (r : ρ) :
    (recordMembers fields members seen r).toOption.map Prod.snd =
      fill (find? · members) fields r := by
  induction members generalizing seen r with
  | nil => exact (fill_none fields r).symm
  | cons m rest ih =>
    obtain ⟨key, d⟩ := m
    obtain ⟨k, rfl⟩ := Option.isSome_iff_exists.mp (legible.named _ List.mem_cons_self)
    have hrest : some k ∉ rest.map Prod.fst := (List.nodup_cons.mp legible.apart).1
    have hother : ∀ name, name ≠ k → find? name ((some k, d) :: rest) = find? name rest := by
      intro name hname
      rw [find?, if_neg (fun h => hname (Option.some.inj h).symm)]
    have hseen' : ∀ k ∈ seen, some k ∉ rest.map Prod.fst :=
      fun k hk hmem => hseen k hk (List.mem_cons_of_mem _ hmem)
    rw [recordMembers]
    cases hfield : findField fields k with
    | none =>
      have hd : d.wellFormed = true := legible.wellFormed _ List.mem_cons_self
      have hunknown := findField_eq_none hfield
      simp only [hd, if_true]
      rw [ih legible.tail hseen']
      exact fill_congr (fun f hf r => by rw [hother _ (hunknown f hf)]) r
    | some f =>
      obtain ⟨hf, rfl⟩ := findField_eq_some hfield
      have hnew : seen.contains f.name = false := by
        rw [← Bool.not_eq_true, List.contains_iff_mem]
        exact fun hmem => hseen _ hmem List.mem_cons_self
      have hput : fill (find? · ((some f.name, d) :: rest)) fields r =
          (f.put d r).bind (fill (find? · rest) fields) :=
        fill_eq_put independent hf (if_pos rfl) (find?_eq_none hrest) hother r
      rw [hput, Slot.put]
      simp only [hnew, Bool.false_eq_true, if_false]
      cases hstore : f.store d r with
      | error e => rfl
      | ok r' =>
        have hseen'' : ∀ k ∈ f.name :: seen, some k ∉ rest.map Prod.fst := by
          intro k hk
          rcases List.mem_cons.mp hk with rfl | hk
          · exact hrest
          · exact hseen' k hk
        exact ih legible.tail hseen'' r'

/-- The known keys that have been met are those of the members. -/
theorem mem_of_recordMembers {fields : List (Slot ρ)} {members : Members} {seen seen' : List String}
    {r r' : ρ} (h : recordMembers fields members seen r = .ok (seen', r')) {f : Slot ρ}
    (hf : f ∈ fields) : f.name ∈ seen' ↔ f.name ∈ seen ∨ (find? f.name members).isSome := by
  induction members generalizing seen r with
  | nil =>
    cases h
    simp [find?]
  | cons m rest ih =>
    obtain ⟨key, d⟩ := m
    cases key with
    | none => cases h
    | some k =>
      rw [recordMembers] at h
      cases hfield : findField fields k with
      | none =>
        have hk : k ≠ f.name := (findField_eq_none hfield f hf).symm
        simp only [hfield] at h
        split at h
        · rw [ih h, find?, if_neg (fun heq => hk (Option.some.inj heq))]
        · cases h
      | some g =>
        simp only [hfield] at h
        split at h
        · cases h
        · split at h
          · cases h
          · rw [ih h, List.mem_cons, find?]
            by_cases hk : f.name = k
            · simp [hk]
            · simp [hk, Ne.symm hk]

/-- A record is read from an object field by field, once it has the fields that are required. -/
theorem record_object_eq {fields : List (Slot ρ)} (independent : Independent fields)
    {members : Members} (legible : Legible members) (blank : ρ) :
    (record fields blank (.object members true)).toOption =
      if ∀ f ∈ fields, f.required = true → (find? f.name members).isSome = true then
        fill (find? · members) fields blank
      else none := by
  have hnone : ∀ k ∈ ([] : List String), some k ∉ members.map Prod.fst := by simp
  rw [← recordMembers_toOption independent legible hnone, record]
  cases hread : recordMembers fields members [] blank with
  | error e => simp [Except.toOption]
  | ok p =>
    obtain ⟨seen, r⟩ := p
    have hmet : ∀ f ∈ fields, f.name ∈ seen ↔ (find? f.name members).isSome = true := by
      intro f hf
      rw [mem_of_recordMembers hread hf]
      simp
    have hrequired : fields.any (fun f => f.required && !seen.contains f.name) = false ↔
        ∀ f ∈ fields, f.required = true → (find? f.name members).isSome = true := by
      rw [List.any_eq_false]
      have hone : ∀ f ∈ fields, ¬ (f.required && !seen.contains f.name) = true ↔
          (f.required = true → (find? f.name members).isSome = true) := by
        intro f hf
        rw [← hmet f hf]
        cases f.required <;> simp
      exact ⟨fun h f hf => (hone f hf).mp (h f hf), fun h f hf => (hone f hf).mpr (h f hf)⟩
    by_cases hall : ∀ f ∈ fields, f.required = true → (find? f.name members).isSome = true
    · simp only [if_pos hall, hrequired.mpr hall]
      rfl
    · have hany := (Bool.not_eq_false _).mp (mt hrequired.mp hall)
      simp only [if_neg hall, hany]
      rfl

/-- A record without required fields is read from an object field by field. -/
theorem record_object {fields : List (Slot ρ)} (layout : Layout fields) {members : Members}
    (legible : Legible members) (blank : ρ) :
    (record fields blank (.object members true)).toOption =
      fill (find? · members) fields blank := by
  rw [record_object_eq layout.toIndependent legible, if_pos]
  intro f hf hrequired
  rw [layout.optional f hf] at hrequired
  cases hrequired

end Reading
end GameLink.Json
