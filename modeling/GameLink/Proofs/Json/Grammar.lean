import GameLink.Proofs.Json.Spelling
import GameLink.Proofs.Json.Written

/-! # Texts of documents

Which sequences of tokens are a document, as a grammar that knows nothing of the
stack on which one is built, and so which bytes are the text of a document. Reading
a text finds the document it is a text of, and a text that is read to its end is a
text of what is found (`ofBytes_eq_iff`). What stands on the stack is what a text
still has to close.
-/
namespace GameLink.Json
namespace Document
open Token

mutual
/-- The tokens of a document that does not break off. A number or text that is well written
has its place even where it has no value. -/
inductive Forms : Document → List Token → Prop
  | null : Forms .null [.null]
  | bool (b : Bool) : Forms (.bool b) [.bool b]
  | number (n : Numeral) : Forms (.number n.number?) [.number n]
  | text (raw : Bytes) : Forms (.text (Text.decode? raw)) [.text raw]
  | emptyArray : Forms (.array [] true) [.openArray, .closeArray]
  | array {ds : List Document} {ts : List Token} (items : FormItems ds ts) :
      Forms (.array ds true) (.openArray :: (ts ++ [.closeArray]))
  | emptyObject : Forms (.object [] true) [.openObject, .closeObject]
  | object {ms : Members} {ts : List Token} (members : FormMembers ms ts) :
      Forms (.object ms true) (.openObject :: (ts ++ [.closeObject]))

/-- One item or more, with commas between them. -/
inductive FormItems : List Document → List Token → Prop
  | last {d : Document} {ts : List Token} (item : Forms d ts) : FormItems [d] ts
  | more {d : Document} {ds : List Document} {ts ts' : List Token} (item : Forms d ts)
      (items : FormItems ds ts') : FormItems (d :: ds) (ts ++ .comma :: ts')

/-- One member or more, with commas between them. -/
inductive FormMembers : Members → List Token → Prop
  | last {raw : Bytes} {d : Document} {ts : List Token} (value : Forms d ts) :
      FormMembers [(Text.decode? raw, d)] (.text raw :: .colon :: ts)
  | more {raw : Bytes} {d : Document} {ms : Members} {ts ts' : List Token} (value : Forms d ts)
      (members : FormMembers ms ts') :
      FormMembers ((Text.decode? raw, d) :: ms) (.text raw :: .colon :: (ts ++ .comma :: ts'))
end

/-- The bytes are a text of the document, with blanks anywhere between its tokens. -/
def IsText (d : Document) (bytes : Bytes) : Prop := ∃ ts, Spaced bytes ts ∧ Forms d ts

/-! ## A document is built from its tokens -/

mutual
theorem build_forms {s : State} {outer : List Frame} (hs : Awaits s outer) (rest : List Token) :
    ∀ {d : Document} {ts : List Token}, Forms d ts →
      build s (ts ++ rest) = build (.plug outer d) rest
  | _, _, .null => build_cons (hs .null (by simp)) rest
  | _, _, .bool b => build_cons (hs (.bool b) (by simp)) rest
  | _, _, .number n => build_cons (hs (.number n) (by simp)) rest
  | _, _, .text raw => build_cons (hs (.text raw) (by simp)) rest
  | _, _, .emptyArray => by
    refine (build_cons (hs .openArray (by simp)) _).trans ?_
    exact build_cons rfl rest
  | _, _, .array items => by
    rw [List.cons_append, List.append_assoc, build_cons (hs .openArray (by simp))]
    exact build_formItems (awaits_first [] outer) rest items
  | _, _, .emptyObject => by
    refine (build_cons (hs .openObject (by simp)) _).trans ?_
    exact build_cons rfl rest
  | _, _, .object members => by
    rw [List.cons_append, List.append_assoc, build_cons (hs .openObject (by simp))]
    exact build_formMembers (awaitsKey_first [] outer) rest members

theorem build_formItems {s : State} {before : List Document} {outer : List Frame}
    (hs : Awaits s (.array before :: outer)) (rest : List Token) :
    ∀ {ds : List Document} {ts : List Token}, FormItems ds ts →
      build s (ts ++ .closeArray :: rest) =
        build (.plug outer (.array (before.reverse ++ ds) true)) rest
  | _, _, .last item => by
    rw [build_forms hs _ item]
    refine (build_cons rfl rest).trans ?_
    rw [List.reverse_cons]
  | _, _, .more item items => by
    rw [List.append_assoc, List.cons_append, build_forms hs _ item]
    refine (build_cons rfl _).trans ?_
    rw [build_formItems (awaits_value _) rest items]
    simp

theorem build_formMembers {s : State} {before : Members} {outer : List Frame}
    (hs : AwaitsKey s before outer) (rest : List Token) :
    ∀ {ms : Members} {ts : List Token}, FormMembers ms ts →
      build s (ts ++ .closeObject :: rest) =
        build (.plug outer (.object (before.reverse ++ ms) true)) rest
  | _, _, @FormMembers.last raw _ _ value => by
    rw [List.cons_append, List.cons_append, build_cons (hs raw), build_cons rfl,
      build_forms (awaits_value _) _ value]
    refine (build_cons rfl rest).trans ?_
    rw [List.reverse_cons]
  | _, _, @FormMembers.more raw _ _ _ _ value members => by
    rw [List.cons_append, List.cons_append, List.append_assoc, List.cons_append,
      build_cons (hs raw), build_cons rfl, build_forms (awaits_value _) _ value]
    refine (build_cons rfl _).trans ?_
    rw [build_formMembers (awaitsKey_next _ _) rest members]
    simp
end

/-! ## What is built has its tokens -/

/-- The values of a container that are still to come; after another value a comma comes first. -/
inductive Remaining {α : Type} (form : List α → List Token → Prop) :
    Bool → List α → List Token → Prop
  | none {after : Bool} : Remaining form after [] []
  | first {vs : List α} {ts : List Token} (h : form vs ts) : Remaining form false vs ts
  | next {vs : List α} {ts : List Token} (h : form vs ts) : Remaining form true vs (.comma :: ts)

/-- The tokens finish what stands on the stack, container by container, and the whole is
`root`. -/
inductive Closes (root : Document) : State → List Token → Prop
  | done : Closes root (.done root) []
  | value {outer : List Frame} {d : Document} {ts rest : List Token} (value : Forms d ts)
      (outside : Closes root (.plug outer d) rest) : Closes root (.value outer) (ts ++ rest)
  | array {before ds : List Document} {after : Bool} {outer : List Frame} {ts rest : List Token}
      (items : Remaining FormItems after ds ts)
      (outside : Closes root (.plug outer (.array (before.reverse ++ ds) true)) rest) :
      Closes root (.array before after outer) (ts ++ .closeArray :: rest)
  | object {before ms : Members} {after : Bool} {outer : List Frame} {ts rest : List Token}
      (members : Remaining FormMembers after ms ts)
      (outside : Closes root (.plug outer (.object (before.reverse ++ ms) true)) rest) :
      Closes root (.object before after outer) (ts ++ .closeObject :: rest)
  | key {before ms : Members} {outer : List Frame} {ts rest : List Token}
      (members : FormMembers ms ts)
      (outside : Closes root (.plug outer (.object (before.reverse ++ ms) true)) rest) :
      Closes root (.key before outer) (ts ++ .closeObject :: rest)
  | colon {before ms : Members} {key : Option String} {d : Document} {outer : List Frame}
      {ts ts' rest : List Token} (value : Forms d ts) (members : Remaining FormMembers true ms ts')
      (outside : Closes root
        (.plug outer (.object (before.reverse ++ (key, d) :: ms) true)) rest) :
      Closes root (.colon before key outer) (.colon :: (ts ++ (ts' ++ .closeObject :: rest)))

section
variable {root : Document} {outer : List Frame} {ts : List Token}

/-- A token where a value is due is the first of one. -/
theorem closes_value {t : Token} {next : State} (h : valueStep outer t = some next)
    (closes : Closes root next ts) : Closes root (.value outer) (t :: ts) := by
  cases t with
  | null => cases h; exact .value .null closes
  | bool b => cases h; exact .value (.bool b) closes
  | number n => cases h; exact .value (.number n) closes
  | text raw => cases h; exact .value (.text raw) closes
  | openArray =>
    cases h
    cases closes with
    | array items outside =>
      cases items with
      | none => exact .value .emptyArray outside
      | first items => simpa using Closes.value (.array items) outside
  | openObject =>
    cases h
    cases closes with
    | object members outside =>
      cases members with
      | none => exact .value .emptyObject outside
      | first members => simpa using Closes.value (.object members) outside
  | _ => cases h

/-- Where a value is due inside an array, what is still to come of the array starts with it. -/
theorem closes_items {before : List Document} (h : Closes root (.value (.array before :: outer)) ts) :
    ∃ ds ts' rest, FormItems ds ts' ∧ ts = ts' ++ .closeArray :: rest ∧
      Closes root (.plug outer (.array (before.reverse ++ ds) true)) rest := by
  cases h with
  | @value _ d ts rest value outside =>
    cases outside with
    | @array _ ds _ _ _ rest items outside =>
      have outside' : Closes root (.plug outer (.array (before.reverse ++ d :: ds) true)) rest := by
        simpa using outside
      cases items with
      | none => exact ⟨[d], _, rest, .last value, rfl, outside'⟩
      | next items => exact ⟨d :: ds, _, rest, .more value items, by simp, outside'⟩

theorem closes_members {before : Members} {key : Option String}
    (h : Closes root (.value (.object before key :: outer)) ts) :
    Closes root (.colon before key outer) (.colon :: ts) := by
  cases h with
  | value value outside =>
    cases outside with
    | object members outside => exact .colon value members (by simpa using outside)

theorem closes_key {before : Members} {raw : Bytes}
    (h : Closes root (.colon before (Text.decode? raw) outer) ts) :
    ∃ ms ts' rest, FormMembers ms ts' ∧ .text raw :: ts = ts' ++ .closeObject :: rest ∧
      Closes root (.plug outer (.object (before.reverse ++ ms) true)) rest := by
  cases h with
  | colon value members outside =>
    cases members with
    | none => exact ⟨_, _, _, .last value, by simp, outside⟩
    | next members => exact ⟨_, _, _, .more value members, by simp, outside⟩

end

/-- What closes the next state closes this one after the token between them. -/
theorem closes_step {root : Document} {s next : State} {t : Token} {ts : List Token}
    (h : s.step t = some next) (closes : Closes root next ts) : Closes root s (t :: ts) := by
  cases s with
  | value outer => exact closes_value h closes
  | array before after outer =>
    by_cases ht : t = .closeArray
    · subst ht
      cases h
      exact .array .none (by simpa using closes)
    · cases after with
      | false =>
        rw [awaits_first before outer t ht] at h
        obtain ⟨ds, ts', rest, items, heq, outside⟩ := closes_items (closes_value h closes)
        exact heq ▸ .array (.first items) outside
      | true =>
        cases t with
        | comma =>
          cases h
          obtain ⟨ds, ts', rest, items, rfl, outside⟩ := closes_items closes
          exact .array (.next items) outside
        | closeArray => exact absurd rfl ht
        | _ => cases h
  | object before after outer =>
    cases after with
    | false =>
      cases t with
      | closeObject =>
        cases h
        exact .object .none (by simpa using closes)
      | text raw =>
        cases h
        obtain ⟨ms, ts', rest, members, heq, outside⟩ := closes_key closes
        exact heq ▸ .object (.first members) outside
      | _ => cases h
    | true =>
      cases t with
      | closeObject =>
        cases h
        exact .object .none (by simpa using closes)
      | comma =>
        cases h
        cases closes with
        | key members outside => exact .object (.next members) outside
      | _ => cases h
  | key before outer =>
    cases t with
    | text raw =>
      cases h
      obtain ⟨ms, ts', rest, members, heq, outside⟩ := closes_key closes
      exact heq ▸ .key members outside
    | _ => cases h
  | colon before key outer =>
    cases t with
    | colon =>
      cases h
      exact closes_members closes
    | _ => cases h
  | done root => cases h

theorem closes_build {root : Document} {s : State} {ts : List Token}
    (h : build s ts = (root, true)) : Closes root s ts := by
  induction ts generalizing s with
  | nil =>
    cases s with
    | done d =>
      cases h
      exact .done
    | _ => cases h
  | cons t ts ih =>
    cases hstep : s.step t with
    | some next => exact closes_step hstep (ih (build_cons hstep ts ▸ h))
    | none => 
      cases s with
      | done d => cases h
      | _ => simp [build, hstep] at h

theorem build_eq_iff {d : Document} {ts : List Token} :
    build (.value []) ts = (d, true) ↔ Forms d ts := by
  constructor
  · intro h
    cases closes_build h with
    | value value outside =>
      cases outside
      rwa [List.append_nil]
  · intro h
    have built := build_forms (awaits_value []) [] h
    rwa [List.append_nil] at built

mutual
theorem forms_sound : ∀ {d : Document} {ts : List Token}, Forms d ts → malformed ∉ ts
  | _, _, .null | _, _, .bool _ | _, _, .number _ | _, _, .text _ | _, _, .emptyArray
  | _, _, .emptyObject => by simp
  | _, _, .array items => by simpa using formItems_sound items
  | _, _, .object members => by simpa using formMembers_sound members

theorem formItems_sound : ∀ {ds : List Document} {ts : List Token}, FormItems ds ts → malformed ∉ ts
  | _, _, .last item => forms_sound item
  | _, _, .more item items => by simpa using ⟨forms_sound item, formItems_sound items⟩

theorem formMembers_sound : ∀ {ms : Members} {ts : List Token}, FormMembers ms ts → malformed ∉ ts
  | _, _, .last value => by simpa using forms_sound value
  | _, _, .more value members => by simpa using ⟨forms_sound value, formMembers_sound members⟩
end

/-- What is read from bytes to their end is the document that they are a text of. -/
theorem ofBytes_eq_iff {d : Document} {bytes : Bytes} :
    ofBytes bytes = (d, true) ↔ IsText d bytes := by
  rw [ofBytes, build_eq_iff]
  constructor
  · intro h
    exact ⟨scan bytes, scan_eq_iff.mp ⟨rfl, forms_sound h⟩, h⟩
  · rintro ⟨ts, spaced, h⟩
    rwa [scan_spaced spaced]

end Document

/-- The bytes are a text of the value: its containers are not nested too deep, its numbers are in
range, its texts are Unicode, and of a repeated key the last value stays. -/
def HasText (v : Json) (bytes : Bytes) : Prop :=
  ∃ d, Document.IsText d bytes ∧ d.value? Document.maxDepth = some v

theorem ofBytes?_eq_some_iff {bytes : Bytes} {v : Json} :
    ofBytes? bytes = some v ↔ v.HasText bytes := by
  simp only [ofBytes?, HasText, ← Document.ofBytes_eq_iff]
  rcases Document.ofBytes bytes with ⟨d, _ | _⟩ <;> simp

end GameLink.Json
