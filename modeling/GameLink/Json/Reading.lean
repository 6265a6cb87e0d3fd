import GameLink.Json.Document

/-! # Reading documents into types

A reader takes a document to a value of a type or to the first fault in reading
order: `malformed` when the text itself is no JSON there, `mismatch` when it is
JSON of another shape. A record is read from an object, whose unknown members
are passed over and whose known members may not repeat, or from an array of its
fields in order, of which the last ones may be missing.
-/
namespace GameLink.Json

inductive Fault
  | malformed
  | mismatch
deriving DecidableEq

abbrev Reading (α : Type) := Document → Except Fault α

namespace Reading
variable {α ρ : Type}

/-- The fault of a document of another kind than asked for. -/
def unexpected : Document → Fault
  | .number none => .malformed
  | .text none => .malformed
  | .broken => .malformed
  | _ => .mismatch

def text : Reading String
  | .text (some s) => .ok s
  | d => .error (unexpected d)

def flag : Reading Bool
  | .bool b => .ok b
  | d => .error (unexpected d)

/-- An integer from `lo` to `hi`. -/
def integer (lo hi : Int) : Reading Int
  | .number (some (.int n)) => if lo ≤ n ∧ n ≤ hi then .ok n else .error .mismatch
  | d => .error (unexpected d)

def natural (hi : Int) : Reading Nat := fun d => (integer 0 hi d).map Int.toNat

def optional (read : Reading α) : Reading (Option α)
  | .null => .ok none
  | d => (read d).map some

def items (read : Reading α) : List Document → Except Fault (List α)
  | [] => .ok []
  | d :: rest => do
    let v ← read d
    let vs ← items read rest
    return v :: vs

def list (read : Reading α) : Reading (List α)
  | .array ds closed => do
    let vs ← items read ds
    if closed then .ok vs else .error .malformed
  | d => .error (unexpected d)

def entries (read : Reading α) : List (Option String × Document) → StringMap α → Except Fault (StringMap α)
  | [], m => .ok m
  | (key, d) :: rest, m =>
    match key with
    | none => .error .malformed
    | some k => do
      let v ← read d
      entries read rest (m.insert k v)

/-- A map with free keys; the last value of a repeated key stays. -/
def map (read : Reading α) : Reading (StringMap α)
  | .object members closed => do
    let m ← entries read members .empty
    if closed then .ok m else .error .malformed
  | d => .error (unexpected d)

/-! ## Records -/

/-- A field of a record: how its document changes the record. -/
structure Slot (ρ : Type) where
  name : String
  required : Bool
  store : Document → ρ → Except Fault ρ

/-- A field that keeps its default when it is missing. -/
def field (name : String) (read : Reading α) (set : ρ → α → ρ) : Slot ρ where
  name := name
  required := false
  store := fun d r => (read d).map (set r)

def requiredField (name : String) (read : Reading α) (set : ρ → α → ρ) : Slot ρ :=
  { field name read set with required := true }

def findField (fields : List (Slot ρ)) (name : String) : Option (Slot ρ) :=
  fields.find? (fun f => f.name == name)

/-- Reads members in order; `seen` holds the known keys met so far. -/
def recordMembers (fields : List (Slot ρ)) :
    List (Option String × Document) → List String → ρ → Except Fault (List String × ρ)
  | [], seen, r => .ok (seen, r)
  | (key, d) :: rest, seen, r =>
    match key with
    | none => .error .malformed
    | some k =>
      match findField fields k with
      | none => if d.wellFormed then recordMembers fields rest seen r else .error .malformed
      | some f =>
        if seen.contains k then .error .mismatch
        else
          match f.store d r with
          | .error e => .error e
          | .ok r => recordMembers fields rest (k :: seen) r

/-- Reads items against the fields in order. -/
def recordItems (closed : Bool) : List (Slot ρ) → List Document → ρ → Except Fault ρ
  | [], [], r => if closed then .ok r else .error .malformed
  | [], _ :: _, _ => .error .malformed
  | f :: fields, [], r =>
    if !closed then .error .malformed
    else if (f :: fields).any Slot.required then .error .mismatch
    else .ok r
  | f :: fields, d :: rest, r =>
    match f.store d r with
    | .error e => .error e
    | .ok r => recordItems closed fields rest r

/-- A record, starting from its defaults. -/
def record (fields : List (Slot ρ)) (blank : ρ) : Reading ρ
  | .object members closed =>
    match recordMembers fields members [] blank with
    | .error e => .error e
    | .ok (seen, r) =>
      if !closed then .error .malformed
      else if fields.any (fun f => f.required && !seen.contains f.name) then .error .mismatch
      else .ok r
  | .array ds closed => recordItems closed fields ds blank
  | d => .error (unexpected d)

/-! ## Whole texts -/

/-- A text that holds one document and nothing after it. -/
def ofBytes (read : Reading α) (bytes : Bytes) : Except Fault α :=
  match Document.ofBytes bytes with
  | (d, ended) =>
    match read d with
    | .error e => .error e
    | .ok v => if ended then .ok v else .error .malformed

/-- A value that is already in memory. -/
def ofJson? (read : Reading α) (v : Json) : Option α := (read (.ofJson v)).toOption

end Reading

end GameLink.Json
