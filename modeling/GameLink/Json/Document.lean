import GameLink.Json.Token
import GameLink.Json.Text
import GameLink.Json.Basic

/-! # JSON documents

A document is the shape of a text: members in the order written, repeated keys
and all, and where the text breaks off the containers that were still open. A
reader walks it in order, so which of two faults it meets first is a property
of the document. A number or text that is well written but has no value (out
of range, or not well-formed UTF-8) is `none`.

The tokens are taken one by one with the open containers on a stack, innermost
first.
-/
namespace GameLink.Json

inductive Document
  | null
  | bool (b : Bool)
  | number (n : Option Number)
  | text (s : Option String)
  /-- `closed` is false when the text breaks off inside. -/
  | array (items : List Document) (closed : Bool)
  | object (members : List (Option String × Document)) (closed : Bool)
  | broken

namespace Document

/-- A container whose next value is being read; what it has so far is newest first. -/
inductive Frame
  | array (items : List Document)
  | object (members : List (Option String × Document)) (key : Option String)

abbrev Members := List (Option String × Document)

/-- What may come next. -/
inductive State
  | value (outer : List Frame)
  /-- Inside `[ ]`; `after` tells whether an item has just been read. -/
  | array (items : List Document) (after : Bool) (outer : List Frame)
  | object (members : Members) (after : Bool) (outer : List Frame)
  | key (members : Members) (outer : List Frame)
  | colon (members : Members) (key : Option String) (outer : List Frame)
  | done (root : Document)

/-- A value is complete. -/
def State.plug (outer : List Frame) (v : Document) : State :=
  match outer with
  | [] => .done v
  | .array items :: outer => .array (v :: items) true outer
  | .object members k :: outer => .object ((k, v) :: members) true outer

/-- The text breaks off: every open container stays as far as it goes. -/
def abandon : List Frame → Document → Document
  | [], v => v
  | .array items :: outer, v => abandon outer (.array (v :: items).reverse false)
  | .object members k :: outer, v => abandon outer (.object ((k, v) :: members).reverse false)

/-- What there is when the text breaks off here. -/
def State.abandoned : State → Document
  | .value outer => abandon outer .broken
  | .array items _ outer => abandon outer (.array items.reverse false)
  | .object members _ outer => abandon outer (.object members.reverse false)
  | .key members outer => abandon outer (.object members.reverse false)
  | .colon members k outer => abandon outer (.object ((k, .broken) :: members).reverse false)
  | .done root => root

/-- A token where a value is due. -/
def valueStep (outer : List Frame) (t : Token) : Option State :=
  match t with
  | .null => some (.plug outer .null)
  | .bool b => some (.plug outer (.bool b))
  | .number n => some (.plug outer (.number n.number?))
  | .text raw => some (.plug outer (.text (Text.decode? raw)))
  | .openArray => some (.array [] false outer)
  | .openObject => some (.object [] false outer)
  | _ => none

/-- The state after a token, or nothing when it cannot stand there. -/
def State.step (s : State) (t : Token) : Option State :=
  match s with
  | .value outer => valueStep outer t
  | .array items after outer =>
    match after, t with
    | _, .closeArray => some (.plug outer (.array items.reverse true))
    | true, .comma => some (.value (.array items :: outer))
    | true, _ => none
    | false, t => valueStep (.array items :: outer) t
  | .object members after outer =>
    match after, t with
    | _, .closeObject => some (.plug outer (.object members.reverse true))
    | true, .comma => some (.key members outer)
    | false, .text raw => some (.colon members (Text.decode? raw) outer)
    | _, _ => none
  | .key members outer =>
    match t with
    | .text raw => some (.colon members (Text.decode? raw) outer)
    | _ => none
  | .colon members k outer =>
    match t with
    | .colon => some (.value (.object members k :: outer))
    | _ => none
  | .done _ => none

/-- The document of a token sequence and whether tokens are left over or missing after it. -/
def build : State → List Token → Document × Bool
  | .done root, rest => (root, rest.isEmpty)
  | s, [] => (s.abandoned, false)
  | s, t :: rest =>
    match s.step t with
    | some next => build next rest
    | none => (s.abandoned, false)

/-- The document in a text; false when the text does not end with it. -/
def ofBytes (bytes : Bytes) : Document × Bool := build (.value []) (Token.scan bytes)

/-! ## Free-form values -/

/-- Containers may nest this deep. -/
def maxDepth : Nat := 127

mutual
/-- The value of a document, at most `depth` containers deep. -/
def value? (depth : Nat) : Document → Option Json
  | .null => some .null
  | .bool b => some (.bool b)
  | .number n => n.map .number
  | .text s => s.map .string
  | .array items closed =>
    match depth with
    | 0 => none
    | depth + 1 =>
      if closed then (values? depth items).map .array else none
  | .object members closed =>
    match depth with
    | 0 => none
    | depth + 1 =>
      if closed then (members? depth members).map (fun ms => .object (Entries.ofList ms)) else none
  | .broken => none

def values? (depth : Nat) : List Document → Option (List Json)
  | [] => some []
  | d :: rest =>
    match d.value? depth, values? depth rest with
    | some v, some vs => some (v :: vs)
    | _, _ => none

def members? (depth : Nat) : List (Option String × Document) → Option (List (String × Json))
  | [] => some []
  | (key, d) :: rest =>
    match key, d.value? depth, members? depth rest with
    | some k, some v, some ms => some ((k, v) :: ms)
    | _, _, _ => none
end

mutual
/-- Whether the text never breaks off inside. A value that is passed over need not be more. -/
def wellFormed : Document → Bool
  | .array items closed => closed && allWellFormed items
  | .object members closed => closed && membersWellFormed members
  | .broken => false
  | _ => true

def allWellFormed : List Document → Bool
  | [] => true
  | d :: rest => d.wellFormed && allWellFormed rest

def membersWellFormed : List (Option String × Document) → Bool
  | [] => true
  | (_, d) :: rest => d.wellFormed && membersWellFormed rest
end

mutual
/-- The document that shows a value. -/
def ofJson : Json → Document
  | .null => .null
  | .bool b => .bool b
  | .number n => .number (some n)
  | .string s => .text (some s)
  | .array items => .array (ofItems items) true
  | .object members => .object (ofMembers members) true

def ofItems : List Json → List Document
  | [] => []
  | v :: rest => ofJson v :: ofItems rest

def ofMembers : List (String × Json) → List (Option String × Document)
  | [] => []
  | (k, v) :: rest => (some k, ofJson v) :: ofMembers rest
end

end Document

/-- The free-form value in a text. -/
def ofBytes? (bytes : Bytes) : Option Json :=
  match Document.ofBytes bytes with
  | (d, true) => d.value? Document.maxDepth
  | (_, false) => none

def ofText? (s : String) : Option Json := ofBytes? (Bytes.ofText s)

end GameLink.Json
