import GameLink.Log
import GameLink.Entries
import GameLink.Text.Quoted

/-! # Capturing log records

A capture keeps records with the place they came from, oldest first, and their
fields by name.
-/
namespace GameLink.Log

/-- A field before it is rendered. -/
inductive FieldValue
  | shown (text : String)
  | quoted (text : String)
  | number (n : Int)
  | flag (b : Bool)

def FieldValue.render : FieldValue → String
  | .shown text => text
  | .quoted text => Text.quoted text
  | .number n => toString n
  | .flag b => toString b

structure Captured where
  level : Level
  target : String
  message : String
  fields : StringMap String
deriving DecidableEq

def Captured.field? (c : Captured) (name : String) : Option String := c.fields.find? name

structure Capture where
  records : List Captured := []

namespace Capture

def emit (c : Capture) (level : Level) (target message : String)
    (fields : List (String × FieldValue)) : Capture :=
  { c with records :=
      c.records ++ [⟨level, target, message, .ofList (fields.map (fun f => (f.1, f.2.render)))⟩] }

def size (c : Capture) : Nat := c.records.length

/-- Whether `needle` occurs in `text`. -/
def occursIn (needle : List Char) : List Char → Bool
  | [] => needle.isEmpty
  | c :: rest => needle.isPrefixOf (c :: rest) || occursIn needle rest

def mentions (needle : String) (r : Captured) : Bool := occursIn needle.toList r.message.toList

def hasMessage (c : Capture) (needle : String) : Bool := c.records.any (mentions needle)

def hasRecord (c : Capture) (level : Level) (needle : String) : Bool :=
  c.records.any (fun r => decide (r.level = level) && mentions needle r)

def count (c : Capture) (level : Level) : Nat := c.records.countP (fun r => decide (r.level = level))

/-- Records whose target starts with `start`. -/
def under (c : Capture) (start : String) : List Captured :=
  c.records.filter (fun r => start.toList.isPrefixOf r.target.toList)

def clear (_ : Capture) : Capture := {}

end Capture

end GameLink.Log
