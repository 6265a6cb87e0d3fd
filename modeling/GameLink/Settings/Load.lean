import GameLink.Settings.Document
import GameLink.Settings.Overrides
import GameLink.Json.Merge
import GameLink.Product

/-! # Loading settings

Defaults, then a settings file laid over them, then the environment, then a
last check. What loading returns has passed `validate`.
-/
namespace GameLink.Settings

/-- What is found at the path of the settings file. -/
inductive File
  | absent
  | unreadable
  | content (bytes : Bytes)

/-- The variables of a process. A value that is not UTF-8 counts as unset. -/
def Environment.ofVariables (vars : String → Option Bytes) : Environment := fun name =>
  (vars name).bind Bytes.text?

inductive Error
  /-- The file is there but its text cannot be read. -/
  | unreadable
  | document (fault : Json.Fault)
  | invalid (reason : Invalid)
deriving DecidableEq

/-- The settings document of the user, if there is a file. -/
def readFile : File → Except Error (Option Json)
  | .absent => .ok none
  | .unreadable => .error .unreadable
  | .content bytes =>
    match Bytes.text? bytes with
    | none => .error .unreadable
    | some _ =>
      match Json.ofBytes? bytes with
      | none => .error (.document .malformed)
      | some v => .ok (some v)

/-- The defaults as a document with members in key order. -/
def defaults : Json := (toJson {}).sorted

def fromDocument (user : Option Json) : Except Error Settings :=
  let merged :=
    match user with
    | some v => Json.merge defaults v
    | none => defaults
  match ofJson? merged with
  | some s => .ok s
  | none => .error (.document .mismatch)

/-- The record that tells whether there is a file. The path, its only field, is left out. -/
def fileNote : File → Log.Entry
  | .absent => Log.debug "settings file not found, using defaults" []
  | _ => Log.debug "loading settings from file" []

/-- Outcome of loading and the records written on the way. -/
structure Loaded where
  outcome : Except Error Settings
  log : List Log.Entry

/-- Overrides and the last check. -/
def finish (env : Environment) (s : Settings) : Except Error Settings × List Log.Entry :=
  let r := s.override env
  match r.settings.invalid? with
  | some i => (.error (.invalid i), r.warnings)
  | none => (.ok r.settings, r.warnings)

def load (file : File) (env : Environment) : Loaded :=
  match (readFile file).bind fromDocument with
  | .error e => ⟨.error e, [fileNote file]⟩
  | .ok s => ⟨(finish env s).1, fileNote file :: (finish env s).2⟩

/-- A name below a directory. -/
def join (dir name : String) : String :=
  if dir.isEmpty then name else if dir.endsWith "/" then dir ++ name else dir ++ "/" ++ name

/-- The settings file of a user, in a hidden directory under the home directory. -/
def path (home : Option String) : String :=
  join (join (home.getD "/tmp") ("." ++ Product.name)) "settings.json"

end GameLink.Settings
