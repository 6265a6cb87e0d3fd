import GameLink.Settings.Basic
import GameLink.Text.Decimal
import GameLink.Log

/-! # Environment overrides

Eight fields can be set from the environment. A value that is not acceptable is
ignored with one warning and the field keeps what it had; an empty host or
language is ignored without one.
-/
namespace GameLink.Settings

/-- A word for a flag, in any mix of upper and lower case. Lowering ASCII is enough: no other
character has a letter of these words as its lower case. -/
def flag? (word : String) : Option Bool :=
  let w := String.ofList (word.toList.map Char.toLower)
  if w = "true" ∨ w = "1" ∨ w = "yes" ∨ w = "on" then some true
  else if w = "false" ∨ w = "0" ∨ w = "no" ∨ w = "off" then some false
  else none

/-- The number in `text`, if it has 16 bits and lies between `lo` and `hi`. -/
def uint16InRange? (text : String) (lo hi : UInt16) : Option UInt16 :=
  (Decimal.inRange? lo.toNat hi.toNat text).map UInt16.ofNat

/-- The number in `text`, if it has 64 bits and lies between `lo` and `hi`. -/
def uint64InRange? (text : String) (lo hi : UInt64) : Option UInt64 :=
  (Decimal.inRange? lo.toNat hi.toNat text).map UInt64.ofNat

/-- The variables that are set. -/
abbrev Environment := String → Option String

/-- Settings together with the warnings given on the way. -/
structure Overridden where
  settings : Settings
  warnings : List Log.Entry

/-- What one variable does. -/
structure Override where
  name : String
  kind : String
  /-- The settings with an acceptable value stored. -/
  store : String → Settings → Option Settings
  /-- Values that are ignored without a warning. -/
  silent : String → Bool

def Override.warning (o : Override) (value : String) : Log.Entry :=
  Log.warn ("invalid " ++ o.kind ++ " env var, ignoring") [("key", o.name), ("value", value)]

def Override.apply (env : Environment) (r : Overridden) (o : Override) : Overridden :=
  match env o.name with
  | none => r
  | some value =>
    match o.store value r.settings with
    | some s => { r with settings := s }
    | none => if o.silent value then r else { r with warnings := r.warnings ++ [o.warning value] }

def textOverride (name : String) (set : Settings → String → Settings) : Override where
  name := name
  kind := "text"
  store := fun value s => if value.isEmpty then none else some (set s value)
  silent := String.isEmpty

def flagOverride (name : String) (set : Settings → Bool → Settings) : Override where
  name := name
  kind := "boolean"
  store := fun value s => (flag? value).map (set s)
  silent := fun _ => false

def portOverride (name : String) (lo hi : UInt16) (set : Settings → UInt16 → Settings) : Override where
  name := name
  kind := "u16"
  store := fun value s => (uint16InRange? value lo hi).map (set s)
  silent := fun _ => false

def durationOverride (name : String) (lo hi : UInt64) (set : Realtime → UInt64 → Realtime) : Override where
  name := name
  kind := "u64"
  store := fun value s =>
    (uint64InRange? value lo hi).map (fun n => { s with realtime := set s.realtime n })
  silent := fun _ => false

/-- In the order they are applied. -/
def overrides : List Override :=
  [textOverride "ARENA_HOST" (fun s v => { s with server := { s.server with host := v } }),
    portOverride "ARENA_PORT" 1 65535 (fun s v => { s with server := { s.server with port := v } }),
    flagOverride "ARENA_USE_SSL" (fun s v => { s with server := { s.server with useSsl := v } }),
    textOverride "ARENA_LANG" (fun s v => { s with server := { s.server with lang := v } }),
    durationOverride "ARENA_REQUEST_TIMEOUT_MS" 1 3600000 (fun r v => { r with requestTimeout := v }),
    durationOverride "ARENA_HEARTBEAT_INTERVAL_MS" 100 600000
      (fun r v => { r with heartbeatInterval := v }),
    durationOverride "ARENA_SEND_TIMEOUT_MS" 1 600000 (fun r v => { r with sendTimeout := v }),
    durationOverride "ARENA_CONNECT_TIMEOUT_MS" 1 600000 (fun r v => { r with connectTimeout := v })]

def override (env : Environment) (s : Settings) : Overridden :=
  overrides.foldl (Override.apply env) ⟨s, []⟩

end GameLink.Settings
