import GameLink.Proofs.Text.Decimal
import GameLink.Settings.Overrides

/-! # Environment variables and what they may hold

Eight variables are known. Each holds a text, a word for a flag, or a number in
a range of its own, and decides one field: an acceptable value takes the place
of what the field was, and any other is as good as none.
-/
namespace GameLink.Settings

/-! ## Acceptable values -/

/-- What a variable may hold. -/
inductive Kind
  | text
  | flag
  | number (label : String) (lo hi : Nat)

def words : Bool → List String
  | true => ["true", "1", "yes", "on"]
  | false => ["false", "0", "no", "off"]

/-- A word for `b`, in any mix of upper and lower case. -/
def Says (word : String) (b : Bool) : Prop :=
  String.ofList (word.toList.map Char.toLower) ∈ words b

/-- `text` writes `n`, and `n` lies in the range. -/
structure Within (lo hi : Nat) (text : String) (n : Nat) : Prop where
  written : Decimal.Writes text.toList n
  low : lo ≤ n
  high : n ≤ hi

def Kind.Accepts : Kind → String → Prop
  | .text, value => value ≠ ""
  | .flag, value => ∃ b, Says value b
  | .number _ lo hi, value => ∃ n, Within lo hi value n

def Kind.label : Kind → String
  | .text => "text"
  | .flag => "boolean"
  | .number label _ _ => label

structure Variable where
  name : String
  kind : Kind

/-- In the order they are looked up. -/
def Variable.known : List Variable :=
  [⟨"ARENA_HOST", .text⟩, ⟨"ARENA_PORT", .number "u16" 1 65535⟩, ⟨"ARENA_USE_SSL", .flag⟩,
    ⟨"ARENA_LANG", .text⟩, ⟨"ARENA_REQUEST_TIMEOUT_MS", .number "u64" 1 3600000⟩,
    ⟨"ARENA_HEARTBEAT_INTERVAL_MS", .number "u64" 100 600000⟩,
    ⟨"ARENA_SEND_TIMEOUT_MS", .number "u64" 1 600000⟩,
    ⟨"ARENA_CONNECT_TIMEOUT_MS", .number "u64" 1 600000⟩]

def Variable.complaint (v : Variable) (value : String) : Log.Entry :=
  Log.warn ("invalid " ++ v.kind.label ++ " env var, ignoring") [("key", v.name), ("value", value)]

def Environment.without (env : Environment) (name : String) : Environment := fun n =>
  if n = name then none else env n

/-- What is logged about one variable. -/
inductive Warned (env : Environment) (v : Variable) : List Log.Entry → Prop
  | quiet : (∀ value, env v.name = some value → v.kind.Accepts value ∨ v.kind = .text) →
    Warned env v []
  | once {value : String} : env v.name = some value → ¬ v.kind.Accepts value → v.kind ≠ .text →
    Warned env v [v.complaint value]

/-! ## Single fields -/

section
variable {α : Type}

/-- A field is what an acceptable value of its variable says, and else what it was. -/
inductive Decides (env : Environment) (name : String) (Accepts : String → α → Prop) (old : α) :
    α → Prop
  | given {value : String} {new : α} : env name = some value → Accepts value new →
    Decides env name Accepts old new
  | kept : (∀ value new, env name = some value → ¬ Accepts value new) →
    Decides env name Accepts old old

theorem Decides.keep {env : Environment} {name : String} {Accepts : String → α → Prop}
    {old new : α} (h : Decides env name Accepts old new) {P : α → Prop} (hold : P old)
    (haccepts : ∀ value v, Accepts value v → P v) : P new := by
  cases h with
  | given hvalue hnew => exact haccepts _ _ hnew
  | kept hnone => exact hold

/-- What a variable gives a field that was `old`. -/
def supplied (env : Environment) (name : String) (parse : String → Option α) (old : α) : α :=
  ((env name).bind parse).getD old

theorem decides_supplied {parse : String → Option α} {Accepts : String → α → Prop}
    (h : ∀ value v, parse value = some v ↔ Accepts value v) (env : Environment) (name : String)
    (old : α) : Decides env name Accepts old (supplied env name parse old) := by
  unfold supplied
  cases hname : env name with
  | none => exact .kept fun value v hvalue => by rw [hname] at hvalue; cases hvalue
  | some value =>
    rw [Option.bind_some]
    cases hparse : parse value with
    | none =>
      refine .kept fun value' v hvalue hv => ?_
      cases hname.symm.trans hvalue
      cases hparse.symm.trans ((h _ _).mpr hv)
    | some v => exact .given hname ((h _ _).mp hparse)

theorem supplied_supplied (env : Environment) (name : String) (parse : String → Option α)
    (old : α) : supplied env name parse (supplied env name parse old) =
      supplied env name parse old := by
  unfold supplied
  cases (env name).bind parse <;> rfl

end

/-! ## Reading values -/

def text? (value : String) : Option String := if value.isEmpty then none else some value

theorem text?_eq_some_iff (value v : String) : text? value = some v ↔ value ≠ "" ∧ v = value := by
  by_cases h : value = ""
  · subst h
    exact ⟨fun heq => (nomatch heq), fun heq => absurd rfl heq.1⟩
  · have hempty : value.isEmpty = false := by simpa using h
    rw [text?, hempty]
    exact ⟨fun heq => ⟨h, (Option.some.inj heq).symm⟩, fun heq => heq.2 ▸ rfl⟩

theorem flag?_eq_some_iff (word : String) (b : Bool) : flag? word = some b ↔ Says word b := by
  unfold flag? Says words
  dsimp only
  split
  · rename_i h
    cases b <;> rcases h with h | h | h | h <;> rw [h] <;> decide
  · rename_i htrue
    split
    · rename_i h
      cases b <;> rcases h with h | h | h | h <;> rw [h] <;> decide
    · rename_i hfalse
      cases b <;> simp_all

theorem uint16InRange?_eq_some_iff (lo hi : UInt16) (text : String) (v : UInt16) :
    uint16InRange? text lo hi = some v ↔ Within lo.toNat hi.toNat text v.toNat := by
  rw [uint16InRange?, Option.map_eq_some_iff]
  constructor
  · rintro ⟨n, hn, rfl⟩
    obtain ⟨hwrites, hlow, hhigh⟩ := Decimal.inRange?_eq_some_iff.mp hn
    have hfits : n < UInt16.size := Nat.lt_of_le_of_lt hhigh hi.toNat_lt
    rw [UInt16.toNat_ofNat_of_lt' hfits]
    exact ⟨hwrites, hlow, hhigh⟩
  · rintro ⟨hwrites, hlow, hhigh⟩
    exact ⟨_, Decimal.inRange?_eq_some_iff.mpr ⟨hwrites, hlow, hhigh⟩, UInt16.ofNat_toNat⟩

theorem uint64InRange?_eq_some_iff (lo hi : UInt64) (text : String) (v : UInt64) :
    uint64InRange? text lo hi = some v ↔ Within lo.toNat hi.toNat text v.toNat := by
  rw [uint64InRange?, Option.map_eq_some_iff]
  constructor
  · rintro ⟨n, hn, rfl⟩
    obtain ⟨hwrites, hlow, hhigh⟩ := Decimal.inRange?_eq_some_iff.mp hn
    have hfits : n < UInt64.size := Nat.lt_of_le_of_lt hhigh hi.toNat_lt
    rw [UInt64.toNat_ofNat_of_lt' hfits]
    exact ⟨hwrites, hlow, hhigh⟩
  · rintro ⟨hwrites, hlow, hhigh⟩
    exact ⟨_, Decimal.inRange?_eq_some_iff.mpr ⟨hwrites, hlow, hhigh⟩, UInt64.ofNat_toNat⟩

end GameLink.Settings
