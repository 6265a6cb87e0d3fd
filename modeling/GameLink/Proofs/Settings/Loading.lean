import GameLink.Proofs.Settings.Overriding
import GameLink.Settings.Load

/-! # Settings in layers

The defaults lie below the file, and the file below the environment. Loading gives
what the three layers make together if it can be used, and fails otherwise. What
the environment does has been told field by field; here the file is put under it.
-/
namespace GameLink.Settings

/-! ## The two lower layers -/

/-- What the file makes of the defaults. -/
inductive Based : File → Settings → Prop
  | absent : Based .absent {}
  | content {bytes : Bytes} {text : String} {v : Json} {s : Settings} :
    Bytes.text? bytes = some text → Json.ofBytes? bytes = some v →
    ofJson? (Json.merge defaults v) = some s → Based (.content bytes) s

theorem ofJson?_defaults : ofJson? defaults = some {} := by decide +kernel

theorem fromDocument_eq_ok_iff {user : Option Json} {s : Settings} :
    fromDocument user = .ok s ↔
      ofJson? (user.elim defaults (Json.merge defaults)) = some s := by
  unfold fromDocument
  cases user with
  | none => cases h : ofJson? defaults <;> simp [h]
  | some v => cases h : ofJson? (Json.merge defaults v) <;> simp [h]

theorem readFile_eq_ok_iff {file : File} {user : Option Json} :
    readFile file = .ok user ↔ file = .absent ∧ user = none ∨
      ∃ bytes text v, file = .content bytes ∧ Bytes.text? bytes = some text ∧
        Json.ofBytes? bytes = some v ∧ user = some v := by
  cases file with
  | absent => simp [readFile, eq_comm]
  | unreadable => simp [readFile]
  | content bytes =>
    unfold readFile
    cases htext : Bytes.text? bytes with
    | none => simp [htext]
    | some text => cases hv : Json.ofBytes? bytes <;> simp [htext, hv, eq_comm]

theorem based_iff {file : File} {s : Settings} :
    (readFile file).bind fromDocument = .ok s ↔ Based file s := by
  have hbind : (readFile file).bind fromDocument = .ok s ↔
      ∃ user, readFile file = .ok user ∧ fromDocument user = .ok s := by
    cases readFile file <;> simp [Except.bind]
  rw [hbind]
  constructor
  · rintro ⟨user, huser, hs⟩
    rw [fromDocument_eq_ok_iff] at hs
    rcases readFile_eq_ok_iff.mp huser with ⟨rfl, rfl⟩ | ⟨bytes, text, v, rfl, htext, hv, rfl⟩
    · cases ofJson?_defaults.symm.trans hs
      exact .absent
    · exact .content htext hv hs
  · rintro (_ | ⟨htext, hv, hs⟩)
    · exact ⟨none, readFile_eq_ok_iff.mpr (.inl ⟨rfl, rfl⟩),
        fromDocument_eq_ok_iff.mpr ofJson?_defaults⟩
    · exact ⟨_, readFile_eq_ok_iff.mpr (.inr ⟨_, _, _, rfl, htext, hv, rfl⟩),
        fromDocument_eq_ok_iff.mpr hs⟩

/-! ## Loading -/

theorem load_of_based {file : File} {s : Settings} (h : Based file s) (env : Environment) :
    load file env = ⟨(finish env s).1, fileNote file :: (finish env s).2⟩ := by
  rw [load, based_iff.mpr h]

/-- Either the file gives settings, or loading fails in one way under every environment. -/
theorem based_or_fails (file : File) : (∃ s, Based file s) ∨
    (∀ s, ¬ Based file s) ∧ ∃ e, ∀ env, load file env = ⟨.error e, [fileNote file]⟩ := by
  cases hbase : (readFile file).bind fromDocument with
  | ok s => exact .inl ⟨s, based_iff.mp hbase⟩
  | error e =>
    refine .inr ⟨fun s hs => ?_, e, fun env => by rw [load, hbase]⟩
    cases hbase.symm.trans (based_iff.mpr hs)

theorem finish_eq (env : Environment) (s : Settings) : finish env s =
    (match (s.override env).settings.validate with
      | .ok _ => .ok (s.override env).settings
      | .error i => .error (.invalid i), (s.override env).warnings) := by
  unfold finish validate
  dsimp only
  cases (s.override env).settings.invalid? <;> rfl

/-- What a process makes of its settings file and its environment. -/
structure Layered (file : File) (env : Environment) : Prop where
  /-- What is loaded can be used, and is the environment over the file over the defaults. -/
  loaded : ∀ r, (load file env).outcome = .ok r →
    r.validate = .ok () ∧ ∃ s, Based file s ∧ Overlaid env s r
  /-- Where the file gives settings, only the last check can make loading fail. -/
  checked : ∀ s, Based file s → ∃ r, Overlaid env s r ∧
    (r.validate = .ok () → (load file env).outcome = .ok r) ∧
    ∀ i, r.validate = .error i → (load file env).outcome = .error (.invalid i)
  /-- A value that is not acceptable changes nothing, and nothing fails because of it. -/
  ignored : ∀ v ∈ Variable.known, ∀ value, env v.name = some value → ¬ v.kind.Accepts value →
    (load file (env.without v.name)).outcome = (load file env).outcome ∧
      ∀ s : Settings, (s.override (env.without v.name)).settings = (s.override env).settings
  /-- It gives one warning, or none if it should be a text, and there are no other warnings. -/
  warned : ∀ s : Settings, ∃ pieces, (s.override env).warnings = pieces.flatten ∧
    List.Forall₂ (Warned env) Variable.known pieces
  /-- The environment is looked at where the file gives settings. -/
  logged : (∃ s, Based file s ∧ (load file env).log = fileNote file :: (s.override env).warnings) ∨
    (∀ s, ¬ Based file s) ∧ ∃ e, load file env = ⟨.error e, [fileNote file]⟩
  /-- Settings that can be used stay so under any environment. -/
  usable : ∀ s : Settings, s.validate = .ok () → (s.override env).settings.validate = .ok ()
  again : ∀ s : Settings,
    ((s.override env).settings.override env).settings = (s.override env).settings

theorem load_layered (file : File) (vars : String → Option Bytes) :
    Layered file (Environment.ofVariables vars) := by
  generalize Environment.ofVariables vars = env
  exact {
    loaded := by
      intro r hr
      rcases based_or_fails file with ⟨s, hs⟩ | ⟨-, e, he⟩
      · rw [load_of_based hs, finish_eq] at hr
        cases hvalid : (s.override env).settings.validate with
        | error i =>
          rw [hvalid] at hr
          cases hr
        | ok u =>
          rw [hvalid] at hr
          cases hr
          exact ⟨hvalid, s, hs, override_overlaid env s⟩
      · rw [he env] at hr
        cases hr
    checked := by
      intro s hs
      rw [load_of_based hs, finish_eq]
      refine ⟨(s.override env).settings, override_overlaid env s, fun hvalid => ?_,
        fun i hinvalid => ?_⟩
      · rw [hvalid]
      · rw [hinvalid]
    ignored := by
      intro v hv value hvalue hno
      refine ⟨?_, override_without hv hvalue hno⟩
      rcases based_or_fails file with ⟨s, hs⟩ | ⟨-, e, he⟩
      · rw [load_of_based hs, load_of_based hs, finish_eq, finish_eq,
          override_without hv hvalue hno]
      · rw [he, he]
    warned := override_warned env
    logged := by
      rcases based_or_fails file with ⟨s, hs⟩ | ⟨hnone, e, he⟩
      · refine .inl ⟨s, hs, ?_⟩
        rw [load_of_based hs, finish_eq]
      · exact .inr ⟨hnone, e, he env⟩
    usable := by
      intro s hs
      rw [validate_eq_ok_iff] at hs ⊢
      exact (override_overlaid env s).usable hs
    again := override_override env }

end GameLink.Settings
