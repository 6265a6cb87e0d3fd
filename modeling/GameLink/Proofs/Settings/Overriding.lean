import Mathlib.Data.List.Forall2
import Mathlib.Data.List.Nodup
import GameLink.Proofs.Settings.Variables

/-! # Settings under an environment

Each override reads one variable and sets one field, so all of them together
leave settings in which every field can be looked at by itself
(`override_settings`). That an environment leaves settings usable, and that laying
it over them once more changes nothing, is then told field by field. What is
logged goes variable by variable, in the order of the overrides.
-/
namespace GameLink.Settings

/-! ## Single overrides -/

/-- The settings after one override. -/
def Override.settings (o : Override) (env : Environment) (s : Settings) : Settings :=
  ((env o.name).bind (o.store · s)).getD s

theorem Override.apply_settings (o : Override) (env : Environment) (r : Overridden) :
    (o.apply env r).settings = o.settings env r.settings := by
  unfold Override.apply Override.settings
  cases env o.name with
  | none => rfl
  | some value =>
    dsimp only
    rw [Option.bind_some]
    cases o.store value r.settings with
    | none =>
      dsimp only
      split <;> rfl
    | some s => rfl

/-- An override that reads its value and sets one field. -/
theorem Override.settings_of_store {α : Type} {o : Override} {parse : String → Option α}
    {set : Settings → α → Settings} {get : Settings → α}
    (hstore : ∀ value s, o.store value s = (parse value).map (set s))
    (hkeep : ∀ s, set s (get s) = s) (env : Environment) (s : Settings) :
    o.settings env s = set s (supplied env o.name parse (get s)) := by
  unfold Override.settings supplied
  cases env o.name with
  | none => exact (hkeep s).symm
  | some value =>
    rw [Option.bind_some, Option.bind_some, hstore]
    cases parse value with
    | none => exact (hkeep s).symm
    | some v => rfl

section
variable (name : String) (env : Environment) (s : Settings)

theorem textOverride_settings {set : Settings → String → Settings} (get : Settings → String)
    (hkeep : ∀ s, set s (get s) = s) : (textOverride name set).settings env s =
      set s (supplied env name text? (get s)) := by
  refine Override.settings_of_store (fun value s => ?_) hkeep env s
  unfold textOverride text?
  dsimp only
  split <;> rfl

theorem flagOverride_settings {set : Settings → Bool → Settings} (get : Settings → Bool)
    (hkeep : ∀ s, set s (get s) = s) : (flagOverride name set).settings env s =
      set s (supplied env name flag? (get s)) :=
  Override.settings_of_store (fun _ _ => rfl) hkeep env s

theorem portOverride_settings {lo hi : UInt16} {set : Settings → UInt16 → Settings}
    (get : Settings → UInt16) (hkeep : ∀ s, set s (get s) = s) :
    (portOverride name lo hi set).settings env s =
      set s (supplied env name (uint16InRange? · lo hi) (get s)) :=
  Override.settings_of_store (fun _ _ => rfl) hkeep env s

theorem durationOverride_settings {lo hi : UInt64} {set : Realtime → UInt64 → Realtime}
    (get : Realtime → UInt64) (hkeep : ∀ r, set r (get r) = r) :
    (durationOverride name lo hi set).settings env s =
      ⟨s.server, set s.realtime (supplied env name (uint64InRange? · lo hi) (get s.realtime))⟩ := by
  have hstore : ∀ value s, (durationOverride name lo hi set).store value s =
      (uint64InRange? value lo hi).map fun n => ⟨s.server, set s.realtime n⟩ := fun _ _ => rfl
  exact @Override.settings_of_store _ _ _ _ (fun s => get s.realtime) hstore
    (fun s => by rw [hkeep]) env s

end

/-- The override does what is said of the variable. -/
structure Override.Reads (o : Override) (v : Variable) : Prop where
  name : o.name = v.name
  accepts : ∀ value s, (o.store value s).isSome ↔ v.kind.Accepts value
  silent : ∀ value, ¬ v.kind.Accepts value → (o.silent value = true ↔ v.kind = .text)
  warning : ∀ value, v.kind ≠ .text → o.warning value = v.complaint value

theorem reads_text (name : String) (set : Settings → String → Settings) :
    (textOverride name set).Reads ⟨name, .text⟩ where
  name := rfl
  accepts value s := by
    by_cases h : value = "" <;> simp [textOverride, Kind.Accepts, h]
  silent value h := by
    have hempty : value = "" := Decidable.not_not.mp h
    simp [textOverride, hempty]
  warning value h := absurd rfl h

theorem reads_flag (name : String) (set : Settings → Bool → Settings) :
    (flagOverride name set).Reads ⟨name, .flag⟩ where
  name := rfl
  accepts value s := by
    rw [flagOverride, Option.isSome_map, Option.isSome_iff_exists]
    exact exists_congr (flag?_eq_some_iff value)
  silent value h := by simp [flagOverride]
  warning value h := rfl

theorem reads_port (name : String) (lo hi : UInt16) (set : Settings → UInt16 → Settings) :
    (portOverride name lo hi set).Reads ⟨name, .number "u16" lo.toNat hi.toNat⟩ where
  name := rfl
  accepts value s := by
    rw [portOverride, Option.isSome_map, uint16InRange?, Option.isSome_map,
      Option.isSome_iff_exists]
    exact exists_congr fun n => Decimal.inRange?_eq_some_iff.trans
      ⟨fun h => ⟨h.1, h.2.1, h.2.2⟩, fun h => ⟨h.written, h.low, h.high⟩⟩
  silent value h := by simp [portOverride]
  warning value h := rfl

theorem reads_duration (name : String) (lo hi : UInt64) (set : Realtime → UInt64 → Realtime) :
    (durationOverride name lo hi set).Reads ⟨name, .number "u64" lo.toNat hi.toNat⟩ where
  name := rfl
  accepts value s := by
    rw [durationOverride, Option.isSome_map, uint64InRange?, Option.isSome_map,
      Option.isSome_iff_exists]
    exact exists_congr fun n => Decimal.inRange?_eq_some_iff.trans
      ⟨fun h => ⟨h.1, h.2.1, h.2.2⟩, fun h => ⟨h.written, h.low, h.high⟩⟩
  silent value h := by simp [durationOverride]
  warning value h := rfl

theorem overrides_read : List.Forall₂ Override.Reads overrides Variable.known :=
  .cons (reads_text _ _) <| .cons (reads_port _ _ _ _) <| .cons (reads_flag _ _) <|
    .cons (reads_text _ _) <| .cons (reads_duration _ _ _ _) <| .cons (reads_duration _ _ _ _) <|
    .cons (reads_duration _ _ _ _) <| .cons (reads_duration _ _ _ _) .nil

theorem exists_reads {os : List Override} {vs : List Variable}
    (h : List.Forall₂ Override.Reads os vs) {o : Override} (ho : o ∈ os) :
    ∃ v ∈ vs, o.Reads v := by
  induction h with
  | nil => cases ho
  | @cons o' v os vs hov _ ih =>
    rcases List.mem_cons.mp ho with rfl | ho
    · exact ⟨v, List.mem_cons_self, hov⟩
    · obtain ⟨w, hw, how⟩ := ih ho
      exact ⟨w, List.mem_cons_of_mem _ hw, how⟩

/-! ## All overrides, field by field -/

theorem foldl_settings (env : Environment) (os : List Override) (r : Overridden) :
    (os.foldl (Override.apply env) r).settings =
      os.foldl (fun s o => o.settings env s) r.settings := by
  induction os generalizing r with
  | nil => rfl
  | cons o os ih => rw [List.foldl_cons, ih, Override.apply_settings, List.foldl_cons]

/-- The settings that the environment leaves, each field by itself. -/
theorem override_settings (env : Environment) (s : Settings) :
    (s.override env).settings =
      { server :=
          { host := supplied env "ARENA_HOST" text? s.server.host
            port := supplied env "ARENA_PORT" (uint16InRange? · 1 65535) s.server.port
            useSsl := supplied env "ARENA_USE_SSL" flag? s.server.useSsl
            lang := supplied env "ARENA_LANG" text? s.server.lang }
        realtime :=
          { requestTimeout := supplied env "ARENA_REQUEST_TIMEOUT_MS"
              (uint64InRange? · 1 3600000) s.realtime.requestTimeout
            heartbeatInterval := supplied env "ARENA_HEARTBEAT_INTERVAL_MS"
              (uint64InRange? · 100 600000) s.realtime.heartbeatInterval
            sendTimeout := supplied env "ARENA_SEND_TIMEOUT_MS"
              (uint64InRange? · 1 600000) s.realtime.sendTimeout
            connectTimeout := supplied env "ARENA_CONNECT_TIMEOUT_MS"
              (uint64InRange? · 1 600000) s.realtime.connectTimeout
            appearOnline := s.realtime.appearOnline
            eventBufferSize := s.realtime.eventBufferSize } } := by
  rw [override, foldl_settings, overrides]
  simp only [List.foldl_cons, List.foldl_nil]
  -- from the inside out, so that each step is made on a record with its fields at hand
  rw [textOverride_settings "ARENA_HOST" env s (fun s => s.server.host) fun _ => rfl]
  rw [portOverride_settings "ARENA_PORT" env _ (fun s => s.server.port) fun _ => rfl]
  rw [flagOverride_settings "ARENA_USE_SSL" env _ (fun s => s.server.useSsl) fun _ => rfl]
  rw [textOverride_settings "ARENA_LANG" env _ (fun s => s.server.lang) fun _ => rfl]
  dsimp only
  rw [durationOverride_settings "ARENA_REQUEST_TIMEOUT_MS" env _ Realtime.requestTimeout
    fun _ => rfl]
  rw [durationOverride_settings "ARENA_HEARTBEAT_INTERVAL_MS" env _ Realtime.heartbeatInterval
    fun _ => rfl]
  rw [durationOverride_settings "ARENA_SEND_TIMEOUT_MS" env _ Realtime.sendTimeout fun _ => rfl]
  rw [durationOverride_settings "ARENA_CONNECT_TIMEOUT_MS" env _ Realtime.connectTimeout
    fun _ => rfl]

/-- Settings under an environment. -/
structure Overlaid (env : Environment) (s r : Settings) : Prop where
  host : Decides env "ARENA_HOST" (fun text v => text ≠ "" ∧ v = text) s.server.host r.server.host
  port : Decides env "ARENA_PORT" (fun text v => Within 1 65535 text v.toNat) s.server.port
    r.server.port
  useSsl : Decides env "ARENA_USE_SSL" Says s.server.useSsl r.server.useSsl
  lang : Decides env "ARENA_LANG" (fun text v => text ≠ "" ∧ v = text) s.server.lang r.server.lang
  requestTimeout : Decides env "ARENA_REQUEST_TIMEOUT_MS"
    (fun text v => Within 1 3600000 text v.toNat) s.realtime.requestTimeout
    r.realtime.requestTimeout
  heartbeatInterval : Decides env "ARENA_HEARTBEAT_INTERVAL_MS"
    (fun text v => Within 100 600000 text v.toNat) s.realtime.heartbeatInterval
    r.realtime.heartbeatInterval
  sendTimeout : Decides env "ARENA_SEND_TIMEOUT_MS" (fun text v => Within 1 600000 text v.toNat)
    s.realtime.sendTimeout r.realtime.sendTimeout
  connectTimeout : Decides env "ARENA_CONNECT_TIMEOUT_MS"
    (fun text v => Within 1 600000 text v.toNat) s.realtime.connectTimeout
    r.realtime.connectTimeout
  appearOnline : r.realtime.appearOnline = s.realtime.appearOnline
  eventBufferSize : r.realtime.eventBufferSize = s.realtime.eventBufferSize

theorem override_overlaid (env : Environment) (s : Settings) :
    Overlaid env s (s.override env).settings := by
  rw [override_settings]
  exact {
    host := decides_supplied text?_eq_some_iff env _ _
    port := decides_supplied (uint16InRange?_eq_some_iff 1 65535) env _ _
    useSsl := decides_supplied flag?_eq_some_iff env _ _
    lang := decides_supplied text?_eq_some_iff env _ _
    requestTimeout := decides_supplied (uint64InRange?_eq_some_iff 1 3600000) env _ _
    heartbeatInterval := decides_supplied (uint64InRange?_eq_some_iff 100 600000) env _ _
    sendTimeout := decides_supplied (uint64InRange?_eq_some_iff 1 600000) env _ _
    connectTimeout := decides_supplied (uint64InRange?_eq_some_iff 1 600000) env _ _
    appearOnline := rfl
    eventBufferSize := rfl }

/-- An environment that is laid over settings once more changes nothing. -/
theorem override_override (env : Environment) (s : Settings) :
    ((s.override env).settings.override env).settings = (s.override env).settings := by
  rw [override_settings env (s.override env).settings, override_settings env s]
  simp only [supplied_supplied]

/-! ## Settings that can be used -/

structure Usable (s : Settings) : Prop where
  host : s.server.host ≠ ""
  port : s.server.port ≠ 0
  connectTimeout : s.realtime.connectTimeout ≠ 0
  sendTimeout : s.realtime.sendTimeout ≠ 0
  requestTimeout : s.realtime.requestTimeout ≠ 0
  heartbeatInterval : s.realtime.heartbeatInterval ≠ 0
  eventBufferSize : s.realtime.eventBufferSize ≠ 0

theorem validate_eq_ok_iff (s : Settings) : s.validate = .ok () ↔ s.Usable := by
  have hdurations : s.durations.find? (fun d => d.2 == 0) = none ↔
      s.realtime.connectTimeout ≠ 0 ∧ s.realtime.sendTimeout ≠ 0 ∧ s.realtime.requestTimeout ≠ 0 ∧
        s.realtime.heartbeatInterval ≠ 0 := by
    simp [List.find?_eq_none, durations]
  have hinvalid : s.validate = .ok () ↔ s.invalid? = none := by
    unfold validate
    cases s.invalid? <;> simp
  rw [hinvalid]
  unfold invalid?
  constructor
  · intro h
    split at h
    · cases h
    · rename_i hhost
      split at h
      · cases h
      · rename_i hport
        split at h
        · cases h
        · rename_i hnone
          obtain ⟨hconnect, hsend, hrequest, hheartbeat⟩ := hdurations.mp hnone
          split at h
          · cases h
          · rename_i hbuffer
            exact ⟨by simpa using hhost, hport, hconnect, hsend, hrequest, hheartbeat, hbuffer⟩
  · intro h
    rw [if_neg (by simpa using h.host), if_neg h.port,
      hdurations.mpr ⟨h.connectTimeout, h.sendTimeout, h.requestTimeout, h.heartbeatInterval⟩]
    exact if_neg h.eventBufferSize

theorem Within.uint16_ne_zero {lo hi : Nat} {text : String} {v : UInt16}
    (h : Within lo hi text v.toNat) (hlo : 0 < lo) : v ≠ 0 := by
  rintro rfl
  exact absurd h.low (Nat.not_le.mpr hlo)

theorem Within.uint64_ne_zero {lo hi : Nat} {text : String} {v : UInt64}
    (h : Within lo hi text v.toNat) (hlo : 0 < lo) : v ≠ 0 := by
  rintro rfl
  exact absurd h.low (Nat.not_le.mpr hlo)

/-- No environment makes settings unusable: whatever it may set, the range excludes zero. -/
theorem Overlaid.usable {env : Environment} {s r : Settings} (h : Overlaid env s r)
    (hs : s.Usable) : r.Usable where
  host := h.host.keep hs.host fun _ _ hv => hv.2 ▸ hv.1
  port := h.port.keep hs.port fun _ _ hv => hv.uint16_ne_zero (by decide)
  connectTimeout :=
    h.connectTimeout.keep hs.connectTimeout fun _ _ hv => hv.uint64_ne_zero (by decide)
  sendTimeout := h.sendTimeout.keep hs.sendTimeout fun _ _ hv => hv.uint64_ne_zero (by decide)
  requestTimeout :=
    h.requestTimeout.keep hs.requestTimeout fun _ _ hv => hv.uint64_ne_zero (by decide)
  heartbeatInterval :=
    h.heartbeatInterval.keep hs.heartbeatInterval fun _ _ hv => hv.uint64_ne_zero (by decide)
  eventBufferSize := h.eventBufferSize ▸ hs.eventBufferSize

/-! ## What is not acceptable -/

theorem Override.Reads.store_eq_none {o : Override} {v : Variable} (h : o.Reads v) {value : String}
    (hvalue : ¬ v.kind.Accepts value) (s : Settings) : o.store value s = none := by
  rw [← Option.not_isSome_iff_eq_none, h.accepts]
  exact hvalue

/-- What one override logs. -/
theorem Override.Reads.warned {o : Override} {v : Variable} (h : o.Reads v) (env : Environment)
    (r : Overridden) :
    ∃ piece, (o.apply env r).warnings = r.warnings ++ piece ∧ Warned env v piece := by
  unfold Override.apply
  rw [h.name]
  cases hname : env v.name with
  | none =>
    refine ⟨[], (List.append_nil _).symm, .quiet fun value hvalue => ?_⟩
    cases hname.symm.trans hvalue
  | some value =>
    by_cases haccepts : v.kind.Accepts value
    · obtain ⟨s, hs⟩ := Option.isSome_iff_exists.mp ((h.accepts value r.settings).mpr haccepts)
      refine ⟨[], by simp only [hs, List.append_nil], .quiet fun value' hvalue => .inl ?_⟩
      cases hname.symm.trans hvalue
      exact haccepts
    · simp only [h.store_eq_none haccepts]
      by_cases htext : v.kind = .text
      · rw [if_pos ((h.silent value haccepts).mpr htext)]
        exact ⟨[], (List.append_nil _).symm, .quiet fun _ _ => .inr htext⟩
      · rw [if_neg (mt (h.silent value haccepts).mp htext), h.warning value htext]
        exact ⟨_, rfl, .once hname haccepts htext⟩

theorem foldl_warned (env : Environment) {os : List Override} {vs : List Variable}
    (h : List.Forall₂ Override.Reads os vs) (r : Overridden) :
    ∃ pieces, (os.foldl (Override.apply env) r).warnings = r.warnings ++ pieces.flatten ∧
      List.Forall₂ (Warned env) vs pieces := by
  induction h generalizing r with
  | nil => exact ⟨[], (List.append_nil _).symm, .nil⟩
  | @cons o v os vs ho _ ih =>
    obtain ⟨piece, hpiece, hwarned⟩ := ho.warned env r
    obtain ⟨pieces, hpieces, hall⟩ := ih (o.apply env r)
    refine ⟨piece :: pieces, ?_, .cons hwarned hall⟩
    rw [List.foldl_cons, hpieces, hpiece, List.flatten_cons, List.append_assoc]

/-- The warnings are those about the single variables, one after the other. -/
theorem override_warned (env : Environment) (s : Settings) :
    ∃ pieces, (s.override env).warnings = pieces.flatten ∧
      List.Forall₂ (Warned env) Variable.known pieces :=
  foldl_warned env overrides_read ⟨s, []⟩

theorem known_names_nodup : (Variable.known.map Variable.name).Nodup := by decide

/-- A value that is not acceptable gives the settings that no value gives. -/
theorem override_without {env : Environment} {v : Variable} (hv : v ∈ Variable.known)
    {value : String} (hvalue : env v.name = some value) (hno : ¬ v.kind.Accepts value)
    (s : Settings) : (s.override (env.without v.name)).settings = (s.override env).settings := by
  have hsame : ∀ s, ∀ o ∈ overrides,
      o.settings (env.without v.name) s = o.settings env s := by
    intro s o ho
    obtain ⟨w, hw, hreads⟩ := exists_reads overrides_read ho
    unfold Override.settings Environment.without
    -- names are apart, so the only override that looks at the variable is its own
    by_cases hname : o.name = v.name
    · have hwv : w = v :=
        List.inj_on_of_nodup_map known_names_nodup hw hv (hreads.name.symm.trans hname)
      rw [if_pos hname, hname, hvalue, Option.bind_some, hreads.store_eq_none (hwv ▸ hno)]
      rfl
    · rw [if_neg hname]
  rw [override, override, foldl_settings, foldl_settings]
  exact List.foldl_ext _ _ _ hsame

end GameLink.Settings
