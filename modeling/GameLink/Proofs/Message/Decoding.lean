import GameLink.Envelope
import GameLink.Proofs.Json.Reordered

/-! # What a frame decodes to

A frame is read member by member. Apart from the three members of fixed shape,
none of which may repeat, whatever stands in it is payload. So the envelope is
known from what is found under the three keys and from the other members taken
together.
-/
namespace GameLink.Envelope

open Json.Reading Json.Document

/-! ## Members of fixed shape -/

def fixedKeys : List String := ["cid", "error", "notifications"]

theorem findField_eq_none_iff {key : String} :
    findField fixedFields key = none ↔ key ∉ fixedKeys := by
  have hnames : fixedKeys = fixedFields.map Slot.name := rfl
  rw [findField, List.find?_eq_none, hnames]
  simp only [List.mem_map, not_exists, not_and, beq_iff_eq]

theorem independent_fixedFields : Independent fixedFields where
  apart := by decide
  commute := by simp [fixedFields]

/-- What a member of fixed shape says: nothing when it is absent or null. -/
inductive Says {α : Type} (read : Json.Reading α) : Option Json.Document → Option α → Prop
  | absent : Says read none none
  | null : Says read (some .null) none
  | value {d : Json.Document} {x : α} : d ≠ .null → read d = .ok x → Says read (some d) (some x)

theorem says_iff {α : Type} {read : Json.Reading α} {d : Json.Document} {x : Option α} :
    Says read (some d) x ↔ (optional read d).toOption = some x := by
  by_cases hd : d = .null
  · subst hd
    constructor
    · intro h
      cases h with
      | null => rfl
      | value hne => exact absurd rfl hne
    · intro h
      cases h
      exact .null
  · have hread : optional read d = (read d).map some := by
      cases d <;> first | rfl | exact absurd rfl hd
    rw [hread]
    constructor
    · intro h
      cases h with
      | null => exact absurd rfl hd
      | value _ hx => rw [hx]; rfl
    · intro h
      cases hr : read d with
      | error e => rw [hr] at h; cases h
      | ok y =>
        rw [hr] at h
        cases h
        exact .value hd hr

/-- A record that does not have a field yet is given what the member of its name says. -/
theorem offer_eq_some_iff {α ρ : Type} {name : String} {read : Json.Reading α}
    {set : ρ → Option α → ρ} {o : Option Json.Document} {r r' : ρ} (hr : set r none = r) :
    (field name (optional read) set).offer o r = some r' ↔ ∃ x, Says read o x ∧ r' = set r x := by
  cases o with
  | none =>
    constructor
    · intro h
      cases h
      exact ⟨none, .absent, hr.symm⟩
    · rintro ⟨_, ⟨⟩, rfl⟩
      rw [hr]
      rfl
  | some d =>
    rw [Slot.offer, put_field, Option.map_eq_some_iff]
    simp only [says_iff, eq_comm]

/-- The members of fixed shape, each by itself. -/
theorem fill_fixedFields_iff {look : String → Option Json.Document} {e : Envelope} :
    fill look fixedFields {} = some e ↔ Says text (look "cid") e.cid ∧
      Says serverError (look "error") e.error ∧
      Says notificationBatch (look "notifications") e.notifications ∧ e.payload = [] := by
  simp only [fill, fixedFields, Option.bind_eq_some_iff]
  constructor
  · rintro ⟨r₁, h₁, r₂, h₂, r₃, h₃, ⟨⟩⟩
    obtain ⟨x, hx, rfl⟩ := (offer_eq_some_iff rfl).mp h₁
    obtain ⟨y, hy, rfl⟩ := (offer_eq_some_iff rfl).mp h₂
    obtain ⟨z, hz, rfl⟩ := (offer_eq_some_iff rfl).mp h₃
    exact ⟨hx, hy, hz, rfl⟩
  · obtain ⟨cid, error, notifications, payload⟩ := e
    rintro ⟨hx, hy, hz, rfl⟩
    exact ⟨_, (offer_eq_some_iff rfl).mpr ⟨_, hx, rfl⟩, _, (offer_eq_some_iff rfl).mpr ⟨_, hy, rfl⟩,
      _, (offer_eq_some_iff rfl).mpr ⟨_, hz, rfl⟩, rfl⟩

/-- The payload is left alone. -/
theorem offer_payload {f : Slot Envelope} (hf : f ∈ fixedFields) (o : Option Json.Document)
    (e : Envelope) (p : Entries Json) :
    f.offer o { e with payload := p } = (f.offer o e).map fun e => { e with payload := p } := by
  cases o with
  | none => rfl
  | some d =>
    simp only [fixedFields, List.mem_cons, List.not_mem_nil, or_false] at hf
    rcases hf with rfl | rfl | rfl <;>
    · rw [Slot.offer, Slot.offer, put_field, put_field, Option.map_map]
      rfl

theorem fill_payload (look : String → Option Json.Document) (e : Envelope) (p : Entries Json) :
    fill look fixedFields { e with payload := p } =
      (fill look fixedFields e).map fun e => { e with payload := p } := by
  have hfields : ∀ fields, (∀ f ∈ fields, f ∈ fixedFields) → ∀ e,
      fill look fields { e with payload := p } =
        (fill look fields e).map fun e => { e with payload := p } := by
    intro fields hfields
    induction fields with
    | nil => exact fun e => rfl
    | cons f fields ih =>
      rw [List.forall_mem_cons] at hfields
      intro e
      rw [fill, fill, offer_payload hfields.1, Option.bind_map, Option.map_bind]
      exact congrArg _ (funext fun e => ih hfields.2 e)
  exact hfields fixedFields (fun _ h => h) e

/-! ## Members one after the other -/

/-- A member that is payload, or has a key that is no text. -/
def isPlain (m : Option String × Json.Document) : Bool := m.1.all (fun k => k ∉ fixedKeys)

def shaped (members : Members) : Members := members.filter (!isPlain ·)

def plain (members : Members) : Members := members.filter isPlain

/-- No member of fixed shape repeats, and none of them has been seen before. -/
structure Single (seen : List String) (members : Members) : Prop where
  apart : ((shaped members).map Prod.fst).Nodup
  unseen : ∀ k ∈ seen, some k ∉ (shaped members).map Prod.fst

theorem isPlain_eq_false_iff {key : Option String} {d : Json.Document} :
    isPlain (key, d) = false ↔ ∃ k ∈ fixedKeys, key = some k := by
  cases key <;> simp [isPlain]

theorem single_plain_iff {seen : List String} {m : Option String × Json.Document}
    (hm : isPlain m = true) (rest : Members) : Single seen (m :: rest) ↔ Single seen rest := by
  have hshaped : shaped (m :: rest) = shaped rest := List.filter_cons_of_neg (by simp [hm])
  constructor
  · rintro ⟨hapart, hunseen⟩
    exact ⟨hshaped ▸ hapart, hshaped ▸ hunseen⟩
  · rintro ⟨hapart, hunseen⟩
    exact ⟨hshaped.symm ▸ hapart, hshaped.symm ▸ hunseen⟩

theorem single_shaped_iff {seen : List String} {k : String} (hk : k ∈ fixedKeys) (d : Json.Document)
    (rest : Members) :
    Single seen ((some k, d) :: rest) ↔ k ∉ seen ∧ Single (k :: seen) rest := by
  have hshaped : shaped ((some k, d) :: rest) = (some k, d) :: shaped rest :=
    List.filter_cons_of_pos (by simp [isPlain, hk])
  constructor
  · rintro ⟨hapart, hunseen⟩
    rw [hshaped, List.map_cons] at hapart hunseen
    obtain ⟨hnot, hrest⟩ := List.nodup_cons.mp hapart
    refine ⟨fun hmem => hunseen k hmem List.mem_cons_self, hrest, ?_⟩
    rw [List.forall_mem_cons]
    exact ⟨hnot, fun k' hk' hmem => hunseen k' hk' (List.mem_cons_of_mem _ hmem)⟩
  · rintro ⟨hnew, hapart, hunseen⟩
    rw [List.forall_mem_cons] at hunseen
    constructor
    · rw [hshaped, List.map_cons]
      exact List.nodup_cons.mpr ⟨hunseen.1, hapart⟩
    · intro k' hk' hmem
      rw [hshaped, List.map_cons] at hmem
      rcases List.mem_cons.mp hmem with heq | hmem
      · exact hnew (Option.some.inj heq ▸ hk')
      · exact hunseen.2 k' hk' hmem

/-- A key of fixed shape that has been seen is not found again. -/
theorem Single.find?_eq_none {seen : List String} {members : Members} (h : Single seen members)
    {k : String} (hseen : k ∈ seen) (hk : k ∈ fixedKeys) : find? k members = none := by
  refine Json.Document.find?_eq_none fun hmem => h.unseen k hseen ?_
  obtain ⟨m, hm, hkey⟩ := List.mem_map.mp hmem
  refine List.mem_map.mpr ⟨m, List.mem_filter.mpr ⟨hm, ?_⟩, hkey⟩
  rw [Bool.not_eq_true']
  exact isPlain_eq_false_iff.mpr ⟨k, hk, hkey⟩

/-- What members read one after the other make of an envelope: those of fixed shape are filled in,
each where it stands, and the others are added to the payload. -/
def Gathers (members : Members) (seen : List String) (e e' : Envelope) : Prop :=
  Single seen members ∧ ∃ typed vs,
    fill (find? · members) fixedFields e = some typed ∧
    members? payloadDepth (plain members) = some vs ∧
    e' = { typed with payload := vs.foldl (fun m p => Entries.insert p.1 p.2 m) e.payload }

theorem gathers_nil_iff {seen : List String} {e e' : Envelope} : Gathers [] seen e e' ↔ e' = e := by
  have hfill : fill (find? · []) fixedFields e = some e := fill_none fixedFields e
  have hsingle : Single seen [] := ⟨.nil, fun _ _ => List.not_mem_nil⟩
  constructor
  · rintro ⟨-, typed, vs, htyped, ⟨⟩, rfl⟩
    rw [hfill] at htyped
    cases htyped
    rfl
  · rintro rfl
    exact ⟨hsingle, _, [], hfill, rfl, rfl⟩

theorem gathers_plain_iff {k : String} (hk : k ∉ fixedKeys) {d : Json.Document} {rest : Members}
    {seen : List String} {e e' : Envelope} :
    Gathers ((some k, d) :: rest) seen e e' ↔ ∃ v, d.value? payloadDepth = some v ∧
      Gathers rest seen { e with payload := Entries.insert k v e.payload } e' := by
  have hisPlain : isPlain (some k, d) = true := by simpa [isPlain] using hk
  have hplain : plain ((some k, d) :: rest) = (some k, d) :: plain rest :=
    List.filter_cons_of_pos hisPlain
  have hfill : fill (find? · ((some k, d) :: rest)) fixedFields e =
      fill (find? · rest) fixedFields e := by
    refine fill_congr (fun f hf r => ?_) e
    have hne : f.name ≠ k := fun heq => hk (heq ▸ List.mem_map_of_mem hf)
    rw [find?, if_neg fun heq => hne (Option.some.inj heq).symm]
  unfold Gathers
  rw [single_plain_iff hisPlain, hfill, hplain]
  cases hv : d.value? payloadDepth with
  | none => simp [members?, hv]
  | some v =>
    simp only [Option.some.injEq, exists_eq_left', fill_payload, Option.map_eq_some_iff]
    refine and_congr_right fun _ => ?_
    constructor
    · rintro ⟨typed, _, htyped, hvs, rfl⟩
      simp only [members?, hv] at hvs
      split at hvs
      · rename_i hk' hv' hvs'
        cases hk'; cases hv'; cases hvs
        exact ⟨_, _, ⟨typed, htyped, rfl⟩, hvs', rfl⟩
      · cases hvs
    · rintro ⟨_, vs, ⟨typed, htyped, rfl⟩, hvs, rfl⟩
      exact ⟨typed, (k, v) :: vs, htyped, by simp [members?, hv, hvs], rfl⟩

theorem gathers_shaped_iff {f : Slot Envelope} (hf : f ∈ fixedFields) {d : Json.Document}
    {rest : Members} {seen : List String} {e e' : Envelope} :
    Gathers ((some f.name, d) :: rest) seen e e' ↔ f.name ∉ seen ∧
      ∃ r, f.put d e = some r ∧ Gathers rest (f.name :: seen) r e' := by
  have hk : f.name ∈ fixedKeys := List.mem_map_of_mem hf
  have hplain : plain ((some f.name, d) :: rest) = plain rest :=
    List.filter_cons_of_neg (by simp [isPlain, hk])
  -- the member is offered before all others, as nothing else is found under its key
  have hfill : Single (f.name :: seen) rest →
      fill (find? · ((some f.name, d) :: rest)) fixedFields e =
        (f.put d e).bind (fill (find? · rest) fixedFields) := by
    intro hsingle
    have hrest := hsingle.find?_eq_none List.mem_cons_self hk
    refine fill_eq_put independent_fixedFields hf (if_pos rfl) hrest (fun name hname => ?_) e
    rw [find?, if_neg fun heq => hname (Option.some.inj heq).symm]
  unfold Gathers
  rw [single_shaped_iff hk, hplain, and_assoc]
  refine and_congr_right fun _ => ?_
  cases hput : f.put d e with
  | none =>
    refine iff_of_false ?_ (by simp)
    rintro ⟨hsingle, typed, vs, htyped, -⟩
    rw [hfill hsingle, hput] at htyped
    cases htyped
  | some r =>
    have hpayload : r.payload = e.payload := by
      have hkept := offer_payload hf (some d) e e.payload
      rw [Slot.offer, hput] at hkept
      simpa using congrArg (Option.map Envelope.payload) hkept
    simp only [Option.some.injEq, exists_eq_left', hpayload]
    refine and_congr_right fun hsingle => ?_
    rw [hfill hsingle, hput, Option.bind_some]

theorem readMembers_eq_ok_iff {members : Members} {seen : List String} {e e' : Envelope} :
    readMembers members seen e = .ok e' ↔ Gathers members seen e e' := by
  -- one step of the reader for each kind of member, from any envelope and any keys seen
  induction members generalizing seen e with
  | nil =>
    rw [gathers_nil_iff, readMembers, Except.ok.injEq, eq_comm]
  | cons m rest ih =>
    obtain ⟨key, d⟩ := m
    cases key with
    | none =>
      constructor
      · intro h
        cases h
      · rintro ⟨-, typed, vs, -, hvs, -⟩
        cases hvs
    | some k =>
      rw [readMembers]
      cases hfield : findField fixedFields k with
      | none =>
        rw [gathers_plain_iff (findField_eq_none_iff.mp hfield)]
        cases hv : d.value? payloadDepth with
        | none => simp
        | some v => simp [ih]
      | some f =>
        obtain ⟨hf, rfl⟩ := findField_eq_some hfield
        rw [gathers_shaped_iff hf, Slot.put]
        by_cases hseen : f.name ∈ seen
        · simp [hseen]
        · cases hstore : f.store d e with
          | error fault => simp [hseen, hstore, Except.toOption]
          | ok r => simp [hseen, hstore, ih, Except.toOption]

/-! ## Frames -/

/-- What is decoded from the members of a frame, an empty correlation id included. -/
structure Shows (members : Members) (e : Envelope) : Prop where
  single : Single [] members
  cid : Says text (find? "cid" members) e.cid
  error : Says serverError (find? "error" members) e.error
  notifications : Says notificationBatch (find? "notifications" members) e.notifications
  payload : (members? payloadDepth (plain members)).map Entries.ofList = some e.payload

theorem reading_object_iff {members : Members} {e : Envelope} :
    reading (.object members true) = .ok e ↔ Shows members e := by
  have hread : reading (.object members true) = readMembers members [] {} := by
    rw [reading]
    cases readMembers members [] {} <;> rfl
  rw [hread, readMembers_eq_ok_iff]
  constructor
  · rintro ⟨hsingle, typed, vs, htyped, hvs, rfl⟩
    obtain ⟨hcid, herror, hnotifications, -⟩ := fill_fixedFields_iff.mp htyped
    exact ⟨hsingle, hcid, herror, hnotifications, by rw [hvs]; rfl⟩
  · rintro ⟨hsingle, hcid, herror, hnotifications, hpayload⟩
    obtain ⟨vs, hvs, hlist⟩ := Option.map_eq_some_iff.mp hpayload
    refine ⟨hsingle, { e with payload := [] }, vs, ?_, hvs, ?_⟩
    · exact fill_fixedFields_iff.mpr ⟨hcid, herror, hnotifications, rfl⟩
    · rw [← Entries.ofList, hlist]

theorem reading_eq_ok_iff {d : Json.Document} {e : Envelope} :
    reading d = .ok e ↔ ∃ members, d = .object members true ∧ Shows members e := by
  constructor
  · intro h
    cases d with
    | object members closed =>
      cases closed with
      | true => exact ⟨members, rfl, reading_object_iff.mp h⟩
      | false =>
        rw [reading] at h
        split at h <;> cases h
    | _ => cases h
  · rintro ⟨members, rfl, h⟩
    exact reading_object_iff.mpr h

/-- A frame is decoded where it holds one object, of the shape asked for, and nothing else. -/
theorem decode_eq_ok_iff {frame : Bytes} {e : Envelope} :
    decode frame = .ok e ↔
      ∃ members e', Json.Document.ofBytes frame = (.object members true, true) ∧
        Shows members e' ∧ e = e'.dropEmptyCid := by
  constructor
  · intro h
    rw [decode] at h
    split at h
    · rename_i e' he'
      cases h
      obtain ⟨d, hframe, hd⟩ := ofBytes_eq_ok_iff.mp he'
      obtain ⟨members, rfl, hshows⟩ := reading_eq_ok_iff.mp hd
      exact ⟨members, e', hframe, hshows, rfl⟩
    · cases h
  · rintro ⟨members, e', hframe, hshows, rfl⟩
    have hread := ofBytes_eq_ok_iff.mpr ⟨_, hframe, reading_object_iff.mpr hshows⟩
    rw [decode, hread]

/-! ## Written frames -/

/-- The members of a frame that are payload. -/
def payloadMembers (members : List (String × Json)) : List (String × Json) :=
  members.filter (fun m => m.1 ∉ fixedKeys)

theorem find?_payloadMembers {key : String} (hkey : key ∉ fixedKeys)
    (members : List (String × Json)) :
    Entries.find? key (payloadMembers members) = Entries.find? key members := by
  induction members with
  | nil => rfl
  | cons m rest ih =>
    obtain ⟨k, v⟩ := m
    rw [payloadMembers, List.filter_cons, Entries.find?]
    by_cases hk : key = k
    · subst hk
      rw [if_pos (by simpa using hkey), Entries.find?, if_pos rfl, if_pos rfl]
    · rw [if_neg hk, ← ih, payloadMembers]
      split
      · rw [Entries.find?, if_neg hk]
      · rfl

theorem find?_payloadMembers_fixed {key : String} (hkey : key ∈ fixedKeys)
    (members : List (String × Json)) : Entries.find? key (payloadMembers members) = none := by
  refine Json.find?_eq_none_of_not_mem fun hmem => ?_
  obtain ⟨m, hm, rfl⟩ := List.mem_map.mp hmem
  exact absurd hkey (by simpa using (List.mem_filter.mp hm).2)

theorem nodup_payloadMembers {members : List (String × Json)}
    (apart : (members.map Prod.fst).Nodup) : ((payloadMembers members).map Prod.fst).Nodup :=
  apart.sublist (List.filter_sublist.map _)

theorem shows_ofMembers_iff {members : List (String × Json)} (apart : (members.map Prod.fst).Nodup)
    {e : Envelope} :
    Shows (ofMembers members) e ↔
      Says text ((Entries.find? "cid" members).map ofJson) e.cid ∧
      Says serverError ((Entries.find? "error" members).map ofJson) e.error ∧
      Says notificationBatch ((Entries.find? "notifications" members).map ofJson) e.notifications ∧
      (∀ m ∈ payloadMembers members, m.2.depth ≤ payloadDepth) ∧
      Entries.ofList (Json.sortedMembers (payloadMembers members)) = e.payload := by
  have hsingle : Single [] (ofMembers members) := by
    refine ⟨?_, by simp⟩
    have hkeys : ((ofMembers members).map Prod.fst).Nodup := by
      rw [Json.keys_ofMembers]
      exact apart.map fun _ _ => Option.some.inj
    exact hkeys.sublist (List.filter_sublist.map _)
  have hplain : plain (ofMembers members) = ofMembers (payloadMembers members) := by
    rw [plain, payloadMembers, Json.Document.ofMembers_eq_map, Json.Document.ofMembers_eq_map,
      List.filter_map]
    rfl
  have hvalues : (members? payloadDepth (plain (ofMembers members))).map Entries.ofList =
      some e.payload ↔ (∀ m ∈ payloadMembers members, m.2.depth ≤ payloadDepth) ∧
        Entries.ofList (Json.sortedMembers (payloadMembers members)) = e.payload := by
    rw [hplain, Option.map_eq_some_iff]
    simp only [Json.members?_ofMembers_iff, and_assoc, exists_and_left, exists_eq_left]
  rw [← hvalues, ← find?_ofMembers, ← find?_ofMembers, ← find?_ofMembers]
  constructor
  · rintro ⟨-, hcid, herror, hnotifications, hpayload⟩
    exact ⟨hcid, herror, hnotifications, hpayload⟩
  · rintro ⟨hcid, herror, hnotifications, hpayload⟩
    exact ⟨hsingle, hcid, herror, hnotifications, hpayload⟩

/-- A written frame is decoded to what its members show. -/
theorem decode_render_iff {members : List (String × Json)} (integral : Json.IntegralMembers members)
    {e : Envelope} : decode (Bytes.ofText (Json.object members).render) = .ok e ↔
      ∃ e', Shows (ofMembers members) e' ∧ e = e'.dropEmptyCid := by
  have hframe : Json.Document.ofBytes (Bytes.ofText (Json.object members).render) =
      (.object (ofMembers members) true, true) := ofBytes_render (v := .object members) integral
  rw [decode_eq_ok_iff, hframe]
  constructor
  · rintro ⟨_, e', ⟨⟩, hshows, rfl⟩
    exact ⟨e', hshows, rfl⟩
  · rintro ⟨e', hshows, rfl⟩
    exact ⟨_, e', rfl, hshows, rfl⟩

/-- The payload of a written frame, key by key. -/
theorem find?_payload_of_decode {members : List (String × Json)}
    (integral : Json.IntegralMembers members) (apart : (members.map Prod.fst).Nodup) {e : Envelope}
    (h : decode (Bytes.ofText (Json.object members).render) = .ok e) {key : String}
    (hkey : key ∉ fixedKeys) :
    Entries.find? key e.payload = (Entries.find? key members).map Json.sorted := by
  obtain ⟨e', hshows, rfl⟩ := (decode_render_iff integral).mp h
  obtain ⟨-, -, -, -, hpayload⟩ := (shows_ofMembers_iff apart).mp hshows
  rw [dropEmptyCid, ← hpayload, Json.find?_ofList_sortedMembers (nodup_payloadMembers apart),
    find?_payloadMembers hkey]

/-- A frame with a value under one key, and a correlation id or none. -/
def frameMembers (cid : Option String) (key : String) (body : Json) : List (String × Json) :=
  (cid.map (fun c => ("cid", Json.string c))).toList ++ [(key, body)]

section
variable {cid : Option String} {key : String} {body : Json}

theorem nodup_frameMembers (hkey : key ∉ fixedKeys) :
    ((frameMembers cid key body).map Prod.fst).Nodup := by
  have hne : key ≠ "cid" := fun h => hkey (h ▸ List.mem_cons_self)
  cases cid <;> simp [frameMembers, hne.symm]

theorem find?_frameMembers_cid (hkey : key ∉ fixedKeys) :
    Entries.find? "cid" (frameMembers cid key body) = cid.map Json.string := by
  have hne : key ≠ "cid" := fun h => hkey (h ▸ List.mem_cons_self)
  cases cid <;> simp [frameMembers, Entries.find?, hne.symm]

theorem find?_frameMembers {other : String} (hother : other ≠ "cid") :
    Entries.find? other (frameMembers cid key body) = if other = key then some body else none := by
  cases cid <;> simp [frameMembers, Entries.find?, hother]

theorem portable_frameMembers (hkey : key ∉ fixedKeys) {n : Nat} (hbody : body.Portable n) :
    (Json.object (frameMembers cid key body)).Portable (n + 1) := by
  refine Json.portable_object (nodup_frameMembers hkey) fun m hm => ?_
  rcases List.mem_append.mp hm with hm | hm
  · obtain ⟨c, -, rfl⟩ := Option.map_eq_some_iff.mp (Option.mem_toList.mp hm)
    exact Json.portable_string n c
  · rw [List.mem_singleton.mp hm]
    exact hbody

/-- A frame with a value under one key is decoded to just that, whichever way its members are
ordered. -/
theorem decode_frame (hkey : key ∉ fixedKeys) (hbody : body.Portable payloadDepth) {v : Json}
    (hv : v.Reorders (.object (frameMembers cid key body))) :
    decode (Bytes.ofText v.render) =
      .ok { cid := cid.filter (fun c => !c.isEmpty), payload := [(key, body.sorted)] } := by
  have hportable := hv.portable (portable_frameMembers hkey hbody)
  obtain ⟨members, rfl, apart, hfind⟩ := hv.object (nodup_frameMembers hkey)
  have hcid : Entries.find? "cid" members = cid.map Json.string := by
    have hsorted := hfind "cid"
    rw [find?_frameMembers_cid hkey] at hsorted
    exact Json.eq_of_sorted_string hsorted
  have habsent : ∀ k ∈ fixedKeys, k ≠ "cid" → Entries.find? k members = none := by
    intro k hk hcid
    have hsorted := hfind k
    have hne : k ≠ key := fun h => hkey (h ▸ hk)
    rw [find?_frameMembers hcid, if_neg hne] at hsorted
    exact Option.map_eq_none_iff.mp hsorted
  have hpayload : Entries.ofList (Json.sortedMembers (payloadMembers members)) =
      [(key, body.sorted)] := by
    refine Json.entries_ext (Entries.sorted_ofList _) (List.pairwise_singleton _ _) fun k => ?_
    rw [Json.find?_ofList_sortedMembers (nodup_payloadMembers apart), Entries.find?, Entries.find?]
    by_cases hk : k ∈ fixedKeys
    · have hne : k ≠ key := fun h => hkey (h ▸ hk)
      rw [find?_payloadMembers_fixed hk, if_neg hne]
      rfl
    · have hne : k ≠ "cid" := fun h => hk (h ▸ List.mem_cons_self)
      rw [find?_payloadMembers hk, hfind k, find?_frameMembers hne]
      split <;> rfl
  refine (decode_render_iff hportable.integral).mpr
    ⟨{ cid, payload := [(key, body.sorted)] }, ?_, rfl⟩
  refine (shows_ofMembers_iff apart).mpr ⟨?_, ?_, ?_, ?_, hpayload⟩
  · rw [hcid]
    cases cid with
    | none => exact .absent
    | some c => exact .value (by simp [ofJson]) rfl
  · rw [habsent "error" (by decide) (by decide)]
    exact .absent
  · rw [habsent "notifications" (by decide) (by decide)]
    exact .absent
  · intro m hm
    have hdepth := Nat.le_of_succ_le_succ hportable.depth
    exact Json.depthMembers_le_iff.mp hdepth m (List.mem_of_mem_filter hm)

end

end GameLink.Envelope
