import GameLink.Proofs.Client.Reasons
import GameLink.Proofs.Client.Replay
import GameLink.Proofs.Client.TeardownCourse
import GameLink.Proofs.Message.Decoding

/-! # Where a frame goes

A frame is taken by exactly one of five routes: it is no envelope, it ends the
request of its correlation id, it has an id that nobody waits for, it is an error
that belongs to no request, or it is a push. The route is read off the document in
the frame and the table of requests, and says all that is done: which event is
told, what becomes of the table, and that nothing else changes.
-/
namespace GameLink.Registry

/-- A table that can come about: a slot is there once, and has no outcome. -/
structure Sound (r : Registry) : Prop where
  single : r.slots.Nodup
  pending : ∀ cid ∈ r.slots, r.delivered.lookup cid = none

/-- A slot leaves the table with its outcome, and all others stay as they are. -/
structure Settled (cid : String) (outcome : Outcome) (r next : Registry) : Prop where
  gone : cid ∉ next.slots
  received : next.poll cid = some outcome
  others : ∀ c, c ≠ cid → (c ∈ next.slots ↔ c ∈ r.slots) ∧ next.poll c = r.poll c
  issued : next.issued = r.issued

section
variable {r : Registry} {cid : String}

theorem Sound.settled (h : r.Sound) (hcid : cid ∈ r.slots) (outcome : Outcome) :
    Settled cid outcome r (r.resolve cid outcome).1 := by
  have hdelivered := h.pending cid hcid
  have hothers : ∀ c, c ≠ cid → (c ∈ r.slots.erase cid ↔ c ∈ r.slots) := by
    intro c hc
    rw [h.single.mem_erase_iff]
    exact and_iff_right hc
  rw [resolve_of_mem hcid]
  refine ⟨h.single.not_mem_erase, ?_, fun c hc => ⟨hothers c hc, ?_⟩, rfl⟩
  · refine poll_of_delivered ?_
    rw [List.lookup_append, hdelivered, Option.none_or, List.lookup_cons_self]
  · refine poll_congr ?_ (hothers c hc)
    rw [List.lookup_append, List.lookup_cons, show (c == cid) = false by simp [hc]]
    exact Option.or_none

theorem Sound.resolve (h : r.Sound) (outcome : Outcome) : (r.resolve cid outcome).1.Sound := by
  by_cases hcid : cid ∈ r.slots
  · have hsettled := h.settled hcid outcome
    rw [resolve_of_mem hcid] at hsettled ⊢
    refine ⟨h.single.erase cid, fun c hc => ?_⟩
    have hne : c ≠ cid := fun heq => hsettled.gone (heq ▸ hc)
    rw [List.lookup_append, h.pending c (List.mem_of_mem_erase hc), List.lookup_cons,
      show (c == cid) = false by simp [hne]]
    rfl
  · rw [resolve_of_not_mem hcid]
    exact h

end

end GameLink.Registry

namespace GameLink.Client
open Envelope Json.Document

/-- The table of a client that has come about by any moves is sound. -/
theorem Machine.Reachable.registry_sound {may : Move → Prop} {m : Machine} (hm : m.Reachable may) :
    m.registry.Sound := by
  have hheld := hm.accounts.held
  refine ⟨hheld.ordered, fun cid hcid => ?_⟩
  obtain ⟨i, hwaits⟩ := hheld.slots cid hcid
  cases hheld.settled i cid hwaits with
  | pending _ hnone _ => exact hnone
  | settled _ hgone _ _ => exact absurd hcid hgone

/-! ## What stands in a frame -/

/-- The frame is one object, and decoded. -/
structure Holds (frame : Bytes) (members : Members) (e : Envelope) : Prop where
  document : Json.Document.ofBytes frame = (.object members true, true)
  decoded : decode frame = .ok e

/-- No correlation id: the member is absent, null or an empty text. -/
inductive Anonymous : Option Json.Document → Prop
  | absent : Anonymous none
  | null : Anonymous (some .null)
  | empty : Anonymous (some (.text (some "")))

theorem exists_holds {frame : Bytes} {e : Envelope} (h : decode frame = .ok e) :
    ∃ members, Holds frame members e := by
  obtain ⟨members, _, hdocument, -, -⟩ := decode_eq_ok_iff.mp h
  exact ⟨members, hdocument, h⟩

section
variable {frame : Bytes} {members : Members} {e : Envelope}

theorem Holds.shows (h : Holds frame members e) : ∃ e', Shows members e' ∧ e = e'.dropEmptyCid := by
  obtain ⟨members', e', hdocument, hshows, he⟩ := decode_eq_ok_iff.mp h.decoded
  rw [h.document] at hdocument
  cases hdocument
  exact ⟨e', hshows, he⟩

theorem says_text_iff {o : Option Json.Document} {s : String} :
    Says Json.Reading.text o (some s) ↔ o = some (.text (some s)) := by
  constructor
  · rintro (_ | _ | @⟨d, _, hd, hs⟩)
    cases d with
    | text o =>
      cases o with
      | none => cases hs
      | some t =>
        cases hs
        rfl
    | null => exact absurd rfl hd
    | _ => cases hs
  · rintro rfl
    exact .value (by simp) rfl

theorem says_unique {α : Type} {read : Json.Reading α} {o : Option Json.Document} {x y : Option α}
    (hx : Says read o x) (hy : Says read o y) : x = y := by
  cases hx with
  | absent => cases hy; rfl
  | null =>
    cases hy with
    | null => rfl
    | value hne _ => exact absurd rfl hne
  | value hne hread =>
    cases hy with
    | null => exact absurd rfl hne
    | value _ hread' =>
      rw [hread] at hread'
      cases hread'
      rfl

theorem Holds.cid_iff (h : Holds frame members e) {cid : String} :
    e.cid = some cid ↔ find? "cid" members = some (.text (some cid)) ∧ cid ≠ "" := by
  obtain ⟨e', hshows, rfl⟩ := h.shows
  rw [dropEmptyCid, Option.filter_eq_some_iff, ← says_text_iff]
  refine and_congr ⟨fun hcid => hcid ▸ hshows.cid, says_unique hshows.cid⟩ ?_
  simp

theorem Holds.anonymous_iff (h : Holds frame members e) :
    e.cid = none ↔ Anonymous (find? "cid" members) := by
  obtain ⟨e', hshows, rfl⟩ := h.shows
  have hread := hshows.cid
  constructor
  · intro hnone
    cases hcid : e'.cid with
    | none =>
      rw [hcid] at hread
      generalize find? "cid" members = o at hread
      cases hread with
      | absent => exact .absent
      | null => exact .null
    | some cid =>
      rw [hcid, says_text_iff] at hread
      have hempty : cid = "" := by simpa [dropEmptyCid, hcid, Option.filter] using hnone
      rw [hread, hempty]
      exact .empty
  · intro hanonymous
    cases hcid : e'.cid with
    | none => simp [dropEmptyCid, hcid]
    | some cid =>
      rw [hcid, says_text_iff] at hread
      rw [hread] at hanonymous
      cases hanonymous
      simp [dropEmptyCid, hcid]

theorem Holds.error_iff (h : Holds frame members e) {error : Option ServerError} :
    e.error = error ↔ Says serverError (find? "error" members) error := by
  obtain ⟨e', hshows, rfl⟩ := h.shows
  exact ⟨fun herror => herror ▸ hshows.error, says_unique hshows.error⟩

end

/-! ## Routes -/

inductive Route
  | undecodable (frame : Bytes)
  | reply (cid : String) (outcome : Outcome)
  | stray (cid : String)
  | serverError (error : ServerError)
  | push (e : Envelope)

/-- Which route a frame takes, by what stands in it and by the table of requests. -/
inductive Route.Fits (frame : Bytes) (r : Registry) : Route → Prop
  | undecodable (h : ∀ e, decode frame ≠ .ok e) : Fits frame r (.undecodable frame)
  | failed {members : Members} {e : Envelope} {cid : String} {error : ServerError}
      (holds : Holds frame members e) (hcid : find? "cid" members = some (.text (some cid)))
      (nonempty : cid ≠ "") (slot : cid ∈ r.slots)
      (herror : Says Envelope.serverError (find? "error" members) (some error)) :
      Fits frame r (.reply cid (.error (.errorReply error)))
  | answered {members : Members} {e : Envelope} {cid : String} (holds : Holds frame members e)
      (hcid : find? "cid" members = some (.text (some cid))) (nonempty : cid ≠ "")
      (slot : cid ∈ r.slots) (herror : Says Envelope.serverError (find? "error" members) none) :
      Fits frame r (.reply cid (.ok e))
  | stray {members : Members} {e : Envelope} {cid : String} (holds : Holds frame members e)
      (hcid : find? "cid" members = some (.text (some cid))) (nonempty : cid ≠ "")
      (slot : cid ∉ r.slots) : Fits frame r (.stray cid)
  | serverError {members : Members} {e : Envelope} {error : ServerError}
      (holds : Holds frame members e) (hcid : Anonymous (find? "cid" members))
      (herror : Says Envelope.serverError (find? "error" members) (some error)) :
      Fits frame r (.serverError error)
  | push {members : Members} {e : Envelope} (holds : Holds frame members e)
      (hcid : Anonymous (find? "cid" members))
      (herror : Says Envelope.serverError (find? "error" members) none) : Fits frame r (.push e)

/-- The route by the decoded envelope. -/
def Route.of (frame : Bytes) (r : Registry) : Route :=
  match decode frame with
  | .error _ => .undecodable frame
  | .ok e =>
    match e.cid with
    | some cid => if cid ∈ r.slots then .reply cid (Machine.replyOutcome e) else .stray cid
    | none =>
      match e.error with
      | some error => .serverError error
      | none => .push e

theorem Route.fits_of (frame : Bytes) (r : Registry) : Fits frame r (.of frame r) := by
  cases hdecode : decode frame with
  | error _ =>
    simp only [Route.of, hdecode]
    exact .undecodable fun e he => nomatch hdecode.symm.trans he
  | ok e =>
    obtain ⟨members, holds⟩ := exists_holds hdecode
    have herror := holds.error_iff.mp rfl
    cases hcid : e.cid with
    | some cid =>
      obtain ⟨hfind, hne⟩ := holds.cid_iff.mp hcid
      by_cases hslot : cid ∈ r.slots
      · simp only [Route.of, hdecode, hcid, if_pos hslot, Machine.replyOutcome]
        cases he : e.error with
        | some error => exact .failed holds hfind hne hslot (he ▸ herror)
        | none => exact .answered holds hfind hne hslot (he ▸ herror)
      · simp only [Route.of, hdecode, hcid, if_neg hslot]
        exact .stray holds hfind hne hslot
    | none =>
      have hanonymous := holds.anonymous_iff.mp hcid
      simp only [Route.of, hdecode, hcid]
      cases he : e.error with
      | some error => exact .serverError holds hanonymous (he ▸ herror)
      | none => exact .push holds hanonymous (he ▸ herror)

theorem Route.Fits.eq_of {frame : Bytes} {r : Registry} {route : Route} (h : Fits frame r route) :
    route = .of frame r := by
  rw [Route.of]
  cases h with
  | undecodable h =>
    cases hdecode : decode frame with
    | error _ => rfl
    | ok e => exact absurd hdecode (h e)
  | failed holds hcid hne hslot herror =>
    simp only [holds.decoded, holds.cid_iff.mpr ⟨hcid, hne⟩, if_pos hslot, Machine.replyOutcome,
      holds.error_iff.mpr herror]
  | answered holds hcid hne hslot herror =>
    simp only [holds.decoded, holds.cid_iff.mpr ⟨hcid, hne⟩, if_pos hslot, Machine.replyOutcome,
      holds.error_iff.mpr herror]
  | stray holds hcid hne hslot =>
    simp only [holds.decoded, holds.cid_iff.mpr ⟨hcid, hne⟩, if_neg hslot]
  | serverError holds hcid herror =>
    simp only [holds.decoded, holds.anonymous_iff.mpr hcid, holds.error_iff.mpr herror]
  | push holds hcid herror =>
    simp only [holds.decoded, holds.anonymous_iff.mpr hcid, holds.error_iff.mpr herror]

/-- The event that the application is told. -/
def Route.event? : Route → Option Event
  | .undecodable frame => some (.undecodable frame)
  | .reply _ _ | .stray _ => none
  | .serverError error => some (.serverError (.errorReply error))
  | .push e => some (.push e)

def Handler.told (e : Event) : Handler → Handler
  | .direct => .direct
  | .channel c => .channel (c.handle e).1

/-- All that a machine does with a frame that takes a route. -/
structure Took (route : Route) (m next : Machine) : Prop where
  /-- Nothing else changes, the state of the connection least of all. -/
  rest : next = { m with
    registry := next.registry, handler := next.handler, history := next.history }
  /-- The event of the route is told, once, and nothing else is observed. -/
  observed : observed next.history = observed m.history ++ route.event?.toList.flatMap fun e =>
    [⟨m.now, .shown m.state m.registry.size⟩, ⟨m.now, .event e⟩]
  handed : next.handler = route.event?.elim m.handler m.handler.told
  /-- A reply takes the slot out of the table, and nothing is even logged. -/
  settled : ∀ cid outcome, route = .reply cid outcome →
    m.registry.Settled cid outcome next.registry ∧ next.history = m.history
  unsettled : (∀ cid outcome, route ≠ .reply cid outcome) → next.registry = m.registry
  /-- A reply that nobody waits for is warned of. -/
  warned : ∀ cid, route = .stray cid → next.history =
    ⟨m.now, .log (Log.warn "reply for unknown cid dropped" [("cid", cid)])⟩ :: m.history

namespace Machine

variable {m : Machine}

theorem handler_logAll (entries : List Log.Entry) (m : Machine) :
    (m.logAll entries).handler = m.handler := by
  obtain ⟨history, heq, -⟩ := logAll_eq entries m
  rw [heq]

theorem handler_emit (e : Event) (m : Machine) : (m.emit e).handler = m.handler.told e := by
  unfold emit
  dsimp only
  split
  · rename_i h
    rw [show m.handler = .direct from h]
    exact h
  · rename_i c h
    rw [handler_logAll, show m.handler = .channel c from h]
    rfl

/-- A frame that is an event: something is logged, the event is told, and that is all. -/
theorem took_emit {route : Route} {event : Event} (hevent : route.event? = some event)
    (hreply : ∀ cid outcome, route ≠ .reply cid outcome) (hstray : ∀ cid, route ≠ .stray cid)
    (entry : Log.Entry) (m : Machine) : Took route m ((m.log entry).emit event) := by
  have hhandler := handler_emit event (m.log entry)
  obtain ⟨handler, history, heq, hobserved⟩ := emit_eq event (m.log entry)
  rw [heq] at hhandler ⊢
  refine ⟨rfl, ?_, ?_, fun cid outcome h => absurd h (hreply cid outcome), fun _ => rfl,
    fun cid h => absurd h (hstray cid)⟩
  · rw [hevent]
    simpa using hobserved
  · rw [hevent]
    exact hhandler

theorem took_reply {cid : String} (hcid : cid ∈ m.registry.slots) (h : m.registry.Sound)
    (outcome : Outcome) : Took (.reply cid outcome) m (m.dispatchReply cid outcome) := by
  have hsettled := h.settled hcid outcome
  have hresolve : m.registry.resolve cid outcome = _ := Registry.resolve_of_mem hcid
  have heq : m.dispatchReply cid outcome =
      { m with registry := (m.registry.resolve cid outcome).1 } := by
    rw [dispatchReply, hresolve]
    rfl
  rw [heq]
  refine ⟨rfl, (List.append_nil _).symm, rfl, ?_, fun hne => absurd rfl (hne cid outcome),
    fun _ hstray => nomatch hstray⟩
  rintro _ _ ⟨⟩
  exact ⟨hsettled, rfl⟩

theorem took_stray {cid : String} (hcid : cid ∉ m.registry.slots) (outcome : Outcome) :
    Took (.stray cid) m (m.dispatchReply cid outcome) := by
  have heq : m.dispatchReply cid outcome =
      m.log (Log.warn "reply for unknown cid dropped" [("cid", cid)]) := by
    rw [dispatchReply, Registry.resolve_of_not_mem hcid]
    rfl
  rw [heq]
  refine ⟨rfl, ?_, rfl, fun _ _ hreply => (nomatch hreply), fun _ => rfl, ?_⟩
  · simp [log, record, Route.event?]
  · rintro _ ⟨⟩
    rfl

theorem took_dispatch (frame : Bytes) (h : m.registry.Sound) :
    Took (.of frame m.registry) m (m.dispatch frame) := by
  unfold dispatch Route.of
  cases decode frame with
  | error _ =>
    exact took_emit rfl (by simp) (by simp) _ m
  | ok e =>
    dsimp only
    cases hcid : e.cid with
    | some cid =>
      by_cases hslot : cid ∈ m.registry.slots
      · simp only [if_pos hslot]
        exact took_reply hslot h _
      · simp only [if_neg hslot]
        exact took_stray hslot _
    | none =>
      unfold dispatchPush
      cases e.error with
      | some error => exact took_emit rfl (by simp) (by simp) _ m
      | none => exact took_emit rfl (by simp) (by simp) _ m

theorem sound_dispatch (frame : Bytes) (h : m.registry.Sound) :
    (m.dispatch frame).registry.Sound := by
  obtain ⟨handler, history, heq, -⟩ := dispatch_eq frame m
  rw [heq]
  show (hear frame m.registry).Sound
  unfold hear
  split
  · exact h.resolve _
  · exact h

/-- Every frame takes exactly one route, and leaves a table with which the next one can do so. The
tables that a client comes to are sound by `Machine.Reachable.registry_sound`. -/
theorem dispatch_routes (frame : Bytes) (m : Machine) (h : m.registry.Sound) :
    ∃ route, (Route.Fits frame m.registry route ∧
      ∀ other, Route.Fits frame m.registry other → other = route) ∧
      Took route m (m.dispatch frame) ∧ (m.dispatch frame).registry.Sound :=
  ⟨.of frame m.registry, ⟨Route.fits_of frame m.registry, fun _ hother => hother.eq_of⟩,
    took_dispatch frame h, sound_dispatch frame h⟩

/-- In a client that has come about by any moves one route fits a frame, and is taken. -/
theorem Reachable.dispatch_routed {may : Move → Prop} (hm : m.Reachable may) (frame : Bytes) :
    ∃ route, Took route m (m.dispatch frame) ∧
      ∀ other, Route.Fits frame m.registry other ↔ other = route := by
  refine ⟨.of frame m.registry, took_dispatch frame hm.registry_sound, fun other => ?_⟩
  exact ⟨Route.Fits.eq_of, fun h => h ▸ Route.fits_of frame m.registry⟩

/-- A client with one request under way. -/
def asking : Machine := { fresh with registry := { issued := 1, slots := ["1"] } }

/-- The frame that answers it. -/
def answer : Bytes :=
  Bytes.ofText (Json.object (frameMembers (some "1") "pong" (.object []))).render

theorem answer_routed : ∃ e, decode answer = .ok e ∧
    Took (.reply "1" (.ok e)) asking (asking.dispatch answer) := by
  have hsound : asking.registry.Sound := ⟨by decide, fun _ _ => rfl⟩
  have hbody : (Json.object []).Portable payloadDepth := Json.portable_object .nil (by simp)
  have hkey : "pong" ∉ fixedKeys := by decide
  have hunrepeated := (@portable_frameMembers (some "1") _ _ hkey _ hbody).unrepeated
  have hdecode := decode_frame hkey hbody (.refl hunrepeated)
  obtain ⟨route, ⟨-, hunique⟩, htook, -⟩ := dispatch_routes answer asking hsound
  obtain ⟨members, holds⟩ := exists_holds hdecode
  obtain ⟨hfind, hne⟩ := holds.cid_iff.mp rfl
  have hslot : "1" ∈ asking.registry.slots := by decide
  have hfits := Route.Fits.answered holds hfind hne hslot (holds.error_iff.mp rfl)
  rw [← hunique _ hfits] at htook
  exact ⟨_, hdecode, htook⟩

end Machine

end GameLink.Client
