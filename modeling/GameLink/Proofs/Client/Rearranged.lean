import GameLink.Proofs.Client.Routing
import GameLink.Proofs.Message.Rearranged

/-! # Frames in another order have the same effect

A frame that is decoded is the same to a client in whatever order its members
stand. One that is not is handed on as it came, so all that is left of the order
are the bytes in that event, and what is logged of them.
-/
namespace GameLink

/-! ## Events without the bytes of a frame -/

namespace Event

/-- The event without the frame that could not be decoded. -/
def unframed : Event → Event
  | .undecodable _ => .undecodable []
  | e => e

@[simp] theorem isLifecycle_unframed (e : Event) : e.unframed.isLifecycle = e.isLifecycle := by
  cases e <;> rfl

namespace Channel

def unframed (c : Channel) : Channel :=
  { c with
    queue := c.queue.map Event.unframed
    backlog := c.backlog.map (List.map Event.unframed)
    forwarders := c.forwarders.map (Option.map Event.unframed) }

theorem queueBehind_unframed (c : Channel) (es : List Event) (e : Event) :
    (c.queueBehind es e).1.unframed =
      (c.unframed.queueBehind (es.map Event.unframed) e.unframed).1 := by
  have capacity : c.unframed.capacity = c.capacity := rfl
  simp only [queueBehind, isLifecycle_unframed, List.length_map, capacity]
  split <;> simp [unframed]

theorem overflow_unframed (c : Channel) (e : Event) :
    (c.overflow e).1.unframed = (c.unframed.overflow e.unframed).1 := by
  have runtime : c.unframed.runtime = c.runtime := rfl
  simp only [overflow, isLifecycle_unframed, runtime]
  split
  · rfl
  · split <;> simp [unframed]

/-- A channel handles an event by its kind, and by how many others there are. -/
theorem handle_unframed (c : Channel) (e : Event) :
    (c.handle e).1.unframed = (c.unframed.handle e.unframed).1 := by
  have receiver : c.unframed.receiverOpen = c.receiverOpen := rfl
  have room : c.unframed.hasRoom = c.hasRoom := by simp [hasRoom, unframed]
  have backlog : c.unframed.backlog = c.backlog.map (List.map Event.unframed) := rfl
  rw [handle, handle, backlog]
  cases c.backlog with
  | some es => exact queueBehind_unframed c es e
  | none =>
    simp only [Option.map_none, receiver, room]
    split
    · rfl
    · split
      · simp [unframed]
      · exact overflow_unframed c e

end Channel
end Event

namespace Client
open Envelope Json.Document

def Handler.unframed : Handler → Handler
  | .direct => .direct
  | .channel c => .channel c.unframed

theorem Handler.told_unframed (h : Handler) (e : Event) :
    (h.told e).unframed = h.unframed.told e.unframed := by
  cases h with
  | direct => rfl
  | channel c => exact congrArg Handler.channel (c.handle_unframed e)

def Observation.unframed : Observation → Observation
  | .event e => .event e.unframed
  | o => o

def Record.unframed (r : Record) : Record := { r with what := r.what.unframed }

/-- Two machines that differ in the bytes of a frame that was handed on, and in what is logged, at
most. -/
structure SameEffect (a b : Machine) : Prop where
  registry : a.registry = b.registry
  events : (observed a.history).map Record.unframed = (observed b.history).map Record.unframed
  handler : a.handler.unframed = b.handler.unframed
  rest : b = { a with handler := b.handler, history := b.history }

/-- Two frames that a client cannot tell apart, but for handing on one that it cannot decode. -/
structure Alike (f g : Bytes) : Prop where
  decoded : decode f = decode g
  kind : ∀ e e', decode f = .ok e → decode g = .ok e' → e.pushKind = e'.pushKind
  dispatched : ∀ m : Machine, SameEffect (m.dispatch f) (m.dispatch g)
  /-- Where it can, not even a log entry differs. -/
  exact : ∀ e, decode f = .ok e → ∀ m : Machine, m.dispatch f = m.dispatch g

theorem sameEffect_undecodable (entry entry' : Log.Entry) (f g : Bytes) (m : Machine) :
    SameEffect ((m.log entry).emit (.undecodable f)) ((m.log entry').emit (.undecodable g)) := by
  have took : ∀ entry f, Took (.undecodable f) m ((m.log entry).emit (.undecodable f)) :=
    fun entry f => Machine.took_emit rfl (by simp) (by simp) entry m
  have left := took entry f
  have right := took entry' g
  have registry := (left.unsettled (by simp)).trans (right.unsettled (by simp)).symm
  constructor
  · exact registry
  · rw [left.observed, right.observed, List.map_append, List.map_append]
    rfl
  · rw [left.handed, right.handed]
    exact (m.handler.told_unframed (.undecodable f)).trans
      (m.handler.told_unframed (.undecodable g)).symm
  · rw [left.rest, right.rest, registry]

/-- A frame has no effect but through what it is decoded to. -/
theorem alike_of_decode {f g : Bytes} (h : decode f = decode g) : Alike f g where
  decoded := h
  kind := by
    intro e e' he he'
    cases he.symm.trans (h.trans he')
    rfl
  dispatched := by
    intro m
    rw [Machine.dispatch, Machine.dispatch, ← h]
    cases decode f with
    | ok e => exact ⟨rfl, rfl, rfl, rfl⟩
    | error fault => exact sameEffect_undecodable _ _ f g m
  exact := by
    intro e he m
    rw [Machine.dispatch, Machine.dispatch, ← h, he]

/-- The members of an object with distinct keys may stand in any order and with any blanks between
them, and the kind of a push is the same in all of them. -/
theorem rearranged_alike :
    (∀ {members members' : Members} {f g : Bytes}, IsText (.object members true) f →
      IsText (.object members' true) g → members.Perm members' →
      (members.filterMap Prod.fst).Nodup → Alike f g) ∧
    ∀ {frame : Bytes} {e : Envelope}, decode frame = .ok e →
      ∀ k, e.pushKind = k ↔ Classifies e k :=
  ⟨fun text text' perm apart => alike_of_decode (decode_perm text text' perm apart),
    fun h _ => pushKind_eq_iff h⟩

/-- A push with three payloads. The least key is not known, and of the others the lesser one
decides. -/
def threefold : List (String × Json) :=
  [("stream_data", .null), ("alert", .bool true), ("match_data", .object [])]

def threefoldTurned : List (String × Json) :=
  [("match_data", .object []), ("stream_data", .null), ("alert", .bool true)]

theorem rearranged_alike_threefold :
    Alike (Bytes.ofText (Json.object threefold).render)
      (0x0A :: Bytes.ofText (Json.object threefoldTurned).render) ∧
    ∃ e, decode (Bytes.ofText (Json.object threefold).render) = .ok e ∧
      Classifies e .matchData := by
  have text : ∀ members, Json.IntegralMembers members →
      IsText (.object (ofMembers members) true) (Bytes.ofText (Json.object members).render) :=
    fun members h => ofBytes_eq_iff.mp (@ofBytes_render (.object members) h)
  have integral : Json.IntegralMembers threefold := ⟨trivial, trivial, trivial, trivial⟩
  obtain ⟨ts, spaced, forms⟩ := text threefoldTurned ⟨trivial, trivial, trivial, trivial⟩
  constructor
  · refine rearranged_alike.1 (text threefold integral) ⟨ts, .blank rfl spaced, forms⟩ ?_
      (by decide)
    exact .trans (.cons _ (.swap _ _ _)) (.swap _ _ _)
  · let e : Envelope :=
      { payload := [("alert", .bool true), ("match_data", .object []), ("stream_data", .null)] }
    have decoded : decode (Bytes.ofText (Json.object threefold).render) = .ok e :=
      (decode_render_iff integral).mpr ⟨e, (shows_ofMembers_iff (by decide)).mpr
        ⟨.absent, .absent, .absent, by decide, rfl⟩, rfl⟩
    exact ⟨e, decoded, (rearranged_alike.2 decoded .matchData).mp rfl⟩

end Client
end GameLink
