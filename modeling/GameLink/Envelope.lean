import GameLink.Message.Reply
import GameLink.Json.Printer
import GameLink.Failure

/-! # Envelopes

An outbound frame has the correlation id, if a reply is awaited, and one member
named for the operation. An inbound frame is an object in which `cid`, `error`
and `notifications` have a fixed shape and may not repeat; every other member
is payload, of which a repeated key keeps its last value. An empty correlation
id is the same as none.
-/
namespace GameLink

open Json.Reading

namespace Envelope

structure Outgoing where
  cid : Option String
  message : Outbound
deriving DecidableEq

/-- The frame in the order it is written. -/
def Outgoing.toJson (e : Outgoing) : Json :=
  .object ((e.cid.map (fun c => ("cid", Json.string c))).toList ++ [(e.message.kind, e.message.body)])

def Outgoing.toText (e : Outgoing) : String := e.toJson.render

structure Notification where
  id : String := ""
  subject : String := ""
  content : String := ""
  code : Int := 0
  senderId : String := ""
  createTime : String := ""
  persistent : Bool := false
deriving DecidableEq

structure NotificationBatch where
  notifications : List Notification := []
deriving DecidableEq

def serverError : Json.Reading ServerError :=
  record
    [field "code" int32 (fun e v => { e with code := v }),
      field "message" text (fun e v => { e with message := v }),
      field "context" (map text) (fun e v => { e with context := v })]
    {}

def notification : Json.Reading Notification :=
  record
    [field "id" text (fun n v => { n with id := v }),
      field "subject" text (fun n v => { n with subject := v }),
      field "content" text (fun n v => { n with content := v }),
      field "code" int32 (fun n v => { n with code := v }),
      field "sender_id" text (fun n v => { n with senderId := v }),
      field "create_time" text (fun n v => { n with createTime := v }),
      field "persistent" flag (fun n v => { n with persistent := v })]
    {}

def notificationBatch : Json.Reading NotificationBatch :=
  record [field "notifications" (list notification) (fun b v => { b with notifications := v })] {}

end Envelope

/-- A decoded frame. -/
structure Envelope where
  cid : Option String := none
  error : Option ServerError := none
  notifications : Option Envelope.NotificationBatch := none
  payload : Entries Json := []

namespace Envelope

instance : Inhabited Envelope := ⟨{}⟩

/-- The members of fixed shape. -/
def fixedFields : List (Slot Envelope) :=
  [field "cid" (optional text) (fun e v => { e with cid := v }),
    field "error" (optional serverError) (fun e v => { e with error := v }),
    field "notifications" (optional notificationBatch) (fun e v => { e with notifications := v })]

/-- A payload value lies one container deep. -/
def payloadDepth : Nat := Json.Document.maxDepth - 1

def readMembers : List (Option String × Json.Document) → List String → Envelope →
    Except Json.Fault Envelope
  | [], _, e => .ok e
  | (key, d) :: rest, seen, e =>
    match key with
    | none => .error .malformed
    | some k =>
      match findField fixedFields k with
      | some f =>
        if seen.contains k then .error .mismatch
        else
          match f.store d e with
          | .error fault => .error fault
          | .ok e => readMembers rest (k :: seen) e
      | none =>
        match d.value? payloadDepth with
        | none => .error .malformed
        | some v => readMembers rest seen { e with payload := Entries.insert k v e.payload }

def reading : Json.Reading Envelope
  | .object members closed =>
    match readMembers members [] {} with
    | .error fault => .error fault
    | .ok e => if closed then .ok e else .error .malformed
  | d => .error (unexpected d)

def dropEmptyCid (e : Envelope) : Envelope := { e with cid := e.cid.filter (fun c => !c.isEmpty) }

/-- The envelope in a frame. -/
def decode (frame : Bytes) : Except Failure Envelope :=
  match Json.Reading.ofBytes reading frame with
  | .ok e => .ok e.dropEmptyCid
  | .error _ => .error (.decode .frame)

/-! ## Pushes -/

/-- Kinds of message that the server sends on its own. -/
inductive PushKind
  | channelMessage
  | channelPresenceEvent
  | matchData
  | matchPresenceEvent
  | matchmakerMatched
  | notifications
  | partyData
  | partyPresenceEvent
  | partyClose
  | statusPresenceEvent
  | streamData
  | streamPresenceEvent
  | other (key : String)
deriving DecidableEq

def PushKind.key : PushKind → String
  | .channelMessage => "channel_message"
  | .channelPresenceEvent => "channel_presence_event"
  | .matchData => "match_data"
  | .matchPresenceEvent => "match_presence_event"
  | .matchmakerMatched => "matchmaker_matched"
  | .notifications => "notifications"
  | .partyData => "party_data"
  | .partyPresenceEvent => "party_presence_event"
  | .partyClose => "party_close"
  | .statusPresenceEvent => "status_presence_event"
  | .streamData => "stream_data"
  | .streamPresenceEvent => "stream_presence_event"
  | .other key => key

def PushKind.known : List PushKind :=
  [.channelMessage, .channelPresenceEvent, .matchData, .matchPresenceEvent, .matchmakerMatched,
    .notifications, .partyData, .partyPresenceEvent, .partyClose, .statusPresenceEvent, .streamData,
    .streamPresenceEvent]

def PushKind.ofKey? (key : String) : Option PushKind := PushKind.known.find? (fun k => k.key == key)

/-- A batch of notifications, else the first known payload key, else the first key. -/
def pushKind (e : Envelope) : PushKind :=
  if e.notifications.isSome then .notifications
  else
    match (Entries.keys e.payload).findSome? PushKind.ofKey? with
    | some k => k
    | none => .other ((Entries.keys e.payload).head?.getD "")

def PushKind.isOther : PushKind → Bool
  | .other _ => true
  | _ => false

/-! ## Typed payloads -/

def payloadAs {α : Type} (read : Json.Reading α) (key : String) (e : Envelope) : Except Failure α :=
  match Entries.find? key e.payload with
  | none => .error (.decode (.missingPayload key))
  | some v =>
    match ofJson? read v with
    | some x => .ok x
    | none => .error (.decode (.payload key))

end Envelope

end GameLink
