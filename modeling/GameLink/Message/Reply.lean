import GameLink.Message.Outbound
import GameLink.Text.Decimal

/-! # Reply payloads

What the server sends under the key of a reply or a push. Members that are
missing keep their defaults, but data pushed from a match must name its match
and its op code, which may be a number or decimal text.
-/
namespace GameLink

open Json.Reading

def Json.Reading.int32 : Json.Reading Int := integer (-2147483648) 2147483647

def Json.Reading.uint32 : Json.Reading Nat := natural 4294967295

/-- A signed 64-bit number, written as a number or as text. -/
def Json.Reading.opCode : Json.Reading Int
  | .number (some (.int n)) =>
    if Decimal.minInt64 ≤ n ∧ n ≤ Decimal.maxInt64 then .ok n else .error .mismatch
  | .text (some s) =>
    match Decimal.int64? s with
    | some n => .ok n
    | none => .error .mismatch
  | d => .error (unexpected d)

def Json.Reading.base64 : Json.Reading Bytes := fun d => do
  let s ← text d
  match Base64.decodePadded? .standard s.toList with
  | some bytes => .ok bytes
  | none => .error .mismatch

def Rpc.reading : Json.Reading Rpc :=
  record
    [field "id" text (fun r v => { r with id := v }),
      field "payload" (optional text) (fun r v => { r with payload := v }),
      field "http_key" (optional text) (fun r v => { r with httpKey := v })]
    {}

namespace Reply

structure Match where
  matchId : String := ""
  authoritative : Bool := false
  label : Option String := none
  size : Nat := 0
  presences : List Presence := []
  self : Option Presence := none
deriving DecidableEq

structure Channel where
  id : String := ""
  presences : List Presence := []
  self : Option Presence := none
  roomName : Option String := none
  groupId : Option String := none
deriving DecidableEq

structure MessageAck where
  channelId : String := ""
  messageId : String := ""
  username : String := ""
  createTime : String := ""
  persistent : Bool := false
deriving DecidableEq

structure Party where
  partyId : String := ""
  isOpen : Bool := false
  maxSize : Nat := 0
  self : Option Presence := none
  leader : Option Presence := none
  presences : List Presence := []
deriving DecidableEq

structure Ticket where
  ticket : String := ""
deriving DecidableEq

structure Status where
  presences : List Presence := []
deriving DecidableEq

structure PushedData where
  matchId : String := ""
  presence : Option Presence := none
  opCode : Int := 0
  data : Bytes := []
  reliable : Bool := false
deriving DecidableEq

def Match.reading : Json.Reading Match :=
  record
    [field "match_id" text (fun m v => { m with matchId := v }),
      field "authoritative" flag (fun m v => { m with authoritative := v }),
      field "label" (optional text) (fun m v => { m with label := v }),
      field "size" uint32 (fun m v => { m with size := v }),
      field "presences" (list Presence.reading) (fun m v => { m with presences := v }),
      field "self" (optional Presence.reading) (fun m v => { m with self := v })]
    {}

def Channel.reading : Json.Reading Channel :=
  record
    [field "id" text (fun c v => { c with id := v }),
      field "presences" (list Presence.reading) (fun c v => { c with presences := v }),
      field "self" (optional Presence.reading) (fun c v => { c with self := v }),
      field "room_name" (optional text) (fun c v => { c with roomName := v }),
      field "group_id" (optional text) (fun c v => { c with groupId := v })]
    {}

def MessageAck.reading : Json.Reading MessageAck :=
  record
    [field "channel_id" text (fun a v => { a with channelId := v }),
      field "message_id" text (fun a v => { a with messageId := v }),
      field "username" text (fun a v => { a with username := v }),
      field "create_time" text (fun a v => { a with createTime := v }),
      field "persistent" flag (fun a v => { a with persistent := v })]
    {}

def Party.reading : Json.Reading Party :=
  record
    [field "party_id" text (fun p v => { p with partyId := v }),
      field "open" flag (fun p v => { p with isOpen := v }),
      field "max_size" uint32 (fun p v => { p with maxSize := v }),
      field "self" (optional Presence.reading) (fun p v => { p with self := v }),
      field "leader" (optional Presence.reading) (fun p v => { p with leader := v }),
      field "presences" (list Presence.reading) (fun p v => { p with presences := v })]
    {}

def Ticket.reading : Json.Reading Ticket :=
  record [field "ticket" text (fun t v => { t with ticket := v })] {}

def Status.reading : Json.Reading Status :=
  record [field "presences" (list Presence.reading) (fun s v => { s with presences := v })] {}

def PushedData.reading : Json.Reading PushedData :=
  record
    [requiredField "match_id" text (fun m v => { m with matchId := v }),
      field "presence" (optional Presence.reading) (fun m v => { m with presence := v }),
      requiredField "op_code" Json.Reading.opCode (fun m v => { m with opCode := v }),
      field "data" base64 (fun m v => { m with data := v }),
      field "reliable" flag (fun m v => { m with reliable := v })]
    {}

end Reply

end GameLink
