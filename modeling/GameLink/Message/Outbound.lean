import GameLink.Message.Presence
import GameLink.Text.Base64

/-! # Outbound messages

Every operation the client can send, with its wire key and its body. Members
stand in the order given here; absent options and empty collections that the
server takes as absent are left out. Op codes travel as decimal text and binary
data as padded base64.
-/
namespace GameLink

inductive ChannelType
  | room
  | directMessage
  | group
deriving DecidableEq

def ChannelType.code : ChannelType → Nat
  | .room => 1
  | .directMessage => 2
  | .group => 3

/-- Data for everyone in a match, or for the presences listed. -/
structure MatchData where
  matchId : String
  opCode : Int
  data : Bytes
  presences : List Presence
  reliable : Bool
deriving DecidableEq

/-- A ticket for the matchmaker pool. -/
structure MatchmakerTicket where
  minCount : Nat := 2
  maxCount : Nat := 8
  query : String := "*"
  stringProperties : StringMap String := .empty
  numericProperties : StringMap Binary64 := .empty
deriving DecidableEq

structure Rpc where
  id : String := ""
  payload : Option String := none
  httpKey : Option String := none
deriving DecidableEq

inductive Outbound
  | matchCreate (name : Option String)
  | matchJoin (matchId token : Option String) (metadata : StringMap String)
  | matchLeave (matchId : String)
  | matchDataSend (data : MatchData)
  | channelJoin (target : String) (type : ChannelType) (persistence hidden : Bool)
  | channelLeave (channelId : String)
  | channelMessageSend (channelId content : String)
  | partyCreate (isOpen : Bool) (maxSize : Nat)
  | partyJoin (partyId : String)
  | partyLeave (partyId : String)
  | partyDataSend (partyId : String) (opCode : Int) (data : Bytes)
  | matchmakerAdd (ticket : MatchmakerTicket)
  | matchmakerRemove (ticket : String)
  | statusFollow (userIds usernames : List String)
  | statusUnfollow (userIds : List String)
  | statusUpdate (status : Option String)
  | rpc (call : Rpc)
  | ping
deriving DecidableEq

namespace Outbound

/-- The wire key. -/
def kind : Outbound → String
  | .matchCreate _ => "match_create"
  | .matchJoin _ _ _ => "match_join"
  | .matchLeave _ => "match_leave"
  | .matchDataSend _ => "match_data_send"
  | .channelJoin _ _ _ _ => "channel_join"
  | .channelLeave _ => "channel_leave"
  | .channelMessageSend _ _ => "channel_message_send"
  | .partyCreate _ _ => "party_create"
  | .partyJoin _ => "party_join"
  | .partyLeave _ => "party_leave"
  | .partyDataSend _ _ _ => "party_data_send"
  | .matchmakerAdd _ => "matchmaker_add"
  | .matchmakerRemove _ => "matchmaker_remove"
  | .statusFollow _ _ => "status_follow"
  | .statusUnfollow _ => "status_unfollow"
  | .statusUpdate _ => "status_update"
  | .rpc _ => "rpc"
  | .ping => "ping"

/-! ## Bodies -/

abbrev Members := List (String × Json)

def optionalText (key : String) (v : Option String) : Members :=
  (v.map (fun s => (key, Json.string s))).toList

/-- A collection that is left out when it is empty. -/
def unlessEmpty (key : String) (vs : List Json) : Members :=
  if vs.isEmpty then [] else [(key, .array vs)]

def mapUnlessEmpty (key : String) (m : Entries Json) : Members :=
  if m.isEmpty then [] else [(key, .object m)]

def texts (m : StringMap String) : Entries Json := m.entries.map (fun p => (p.1, .string p.2))

def numbers (m : StringMap Binary64) : Entries Json :=
  m.entries.map (fun p => (p.1, .ofBinary64 p.2))

def opCodeText (n : Int) : Json := .string (toString n)

def dataText (b : Bytes) : Json := .string (String.ofList (Base64.encodePadded .standard b))

def MatchData.members (d : MatchData) : Members :=
  [("match_id", .string d.matchId), ("op_code", opCodeText d.opCode), ("data", dataText d.data)] ++
    unlessEmpty "presences" (d.presences.map Presence.toJson) ++ [("reliable", .bool d.reliable)]

def MatchmakerTicket.members (t : MatchmakerTicket) : Members :=
  [("min_count", .ofNat t.minCount), ("max_count", .ofNat t.maxCount), ("query", .string t.query)] ++
    mapUnlessEmpty "string_properties" (texts t.stringProperties) ++
    mapUnlessEmpty "numeric_properties" (numbers t.numericProperties)

def Rpc.members (r : Rpc) : Members :=
  [("id", .string r.id)] ++ optionalText "payload" r.payload ++ optionalText "http_key" r.httpKey

def members : Outbound → Members
  | .matchCreate name => optionalText "name" name
  | .matchJoin matchId token metadata =>
    optionalText "match_id" matchId ++ optionalText "token" token ++
      mapUnlessEmpty "metadata" (texts metadata)
  | .matchLeave matchId => [("match_id", .string matchId)]
  | .matchDataSend data => MatchData.members data
  | .channelJoin target type persistence hidden =>
    [("target", .string target), ("type", .ofNat type.code), ("persistence", .bool persistence),
      ("hidden", .bool hidden)]
  | .channelLeave channelId => [("channel_id", .string channelId)]
  | .channelMessageSend channelId content =>
    [("channel_id", .string channelId), ("content", .string content)]
  | .partyCreate isOpen maxSize => [("open", .bool isOpen), ("max_size", .ofNat maxSize)]
  | .partyJoin partyId => [("party_id", .string partyId)]
  | .partyLeave partyId => [("party_id", .string partyId)]
  | .partyDataSend partyId opCode data =>
    [("party_id", .string partyId), ("op_code", opCodeText opCode), ("data", dataText data)]
  | .matchmakerAdd ticket => MatchmakerTicket.members ticket
  | .matchmakerRemove ticket => [("ticket", .string ticket)]
  | .statusFollow userIds usernames =>
    unlessEmpty "user_ids" (userIds.map .string) ++ unlessEmpty "usernames" (usernames.map .string)
  | .statusUnfollow userIds => [("user_ids", .ofStrings userIds)]
  | .statusUpdate status => optionalText "status" status
  | .rpc call => Rpc.members call
  | .ping => []

def body (m : Outbound) : Json := .object m.members

end Outbound

end GameLink
