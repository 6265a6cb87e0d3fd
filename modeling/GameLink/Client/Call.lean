import GameLink.Envelope

/-! # Typed operations

Each operation sends one message. Data for a match or a party is sent without
waiting; every other operation waits for its reply, and those with a typed
result read it from the member of the reply that belongs to the operation.
-/
namespace GameLink.Client

inductive Call
  | createMatch (name : Option String)
  | joinMatch (matchId : String) (metadata : StringMap String)
  | joinMatchByToken (token : String)
  | leaveMatch (matchId : String)
  | sendMatchData (data : MatchData)
  | joinChat (target : String) (type : ChannelType) (persistence hidden : Bool)
  | leaveChat (channelId : String)
  | writeChatMessage (channelId : String) (content : Json)
  | createParty (isOpen : Bool) (maxSize : Nat)
  | joinParty (partyId : String)
  | leaveParty (partyId : String)
  | sendPartyData (partyId : String) (opCode : Int) (data : Bytes)
  | addMatchmaker (ticket : MatchmakerTicket)
  | removeMatchmaker (ticket : String)
  | followUsers (userIds usernames : List String)
  | unfollowUsers (userIds : List String)
  | updateStatus (status : Option String)
  | rpc (id : String) (payload : Option String)
  | ping

/-- The result of an operation. -/
inductive Answer
  | nothing
  | envelope (e : Envelope)
  | joinedMatch (m : Reply.Match)
  | channel (c : Reply.Channel)
  | messageAck (a : Reply.MessageAck)
  | party (p : Reply.Party)
  | ticket (t : Reply.Ticket)
  | status (s : Reply.Status)
  | rpc (r : Rpc)

namespace Call

/-- The message that carries the operation. Chat content must be an object. -/
def message : Call → Except Failure Outbound
  | .createMatch name => .ok (.matchCreate name)
  | .joinMatch matchId metadata => .ok (.matchJoin (some matchId) none metadata)
  | .joinMatchByToken token => .ok (.matchJoin none (some token) .empty)
  | .leaveMatch matchId => .ok (.matchLeave matchId)
  | .sendMatchData data => .ok (.matchDataSend data)
  | .joinChat target type persistence hidden => .ok (.channelJoin target type persistence hidden)
  | .leaveChat channelId => .ok (.channelLeave channelId)
  | .writeChatMessage channelId content =>
    if content.isObject then .ok (.channelMessageSend channelId content.render)
    else .error (.decode .chatContent)
  | .createParty isOpen maxSize => .ok (.partyCreate isOpen maxSize)
  | .joinParty partyId => .ok (.partyJoin partyId)
  | .leaveParty partyId => .ok (.partyLeave partyId)
  | .sendPartyData partyId opCode data => .ok (.partyDataSend partyId opCode data)
  | .addMatchmaker ticket => .ok (.matchmakerAdd ticket)
  | .removeMatchmaker ticket => .ok (.matchmakerRemove ticket)
  | .followUsers userIds usernames => .ok (.statusFollow userIds usernames)
  | .unfollowUsers userIds => .ok (.statusUnfollow userIds)
  | .updateStatus status => .ok (.statusUpdate status)
  | .rpc id payload => .ok (.rpc { id := id, payload := payload })
  | .ping => .ok .ping

def awaitsReply : Call → Bool
  | .sendMatchData _ | .sendPartyData _ _ _ => false
  | _ => true

/-- What the operation makes of its reply. -/
def answer (c : Call) (reply : Envelope) : Except Failure Answer :=
  match c with
  | .createMatch _ | .joinMatch _ _ | .joinMatchByToken _ =>
    (reply.payloadAs Reply.Match.reading "match").map .joinedMatch
  | .joinChat _ _ _ _ => (reply.payloadAs Reply.Channel.reading "channel").map .channel
  | .writeChatMessage _ _ =>
    (reply.payloadAs Reply.MessageAck.reading "channel_message_ack").map .messageAck
  | .createParty _ _ => (reply.payloadAs Reply.Party.reading "party").map .party
  | .addMatchmaker _ => (reply.payloadAs Reply.Ticket.reading "matchmaker_ticket").map .ticket
  | .followUsers _ _ => (reply.payloadAs Reply.Status.reading "status").map .status
  | .rpc _ _ => (reply.payloadAs Rpc.reading "rpc").map .rpc
  | _ => .ok .nothing

end Call

end GameLink.Client
