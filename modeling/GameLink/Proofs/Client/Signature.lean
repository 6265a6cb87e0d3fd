import GameLink.Client.Step
import GameLink.Proofs.Json.Layers
import GameLink.Proofs.Message.Outgoing

/-! # Signatures of the typed operations

An operation has a key and the fields of a body of its own, and expects no reply,
any reply, or a value under the key of a reply (`Call.signature`). The message of
an operation is the one of its signature, and what it makes of a reply is what the
signature says (`Expected.Returns`). Chat content is an object in a text of its
own, and comes back from that.
-/
namespace GameLink

/-! ## Values in a text of their own -/

namespace Json

theorem canonicalItems_iff {items : List Json} :
    CanonicalItems items ↔ ∀ v ∈ items, v.Canonical := by
  induction items with
  | nil => simp [CanonicalItems]
  | cons v rest ih => simp [CanonicalItems, ih]

/-- What is in key order is not changed by putting it in key order. -/
theorem sorted_of_canonical {v : Json} (h : v.Canonical) : v.sorted = v := by
  induction v using induction with
  | null | bool | number | string => rfl
  | array items ih =>
    have hitems := canonicalItems_iff.mp h
    rw [sorted, sortedItems_eq_map, List.map_congr_left fun v hv => ih v hv (hitems v hv),
      List.map_id']
  | object members ih =>
    have hmembers := canonicalMembers_iff.mp h.2
    have same : sortedMembers members = members := by
      rw [sortedMembers_eq_map]
      conv_rhs => rw [← List.map_id members]
      exact List.map_congr_left fun m hm => Prod.ext rfl (ih m hm (hmembers m hm))
    rw [sorted, same]
    refine congrArg object (entries_ext (Entries.sorted_ofList members) h.1 fun key => ?_)
    exact find?_ofList key (nodup_keys h.1)

/-- A value without floating point comes back from the text that shows it. -/
theorem ofText?_render {v : Json} (canonical : v.Canonical) (integral : v.Integral)
    (depth : v.depth ≤ Document.maxDepth) : ofText? v.render = some v := by
  rw [ofText?, ofBytes?, Document.ofBytes_render integral]
  dsimp only
  rw [value?_ofJson v depth, sorted_of_canonical canonical]

end Json

namespace Client
open Json.Reading

/-! ## Signatures -/

/-- What an operation expects of its reply. -/
inductive Expected
  /-- It awaits none. -/
  | nothing
  | any
  /-- A value under a key. -/
  | value {α : Type} (key : String) (read : Json.Reading α) (wrap : α → Answer)

structure Signature where
  key : String
  /-- The fields of the body by name, with nothing for those that are left out. -/
  fields : List (String × Option Json)
  expected : Expected

namespace Call

open Outbound (listed mapped texts numbers opCodeText dataText)

def signature : Call → Signature
  | .createMatch name =>
    ⟨"match_create", [("name", name.map .string)], .value "match" Reply.Match.reading .joinedMatch⟩
  | .joinMatch matchId metadata =>
    ⟨"match_join", [("match_id", some (.string matchId)), ("metadata", mapped (texts metadata))],
      .value "match" Reply.Match.reading .joinedMatch⟩
  | .joinMatchByToken token =>
    ⟨"match_join", [("token", some (.string token))],
      .value "match" Reply.Match.reading .joinedMatch⟩
  | .leaveMatch matchId => ⟨"match_leave", [("match_id", some (.string matchId))], .any⟩
  | .sendMatchData d =>
    ⟨"match_data_send",
      [("match_id", some (.string d.matchId)), ("op_code", some (opCodeText d.opCode)),
        ("data", some (dataText d.data)), ("presences", listed (d.presences.map Presence.toJson)),
        ("reliable", some (.bool d.reliable))], .nothing⟩
  | .joinChat target type persistence hidden =>
    ⟨"channel_join",
      [("target", some (.string target)), ("type", some (.ofNat type.code)),
        ("persistence", some (.bool persistence)), ("hidden", some (.bool hidden))],
      .value "channel" Reply.Channel.reading .channel⟩
  | .leaveChat channelId => ⟨"channel_leave", [("channel_id", some (.string channelId))], .any⟩
  | .writeChatMessage channelId content =>
    ⟨"channel_message_send",
      [("channel_id", some (.string channelId)), ("content", some (.string content.render))],
      .value "channel_message_ack" Reply.MessageAck.reading .messageAck⟩
  | .createParty isOpen maxSize =>
    ⟨"party_create", [("open", some (.bool isOpen)), ("max_size", some (.ofNat maxSize))],
      .value "party" Reply.Party.reading .party⟩
  | .joinParty partyId => ⟨"party_join", [("party_id", some (.string partyId))], .any⟩
  | .leaveParty partyId => ⟨"party_leave", [("party_id", some (.string partyId))], .any⟩
  | .sendPartyData partyId opCode data =>
    ⟨"party_data_send",
      [("party_id", some (.string partyId)), ("op_code", some (opCodeText opCode)),
        ("data", some (dataText data))], .nothing⟩
  | .addMatchmaker t =>
    ⟨"matchmaker_add",
      [("min_count", some (.ofNat t.minCount)), ("max_count", some (.ofNat t.maxCount)),
        ("query", some (.string t.query)), ("string_properties", mapped (texts t.stringProperties)),
        ("numeric_properties", mapped (numbers t.numericProperties))],
      .value "matchmaker_ticket" Reply.Ticket.reading .ticket⟩
  | .removeMatchmaker ticket => ⟨"matchmaker_remove", [("ticket", some (.string ticket))], .any⟩
  | .followUsers userIds usernames =>
    ⟨"status_follow",
      [("user_ids", listed (userIds.map .string)), ("usernames", listed (usernames.map .string))],
      .value "status" Reply.Status.reading .status⟩
  | .unfollowUsers userIds => ⟨"status_unfollow", [("user_ids", some (.ofStrings userIds))], .any⟩
  | .updateStatus status => ⟨"status_update", [("status", status.map .string)], .any⟩
  | .rpc id payload =>
    ⟨"rpc", [("id", some (.string id)), ("payload", payload.map .string)],
      .value "rpc" Rpc.reading .rpc⟩
  | .ping => ⟨"ping", [], .any⟩

/-- Chat content is an object. -/
def Proper : Call → Prop
  | .writeChatMessage _ content => content.isObject = true
  | _ => True

end Call

/-- What an operation makes of a reply to it. -/
inductive Expected.Returns (x : Expected) (reply : Envelope) : Result → Prop
  | refused (error : ServerError) (h : reply.error = some error) :
      Returns x reply (.failed (.errorReply error))
  | nothing (h : reply.error = none) (hx : x = .nothing ∨ x = .any) : Returns x reply (.ok .nothing)
  | value {α : Type} (key : String) (read : Json.Reading α) (wrap : α → Answer) (v : Json) (a : α)
      (h : reply.error = none) (hx : x = .value key read wrap)
      (found : Entries.find? key reply.payload = some v) (reads : read.ofJson? v = some a) :
      Returns x reply (.ok (wrap a))
  | missing {α : Type} (key : String) (read : Json.Reading α) (wrap : α → Answer)
      (h : reply.error = none) (hx : x = .value key read wrap)
      (absent : Entries.find? key reply.payload = none) :
      Returns x reply (.failed (.decode (.missingPayload key)))
  | misshapen {α : Type} (key : String) (read : Json.Reading α) (wrap : α → Answer) (v : Json)
      (h : reply.error = none) (hx : x = .value key read wrap)
      (found : Entries.find? key reply.payload = some v) (fails : read.ofJson? v = none) :
      Returns x reply (.failed (.decode (.payload key)))

/-- The value of a reply that is no error. -/
def Expected.answer : Expected → Envelope → Except Failure Answer
  | .value key read wrap, reply => (reply.payloadAs read key).map wrap
  | _, _ => .ok .nothing

namespace Expected

variable {x : Expected} {α : Type} {key : String} {read : Json.Reading α} {wrap : α → Answer}
  {reply : Envelope} {v : Json}

theorem answer_nothing (hx : x = .nothing ∨ x = .any) : x.answer reply = .ok .nothing := by
  rcases hx with rfl | rfl <;> rfl

theorem answer_value {a : α} (found : Entries.find? key reply.payload = some v)
    (reads : read.ofJson? v = some a) : (value key read wrap).answer reply = .ok (wrap a) := by
  simp only [answer, Envelope.payloadAs, found, reads, Except.map]

theorem answer_missing (absent : Entries.find? key reply.payload = none) :
    (value key read wrap).answer reply = .error (.decode (.missingPayload key)) := by
  simp only [answer, Envelope.payloadAs, absent, Except.map]

theorem answer_misshapen (found : Entries.find? key reply.payload = some v)
    (fails : read.ofJson? v = none) :
    (value key read wrap).answer reply = .error (.decode (.payload key)) := by
  simp only [answer, Envelope.payloadAs, found, fails, Except.map]

end Expected

namespace Call

variable {call : Call}

/-! ## Messages and answers -/

theorem message_eq_ok {message : Outbound} (h : call.message = .ok message) :
    message.kind = call.signature.key ∧ message.members = present call.signature.fields := by
  rw [Outbound.members_eq_present]
  cases call with
  | writeChatMessage channelId content =>
    rw [Call.message] at h
    split at h
    · cases h
      exact ⟨rfl, rfl⟩
    · cases h
  | _ =>
    cases h
    exact ⟨rfl, rfl⟩

theorem proper_iff : call.Proper ↔ ∃ message, call.message = .ok message := by
  cases call with
  | writeChatMessage channelId content =>
    rw [Call.message, Proper]
    cases content.isObject <;> simp
  | _ => exact ⟨fun _ => ⟨_, rfl⟩, fun _ => trivial⟩

theorem message_of_not_proper (h : ¬ call.Proper) : call.message = .error (.decode .chatContent) := by
  cases call with
  | writeChatMessage channelId content => exact if_neg h
  | _ => exact absurd trivial h

theorem awaitsReply_iff : call.awaitsReply = true ↔ call.signature.expected ≠ .nothing := by
  cases call <;> simp [awaitsReply, signature]

theorem answer_eq (reply : Envelope) :
    call.answer reply = call.signature.expected.answer reply := by
  cases call <;> rfl

section
variable {reply : Envelope}

theorem conclude_refused {error : ServerError} (h : reply.error = some error) :
    Machine.conclude (.perform call) ((Machine.replyOutcome reply).map .envelope) =
      .failed (.errorReply error) := by
  simp only [Machine.replyOutcome, h, Except.map, Machine.conclude]

theorem conclude_ok {a : Answer} (h : reply.error = none)
    (ha : call.signature.expected.answer reply = .ok a) :
    Machine.conclude (.perform call) ((Machine.replyOutcome reply).map .envelope) = .ok a := by
  rw [← answer_eq] at ha
  simp only [Machine.replyOutcome, h, Except.map, Machine.conclude, ha]

theorem conclude_failed {f : Failure} (h : reply.error = none)
    (hf : call.signature.expected.answer reply = .error f) :
    Machine.conclude (.perform call) ((Machine.replyOutcome reply).map .envelope) = .failed f := by
  rw [← answer_eq] at hf
  simp only [Machine.replyOutcome, h, Except.map, Machine.conclude, hf]

end

/-- What is returned for a reply is what the signature says, and nothing else is. -/
theorem returns_iff {reply : Envelope} {r : Result} :
    call.signature.expected.Returns reply r ↔
      r = Machine.conclude (.perform call) ((Machine.replyOutcome reply).map .envelope) := by
  constructor
  · intro h
    cases h with
    | refused error h => exact (conclude_refused h).symm
    | nothing h hx => exact (conclude_ok h (Expected.answer_nothing hx)).symm
    | value key read wrap v a h hx found reads =>
      exact (conclude_ok h (hx ▸ Expected.answer_value found reads)).symm
    | missing key read wrap h hx absent =>
      exact (conclude_failed h (hx ▸ Expected.answer_missing absent)).symm
    | misshapen key read wrap v h hx found fails =>
      exact (conclude_failed h (hx ▸ Expected.answer_misshapen found fails)).symm
  · rintro rfl
    cases herror : reply.error with
    | some error => exact conclude_refused herror ▸ .refused error herror
    | none =>
      cases hx : call.signature.expected with
      | nothing =>
        rw [conclude_ok herror (Expected.answer_nothing (.inl hx))]
        exact .nothing herror (.inl rfl)
      | any =>
        rw [conclude_ok herror (Expected.answer_nothing (.inr hx))]
        exact .nothing herror (.inr rfl)
      | value key read wrap =>
        cases found : Entries.find? key reply.payload with
        | none =>
          rw [conclude_failed herror (hx ▸ Expected.answer_missing found)]
          exact .missing key read wrap herror rfl found
        | some v =>
          cases reads : read.ofJson? v with
          | none =>
            rw [conclude_failed herror (hx ▸ Expected.answer_misshapen found reads)]
            exact .misshapen key read wrap v herror rfl found reads
          | some a =>
            rw [conclude_ok herror (hx ▸ Expected.answer_value found reads)]
            exact .value key read wrap v a herror rfl found reads

end Call

end Client

end GameLink
