import GameLink.Entries
import GameLink.Settings.Basic

/-! # Failures

Every operation of the client ends in a value or in exactly one of these
causes. The same cause reaches the caller, the events and the log, each of
which shows it by `message`.
-/
namespace GameLink

/-- What could not be decoded. -/
inductive DecodeFault
  /-- A frame that is no envelope. -/
  | frame
  | missingPayload (key : String)
  | payload (key : String)
  | chatContent
  | other (text : String)
deriving DecidableEq

def DecodeFault.message : DecodeFault → String
  | .frame => "envelope"
  | .missingPayload key => "message has no `" ++ key ++ "` payload"
  | .payload key => "`" ++ key ++ "` payload"
  | .chatContent => "chat content must be a JSON object"
  | .other text => text

/-- The body of an error that the server sends. -/
structure ServerError where
  code : Int := 0
  message : String := ""
  context : StringMap String := .empty
deriving DecidableEq

inductive Failure
  | decode (fault : DecodeFault)
  | notConnected
  | connection (reason : String)
  | transport (reason : String)
  | timeout (cid : String) (ms : Nat)
  | errorReply (error : ServerError)
  | heartbeatTimeout
  | settings (reason : String)
deriving DecidableEq

namespace Failure

def message : Failure → String
  | .decode fault => "decode error: " ++ fault.message
  | .notConnected => "not connected"
  | .connection reason => "connection failed: " ++ reason
  | .transport reason => "transport error: " ++ reason
  | .timeout cid ms => "request " ++ cid ++ " timed out after " ++ toString ms ++ "ms"
  | .errorReply e => "server error " ++ toString e.code ++ ": " ++ e.message
  | .heartbeatTimeout => "heartbeat timed out"
  | .settings reason => "invalid settings: " ++ reason

/-- Whether the server said so. -/
def isServerError : Failure → Bool
  | .errorReply _ => true
  | _ => false

def ofInvalid (i : Settings.Invalid) : Failure := .settings i.message

/-- Connecting reports every failure as a failed connection. -/
def asConnection : Failure → Failure
  | .connection reason => .connection reason
  | f => .connection f.message

end Failure

/-- Why a link went away. -/
inductive Cause
  | user
  | remote
  | error (failure : Failure)
  | heartbeat
deriving DecidableEq

namespace Cause

def message : Cause → String
  | .user => "closed by user"
  | .remote => "closed by server"
  | .error f => "link error: " ++ f.message
  | .heartbeat => "heartbeat timed out"

/-- What waiting calls end with when the link goes away. -/
def failure : Cause → Failure
  | .heartbeat => .heartbeatTimeout
  | .error f => f
  | .user | .remote => .notConnected

end Cause

end GameLink
