import GameLink.Envelope

/-! # Events

What the application hears about a link. Connecting and disconnecting are
lifecycle events and are never dropped on the way.
-/
namespace GameLink

inductive Event
  | connected
  | disconnected (cause : Cause)
  | push (e : Envelope)
  | undecodable (frame : Bytes)
  | serverError (failure : Failure)
  | heartbeatTimeout

namespace Event

def name : Event → String
  | .connected => "connected"
  | .disconnected _ => "disconnected"
  | .push _ => "push"
  | .undecodable _ => "undecodable"
  | .serverError _ => "server_error"
  | .heartbeatTimeout => "heartbeat_timeout"

def isLifecycle : Event → Bool
  | .connected | .disconnected _ => true
  | _ => false

end Event

end GameLink
