/-! # Client settings

Where the server is and how long the link waits. Times are milliseconds.
`validate` names the first value that would make a client unusable.
-/
namespace GameLink

namespace Settings

structure Server where
  host : String := "127.0.0.1"
  port : UInt16 := 7350
  useSsl : Bool := false
  lang : String := "en"
deriving DecidableEq

structure Realtime where
  connectTimeout : UInt64 := 10000
  sendTimeout : UInt64 := 10000
  requestTimeout : UInt64 := 10000
  heartbeatInterval : UInt64 := 10000
  appearOnline : Bool := true
  eventBufferSize : UInt64 := 256
deriving DecidableEq

end Settings

structure Settings where
  server : Settings.Server := {}
  realtime : Settings.Realtime := {}
deriving DecidableEq

namespace Settings

instance : Inhabited Settings := ⟨{}⟩

/-- Why settings cannot be used. -/
inductive Invalid
  | emptyHost
  | zeroPort
  | zeroDuration (name : String)
  | zeroEventBuffer
  | other (reason : String)
deriving DecidableEq

def Invalid.reason : Invalid → String
  | .emptyHost => "server.host is empty"
  | .zeroPort => "server.port must be non-zero"
  | .zeroDuration name => name ++ " must be positive"
  | .zeroEventBuffer => "realtime.eventBufferSize must be positive"
  | .other reason => reason

def Invalid.message (i : Invalid) : String := "invalid settings value: " ++ i.reason

/-- The durations that must be positive, in the order they are checked. -/
def durations (s : Settings) : List (String × UInt64) :=
  [("realtime.connectTimeoutMs", s.realtime.connectTimeout),
    ("realtime.sendTimeoutMs", s.realtime.sendTimeout),
    ("realtime.requestTimeoutMs", s.realtime.requestTimeout),
    ("realtime.heartbeatIntervalMs", s.realtime.heartbeatInterval)]

def invalid? (s : Settings) : Option Invalid :=
  if s.server.host.isEmpty then some .emptyHost
  else if s.server.port = 0 then some .zeroPort
  else
    match s.durations.find? (fun d => d.2 == 0) with
    | some (name, _) => some (.zeroDuration name)
    | none => if s.realtime.eventBufferSize = 0 then some .zeroEventBuffer else none

def validate (s : Settings) : Except Invalid Unit :=
  match s.invalid? with
  | some i => .error i
  | none => .ok ()

def Server.scheme (s : Server) : String := if s.useSsl then "wss" else "ws"

end Settings

end GameLink
