import GameLink.Settings.Basic
import GameLink.Json.Reading
import GameLink.Json.Printer

/-! # Settings as JSON

Fields are written in declaration order under camel-case names. Every field may
be missing and then keeps its default.
-/
namespace GameLink.Settings

open Json.Reading

def Server.toJson (s : Server) : Json :=
  .object [("host", .string s.host), ("port", .ofNat s.port.toNat), ("useSsl", .bool s.useSsl),
    ("lang", .string s.lang)]

def Realtime.toJson (r : Realtime) : Json :=
  .object [("connectTimeoutMs", .ofNat r.connectTimeout.toNat),
    ("sendTimeoutMs", .ofNat r.sendTimeout.toNat),
    ("requestTimeoutMs", .ofNat r.requestTimeout.toNat),
    ("heartbeatIntervalMs", .ofNat r.heartbeatInterval.toNat),
    ("appearOnline", .bool r.appearOnline),
    ("eventBufferSize", .ofNat r.eventBufferSize.toNat)]

/-- The document in the order it is written. -/
def toJson (s : Settings) : Json :=
  .object [("server", s.server.toJson), ("realtime", s.realtime.toJson)]

def toText (s : Settings) : String := s.toJson.render

/-! ## Reading -/

def uint16 : Json.Reading UInt16 := fun d => (natural 65535 d).map UInt16.ofNat

def uint64 : Json.Reading UInt64 := fun d => (natural Decimal.maxUInt64 d).map UInt64.ofNat

def serverFields : List (Slot Server) :=
  [field "host" text (fun s v => { s with host := v }),
    field "port" uint16 (fun s v => { s with port := v }),
    field "useSsl" flag (fun s v => { s with useSsl := v }),
    field "lang" text (fun s v => { s with lang := v })]

def realtimeFields : List (Slot Realtime) :=
  [field "connectTimeoutMs" uint64 (fun r v => { r with connectTimeout := v }),
    field "sendTimeoutMs" uint64 (fun r v => { r with sendTimeout := v }),
    field "requestTimeoutMs" uint64 (fun r v => { r with requestTimeout := v }),
    field "heartbeatIntervalMs" uint64 (fun r v => { r with heartbeatInterval := v }),
    field "appearOnline" flag (fun r v => { r with appearOnline := v }),
    field "eventBufferSize" uint64 (fun r v => { r with eventBufferSize := v })]

def fields : List (Slot Settings) :=
  [field "server" (record serverFields {}) (fun s v => { s with server := v }),
    field "realtime" (record realtimeFields {}) (fun s v => { s with realtime := v })]

def reading : Json.Reading Settings := record fields {}

/-- Settings straight from a text. -/
def ofBytes (bytes : Bytes) : Except Json.Fault Settings := Json.Reading.ofBytes reading bytes

def ofJson? (v : Json) : Option Settings := Json.Reading.ofJson? reading v

end GameLink.Settings
