import GameLink.Json.Reading

/-! # Presences

A user connected to a match, channel, party or status stream.
-/
namespace GameLink

open Json.Reading

structure Presence where
  userId : String := ""
  sessionId : String := ""
  username : String := ""
  persistence : Bool := false
  status : Option String := none
deriving DecidableEq

namespace Presence

/-- An absent status is left out. -/
def toJson (p : Presence) : Json :=
  .object ([("user_id", .string p.userId), ("session_id", .string p.sessionId),
    ("username", .string p.username), ("persistence", .bool p.persistence)] ++
    (p.status.map (fun s => ("status", Json.string s))).toList)

def reading : Json.Reading Presence :=
  record
    [field "user_id" text (fun p v => { p with userId := v }),
      field "session_id" text (fun p v => { p with sessionId := v }),
      field "username" text (fun p v => { p with username := v }),
      field "persistence" flag (fun p v => { p with persistence := v }),
      field "status" (optional text) (fun p v => { p with status := v })]
    {}

end Presence

end GameLink
