import GameLink.Settings.Basic
import GameLink.Text.Percent

/-! # The address of a link

`<scheme>://<host>:<port>/ws?lang=<lang>&status=<flag>&token=<token>`, language
and token escaped so that neither can add or end a parameter. The token is the
last parameter, so the address for a log is the one of an empty token with a
mark after it.
-/
namespace GameLink.Link

def flagText (b : Bool) : String := if b then "true" else "false"

def query (lang : String) (appearOnline : Bool) (token : String) : String :=
  "lang=" ++ Percent.encodeText lang ++ "&status=" ++ flagText appearOnline ++ "&token=" ++
    Percent.encodeText token

def address (server : Settings.Server) (token : String) (appearOnline : Bool) : String :=
  server.scheme ++ "://" ++ server.host ++ ":" ++ toString server.port.toNat ++ "/ws?" ++
    query server.lang appearOnline token

/-- The address with the token masked. -/
def redactedAddress (server : Settings.Server) (appearOnline : Bool) : String :=
  address server "" appearOnline ++ "<redacted>"

end GameLink.Link
