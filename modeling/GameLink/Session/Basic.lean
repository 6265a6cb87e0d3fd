import GameLink.Session.Claims
import GameLink.Json.Reading
import GameLink.Text.Quoted
import GameLink.Log

/-! # Sessions

A session is what the client knows from its tokens. New tokens are decoded
before anything changes, so a bad pair leaves the session as it was. Claims
that a token does not carry keep their last value; the refresh token gives only
its expiry. Times are 64-bit seconds, and arithmetic that leaves that range is
a fault of its own.
-/
namespace GameLink

/-- 64-bit arithmetic out of range. -/
inductive Overflow
  | subtraction
  | addition
deriving DecidableEq

def Overflow.message : Overflow → String
  | .subtraction => "attempt to subtract with overflow"
  | .addition => "attempt to add with overflow"

namespace Overflow

def inRange (n : Int) : Bool := Decimal.minInt64 ≤ n && n ≤ Decimal.maxInt64

def sub (a b : Int) : Except Overflow Int :=
  if inRange (a - b) then .ok (a - b) else .error .subtraction

def add (a b : Int) : Except Overflow Int :=
  if inRange (a + b) then .ok (a + b) else .error .addition

end Overflow

structure Session where
  token : String
  refreshToken : String
  expiresAt : Int
  refreshExpiresAt : Int
  createdAt : Int
  created : Bool
  userId : String
  username : String
  vars : StringMap String
deriving DecidableEq

namespace Session

def blank (created : Bool) (now : Int) : Session :=
  ⟨"", "", 0, 0, now, created, "", "", .empty⟩

/-- Claims of the refresh token; an empty one is no token. -/
def refreshClaims (refreshToken : String) : Except TokenError (Option Claims) :=
  if refreshToken.isEmpty then .ok none else (Claims.decode refreshToken).map some

/-- The session after a token pair with these claims. -/
def absorb (s : Session) (token refreshToken : String) (access : Claims) (refresh : Option Claims) :
    Session :=
  { s with
    token := token
    expiresAt := access.expiresAt
    userId := access.userId.getD s.userId
    username := access.username.getD s.username
    vars := access.vars.getD s.vars
    refreshToken := if refresh.isSome then refreshToken else s.refreshToken
    refreshExpiresAt := (refresh.map Claims.expiresAt).getD s.refreshExpiresAt }

def apply (s : Session) (token refreshToken : String) : Except TokenError Session := do
  let access ← Claims.decode token
  let refresh ← refreshClaims refreshToken
  return s.absorb token refreshToken access refresh

/-- The record written whenever tokens are applied. -/
def appliedNote (s : Session) : Log.Entry :=
  Log.debug "session tokens applied"
    [("user_id", s.userId), ("expires_at", toString s.expiresAt),
      ("refresh_expires_at", toString s.refreshExpiresAt)]

/-- A session over freshly issued tokens. -/
def start (token refreshToken : String) (created : Bool) (now : Int) : Except TokenError Session :=
  (blank created now).apply token refreshToken

/-- A session over tokens that were kept. -/
def restore (token refreshToken : String) (now : Int) : Except TokenError Session :=
  start token refreshToken false now

/-! ## Expiry -/

def accessExpired (s : Session) (now : Int) : Except Overflow Bool :=
  (Overflow.sub s.expiresAt now).map (· < 0)

def refreshExpired (s : Session) (now : Int) : Except Overflow Bool :=
  (Overflow.sub s.refreshExpiresAt now).map (· < 0)

/-- Whether the access token expires within `buffer` seconds. -/
def shouldRefresh (s : Session) (now buffer : Int) : Except Overflow Bool :=
  (Overflow.add now buffer).map (s.expiresAt ≤ ·)

def expiresIn (s : Session) (now : Int) : Except Overflow Int := Overflow.sub s.expiresAt now

/-! ## Keeping tokens -/

/-- What has to be kept to restore a session. -/
structure Tokens where
  token : String
  refreshToken : String
deriving DecidableEq

def tokens (s : Session) : Tokens := ⟨s.token, s.refreshToken⟩

def Tokens.toJson (t : Tokens) : Json :=
  .object [("token", .string t.token), ("refreshToken", .string t.refreshToken)]

def Tokens.toText (t : Tokens) : String := t.toJson.render

def Tokens.reading : Json.Reading Tokens :=
  Json.Reading.record
    [Json.Reading.requiredField "token" Json.Reading.text (fun t v => { t with token := v }),
      Json.Reading.requiredField "refreshToken" Json.Reading.text
        (fun t v => { t with refreshToken := v })]
    ⟨"", ""⟩

def Tokens.ofText (text : String) : Except Json.Fault Tokens :=
  Json.Reading.ofBytes Tokens.reading (Bytes.ofText text)

/-! ## Showing a session -/

def showVariables (m : StringMap String) : String :=
  "\x7b" ++ ", ".intercalate (m.entries.map (fun p => Text.quoted p.1 ++ ": " ++ Text.quoted p.2)) ++
    "\x7d"

/-- The session without its tokens, which are credentials. -/
def describe (s : Session) : String :=
  "Session \x7b user_id: " ++ Text.quoted s.userId ++
    ", username: " ++ Text.quoted s.username ++
    ", expires_at: " ++ toString s.expiresAt ++
    ", refresh_expires_at: " ++ toString s.refreshExpiresAt ++
    ", created_at: " ++ toString s.createdAt ++
    ", created: " ++ toString s.created ++
    ", variables: " ++ showVariables s.vars ++ ", .. \x7d"

end Session

end GameLink
