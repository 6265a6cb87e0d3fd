import GameLink.Json.Document
import GameLink.Json.Printer
import GameLink.Text.Base64

/-! # Token claims

A token is three segments with dots between them. Only the middle one is read:
base64url of a JSON object that says when the token expires and whom it
identifies. The signature is the server's business. The first condition that
fails, in the order of the definitions here, is the error.
-/
namespace GameLink

structure Claims where
  /-- Seconds since 1970. -/
  expiresAt : Int
  userId : Option String
  username : Option String
  vars : Option (StringMap String)
deriving DecidableEq

/-- What a claim should have been. -/
inductive ClaimKind
  | number
  | text
  | object
deriving DecidableEq

def ClaimKind.phrase : ClaimKind → String
  | .number => "a number"
  | .text => "a string"
  | .object => "an object"

inductive TokenError
  | segmentCount (n : Nat)
  | emptyClaims
  | encoding
  | notObject
  | missing (claim : String)
  | wrongKind (claim : String) (expected : ClaimKind) (found : Json)
  | variableNotText (key : String)

def TokenError.message : TokenError → String
  | .segmentCount n => "malformed token: expected 3 segments, found " ++ toString n
  | .emptyClaims => "malformed token: empty claims segment"
  | .encoding => "token claims are not valid base64url"
  | .notObject => "token claims are not a JSON object"
  | .missing claim => "token is missing required claim `" ++ claim ++ "`"
  | .wrongKind claim expected found =>
    "invalid `" ++ claim ++ "` claim: expected " ++ expected.phrase ++ ", found " ++ found.render
  | .variableNotText key => "invalid `vrs` claim: variable `" ++ key ++ "` is not a string"

namespace Claims

/-! ## The claims segment -/

/-- Segments between dots; there is always at least one. -/
def segments : List Char → List (List Char)
  | [] => [[]]
  | c :: rest =>
    if c = '.' then [] :: segments rest
    else
      match segments rest with
      | [] => [[c]]
      | s :: more => (c :: s) :: more

/-- Drops the padding that some issuers leave on the segment. -/
def trimPadding (cs : List Char) : List Char := (cs.reverse.dropWhile (· == '=')).reverse

def claimsSegment (token : String) : Except TokenError (List Char) :=
  match segments token.toList with
  | [_, claims, _] =>
    let trimmed := trimPadding claims
    if trimmed.isEmpty then .error .emptyClaims else .ok trimmed
  | segs => .error (.segmentCount segs.length)

def document (segment : List Char) : Except TokenError (Entries Json) :=
  match Base64.decode? .url segment with
  | none => .error .encoding
  | some bytes =>
    match Json.ofBytes? bytes with
    | some (.object members) => .ok members
    | _ => .error .notObject

/-! ## Single claims -/

/-- A claim that is there; null counts as absent. -/
def find? (claim : String) (members : Entries Json) : Option Json :=
  (Entries.find? claim members).filter (fun v => !v.isNull)

/-- Whole seconds of a number, clamped to 64 bits. -/
def seconds : Number → Int
  | .int n => max Decimal.minInt64 (min Decimal.maxInt64 n)
  | .float x => x.truncate

def expiry (members : Entries Json) : Except TokenError Int :=
  match find? "exp" members with
  | none => .error (.missing "exp")
  | some (.number n) => .ok (seconds n)
  | some v => .error (.wrongKind "exp" .number v)

def textClaim (claim : String) (members : Entries Json) : Except TokenError (Option String) :=
  match find? claim members with
  | none => .ok none
  | some (.string s) => .ok (some s)
  | some v => .error (.wrongKind claim .text v)

/-- All members as text, or the first key whose value is not. -/
def textMembers : Entries Json → StringMap String → Except TokenError (StringMap String)
  | [], m => .ok m
  | (k, v) :: rest, m =>
    match v with
    | .string s => textMembers rest (m.insert k s)
    | _ => .error (.variableNotText k)

def variablesClaim (members : Entries Json) : Except TokenError (Option (StringMap String)) :=
  match find? "vrs" members with
  | none => .ok none
  | some (.object vars) => (textMembers vars .empty).map some
  | some v => .error (.wrongKind "vrs" .object v)

def ofMembers (members : Entries Json) : Except TokenError Claims := do
  let expiresAt ← expiry members
  let userId ← textClaim "uid" members
  let username ← textClaim "usn" members
  let vars ← variablesClaim members
  return { expiresAt, userId, username, vars }

/-- The claims of a token. -/
def decode (token : String) : Except TokenError Claims := do
  let segment ← claimsSegment token
  let members ← document segment
  ofMembers members

/-! ## Issuing -/

/-- The document of claims; an absent claim is left out. -/
def toJson (c : Claims) : Json :=
  .object ([("exp", .ofInt c.expiresAt)] ++
    (c.userId.map (fun s => ("uid", Json.string s))).toList ++
    (c.username.map (fun s => ("usn", Json.string s))).toList ++
    (c.vars.map (fun m =>
      ("vrs", Json.object (m.entries.map (fun p => (p.1, Json.string p.2)))))).toList)

/-- A token that carries claims between a header and a signature, with `padding` extra `=`. -/
def encode (c : Claims) (header signature : String) (padding : Nat) : String :=
  header ++ "." ++
    String.ofList (Base64.encode .url (Bytes.ofText c.toJson.render) ++ List.replicate padding '=') ++
    "." ++ signature

end Claims

end GameLink
