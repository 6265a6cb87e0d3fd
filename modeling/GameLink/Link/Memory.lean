import GameLink.Failure
import GameLink.Text.Bytes
import GameLink.Json.Document
import GameLink.Json.Printer

/-! # Links in memory

A link is two queues, one each way, with a client end in two halves and a
server end. What the server has sent stays readable after the server end is
gone; then the client reads the end. The server end decides whether writes
arrive, fail or never complete.
-/
namespace GameLink

/-- What the server puts on the way to the client. -/
inductive ServerFrame
  | data (bytes : Bytes)
  | fail (reason : String)
deriving DecidableEq

inductive WriteMode
  | deliver
  | reject (reason : String)
  | stall
deriving DecidableEq

structure Link where
  url : String
  /-- Frames written by the client that the server has not read. -/
  toServer : List String := []
  /-- Frames sent by the server that the client has not read. -/
  toClient : List ServerFrame := []
  mode : WriteMode := .deliver
  /-- The client's write half can still send. -/
  writerOpen : Bool := true
  /-- The client's read half still exists. -/
  readerOpen : Bool := true
  /-- The server end still exists. -/
  serverOpen : Bool := true
deriving DecidableEq

namespace Link

/-! ## Client end -/

/-- How a write ends, if it does. -/
inductive Written
  | sent
  | failed (failure : Failure)
  | stalls
deriving DecidableEq

def write (l : Link) (frame : String) : Link × Written :=
  if !l.writerOpen then (l, .failed (.transport "link closed"))
  else
    match l.mode with
    | .reject reason => (l, .failed (.transport reason))
    | .stall => (l, .stalls)
    | .deliver =>
      if l.serverOpen then ({ l with toServer := l.toServer ++ [frame] }, .sent)
      else (l, .failed (.transport "link closed by peer"))

def closeWriter (l : Link) : Link := { l with writerOpen := false }

def closeReader (l : Link) : Link := { l with readerOpen := false, toClient := [] }

/-- What the client finds when it reads. -/
inductive Received
  | frame (bytes : Bytes)
  | failed (failure : Failure)
  | closed
  | nothing
deriving DecidableEq

def receive (l : Link) : Link × Received :=
  match l.toClient with
  | .data bytes :: rest => ({ l with toClient := rest }, .frame bytes)
  | .fail reason :: rest => ({ l with toClient := rest }, .failed (.transport reason))
  | [] => (l, if l.serverOpen then .nothing else .closed)

/-! ## Server end -/

/-- What the server finds when it reads. -/
inductive Taken
  | frame (text : String)
  | closed
  | nothing
deriving DecidableEq

def take (l : Link) : Link × Taken :=
  match l.toServer with
  | text :: rest => ({ l with toServer := rest }, .frame text)
  | [] => (l, if l.writerOpen then .nothing else .closed)

/-- Puts a frame on the way; false when nobody can read it. -/
def push (l : Link) (f : ServerFrame) : Link × Bool :=
  if l.readerOpen then ({ l with toClient := l.toClient ++ [f] }, true) else (l, false)

def send (l : Link) (bytes : Bytes) : Link × Bool := l.push (.data bytes)

def sendJson (l : Link) (v : Json) : Link × Bool := l.send (Bytes.ofText v.render)

/-- A reply body with the id of the request; a body that is no object stays as it is. -/
def replyBody (request body : Json) : Json :=
  match request.get? "cid", body with
  | some cid, .object members => .object (Entries.insert "cid" cid members)
  | _, body => body

def fail (l : Link) (reason : String) : Link := (l.push (.fail reason)).1

def setMode (l : Link) (mode : WriteMode) : Link := { l with mode := mode }

/-- The server end goes away with what it has not read. -/
def closeServer (l : Link) : Link := { l with serverOpen := false, toServer := [] }

end Link

/-! ## Dialing -/

inductive DialMode
  | accept
  | refuse (reason : String)
  | hang
deriving DecidableEq

/-- How a dial ends, if it does. -/
inductive Dialed
  | link (l : Link)
  | failed (failure : Failure)
  | hangs
deriving DecidableEq

/-- A dial of `url` to a listener that may be gone. -/
def DialMode.dial (mode : DialMode) (listening : Bool) (url : String) : Dialed :=
  match mode with
  | .refuse reason => .failed (.connection reason)
  | .hang => .hangs
  | .accept => if listening then .link { url := url } else .failed (.connection "listener dropped")

end GameLink
