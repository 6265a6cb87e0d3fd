import GameLink.Link.Memory

/-! # A bench of links

A dialer, its listener and the links dialed so far, each of which can be worked
from either end while that end exists.
-/
namespace GameLink.Link

structure Bench where
  mode : DialMode := .accept
  listening : Bool := true
  links : List Link := []

namespace Bench

/-- Dials, and keeps the link if there is one. -/
def dial (b : Bench) (url : String) : Bench × Dialed :=
  match b.mode.dial b.listening url with
  | .link l => ({ b with links := b.links ++ [l] }, .link l)
  | d => (b, d)

/-- Works link `i` where `present` says that the end exists. -/
def work {α : Type} (b : Bench) (i : Nat) (present : Link → Bool) (f : Link → Link × α) :
    Bench × Option α :=
  match b.links[i]? with
  | none => (b, none)
  | some l =>
    if present l then ({ b with links := b.links.set i (f l).1 }, some (f l).2) else (b, none)

def onClient {α : Type} (b : Bench) (i : Nat) (f : Link → Link × α) : Bench × Option α :=
  b.work i Link.readerOpen f

def onServer {α : Type} (b : Bench) (i : Nat) (f : Link → Link × α) : Bench × Option α :=
  b.work i Link.serverOpen f

/-- Both halves of the client end go away. -/
def dropClient (l : Link) : Link := l.closeWriter.closeReader

end Bench

end GameLink.Link
