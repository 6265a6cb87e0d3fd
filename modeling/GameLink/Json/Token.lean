import GameLink.Text.Bytes
import GameLink.Binary64.Numeral

/-! # JSON tokens

A text is a sequence of tokens with blanks between them. The scanner looks at
one byte at a time and keeps what it has of the token it is in; a byte that
cannot continue a number ends it. Where no token can go on the sequence ends
with `malformed`, so everything before the first fault is still there to be
read. A text token keeps its bytes as written: only a reader that needs the
text resolves escapes.
-/
namespace GameLink.Json

inductive Token
  | openArray
  | closeArray
  | openObject
  | closeObject
  | comma
  | colon
  | null
  | bool (b : Bool)
  | number (n : Numeral)
  | text (raw : Bytes)
  | malformed
deriving DecidableEq

namespace Token

/-- The part of a number that comes next or is being read. -/
inductive NumberPart
  | sign
  | zero
  | whole
  | point
  | fraction
  | mark
  | powerSign
  | power
deriving DecidableEq

/-- Where the scanner stands in a text token. -/
inductive TextPart
  | plain
  | escape
  | hex (left : Nat)
deriving DecidableEq

/-- What the scanner is in the middle of. The digits and bytes read so far are kept newest
first; after a fault nothing more is read. -/
inductive Mode
  | between
  | word (next : UInt8) (more : Bytes) (token : Token)
  | numeral (part : NumberPart) (n : Numeral)
  | text (part : TextPart) (raw : Bytes)
  | fault
deriving DecidableEq

def isBlank (b : UInt8) : Bool := b == 0x20 || b == 0x09 || b == 0x0A || b == 0x0D

def isDigit (b : UInt8) : Bool := 0x30 ≤ b && b ≤ 0x39

def digit (b : UInt8) : Nat := b.toNat - 48

def isHex (b : UInt8) : Bool :=
  isDigit b || (0x61 ≤ b && b ≤ 0x66) || (0x41 ≤ b && b ≤ 0x46)

/-- The letters that follow a backslash, `u` apart. -/
def isShortEscape (b : UInt8) : Bool :=
  b == 0x22 || b == 0x5C || b == 0x2F || b == 0x62 || b == 0x66 || b == 0x6E || b == 0x72 || b == 0x74

/-- The numeral with its digits in reading order. -/
def finishNumeral (n : Numeral) : Token :=
  .number { n with
    whole := n.whole.reverse
    fraction := n.fraction.reverse
    power := n.power.map (fun p => (p.1, p.2.reverse)) }

def startNumeral (negative : Bool) (ds : List Nat) : Numeral := ⟨negative, ds, [], none⟩

/-- A byte outside any token: the token it is, if any, and what it starts. -/
def start (b : UInt8) : List Token × Mode :=
  if isBlank b then ([], .between)
  else if b == 0x5B then ([openArray], .between)
  else if b == 0x5D then ([closeArray], .between)
  else if b == 0x7B then ([openObject], .between)
  else if b == 0x7D then ([closeObject], .between)
  else if b == 0x2C then ([comma], .between)
  else if b == 0x3A then ([colon], .between)
  else if b == 0x22 then ([], .text .plain [])
  else if b == 0x6E then ([], .word 0x75 [0x6C, 0x6C] null)
  else if b == 0x74 then ([], .word 0x72 [0x75, 0x65] (bool true))
  else if b == 0x66 then ([], .word 0x61 [0x6C, 0x73, 0x65] (bool false))
  else if b == 0x2D then ([], .numeral .sign (startNumeral true []))
  else if b == 0x30 then ([], .numeral .zero (startNumeral false [0]))
  else if isDigit b then ([], .numeral .whole (startNumeral false [digit b]))
  else ([], .fault)

/-- A number has ended before `b`. -/
def endNumeral (n : Numeral) (b : UInt8) : List Token × Mode :=
  (finishNumeral n :: (start b).1, (start b).2)

def addPower (n : Numeral) (d : Nat) : Numeral :=
  { n with power := n.power.map (fun p => (p.1, d :: p.2)) }

def startPower (n : Numeral) (below : Bool) : Numeral := { n with power := some (below, []) }

/-- After the integer part, where a point may follow, or after the fraction. -/
def afterDigits (n : Numeral) (point : Bool) (b : UInt8) : List Token × Mode :=
  if point && b == 0x2E then ([], .numeral .point n)
  else if b == 0x65 || b == 0x45 then ([], .numeral .mark (startPower n false))
  else endNumeral n b

def stepNumeral (part : NumberPart) (n : Numeral) (b : UInt8) : List Token × Mode :=
  match part with
  | .sign =>
    if b == 0x30 then ([], .numeral .zero { n with whole := [0] })
    else if isDigit b then ([], .numeral .whole { n with whole := [digit b] })
    else ([], .fault)
  | .zero => if isDigit b then ([], .fault) else afterDigits n true b
  | .whole =>
    if isDigit b then ([], .numeral .whole { n with whole := digit b :: n.whole })
    else afterDigits n true b
  | .point =>
    if isDigit b then ([], .numeral .fraction { n with fraction := [digit b] }) else ([], .fault)
  | .fraction =>
    if isDigit b then ([], .numeral .fraction { n with fraction := digit b :: n.fraction })
    else afterDigits n false b
  | .mark =>
    if b == 0x2B then ([], .numeral .powerSign n)
    else if b == 0x2D then ([], .numeral .powerSign (startPower n true))
    else if isDigit b then ([], .numeral .power (addPower n (digit b)))
    else ([], .fault)
  | .powerSign => if isDigit b then ([], .numeral .power (addPower n (digit b))) else ([], .fault)
  | .power =>
    if isDigit b then ([], .numeral .power (addPower n (digit b))) else endNumeral n b

def stepText (part : TextPart) (raw : Bytes) (b : UInt8) : List Token × Mode :=
  match part with
  | .plain =>
    if b == 0x22 then ([text raw.reverse], .between)
    else if b == 0x5C then ([], .text .escape (b :: raw))
    else if b < 0x20 then ([], .fault)
    else ([], .text .plain (b :: raw))
  | .escape =>
    if isShortEscape b then ([], .text .plain (b :: raw))
    else if b == 0x75 then ([], .text (.hex 4) (b :: raw))
    else ([], .fault)
  | .hex left =>
    if isHex b then ([], .text (if left ≤ 1 then .plain else .hex (left - 1)) (b :: raw))
    else ([], .fault)

def stepWord (next : UInt8) (more : Bytes) (token : Token) (b : UInt8) : List Token × Mode :=
  if b == next then
    match more with
    | [] => ([token], .between)
    | next :: more => ([], .word next more token)
  else ([], .fault)

def step (mode : Mode) (b : UInt8) : List Token × Mode :=
  match mode with
  | .between => start b
  | .word next more token => stepWord next more token b
  | .numeral part n => stepNumeral part n b
  | .text part raw => stepText part raw b
  | .fault => ([], .fault)

/-- The end of the text: a number may end here, no other token can. -/
def finish : Mode → List Token
  | .between => []
  | .numeral .zero n | .numeral .whole n | .numeral .fraction n | .numeral .power n =>
    [finishNumeral n]
  | _ => [malformed]

def scanFrom : Mode → Bytes → List Token
  | mode, [] => finish mode
  | mode, b :: rest => (step mode b).1 ++ scanFrom (step mode b).2 rest

def scan (bytes : Bytes) : List Token := scanFrom .between bytes

end Token

end GameLink.Json
