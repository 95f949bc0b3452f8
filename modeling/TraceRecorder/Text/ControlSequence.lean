/-
# Control sequences

A text can hold sequences that a terminal obeys and does not show: the escape character with a
letter, with a bracket and parameters, or with a text of its own.  A `State` is how far into such
a sequence a reader is, and `visible` is what the reader shows.
-/
namespace TraceRecorder

namespace ControlSequence

/-! ## 1. Characters -/

/-- The character's number is in a range, both ends included. -/
def isWithin (c : Char) (low high : Nat) : Bool := low ≤ c.toNat && c.toNat ≤ high

/-- A control character that arranges text: a tab, or the end of a line or a page. -/
def isLayout (c : Char) : Bool := c == '\t' || c == '\n' || c == '\x0c' || c == '\r'

def isShown (c : Char) : Bool := isLayout c || (0x20 ≤ c.toNat && c != '\x7f')

/-- One of the bytes of the character is the one that ends strings. -/
def endsString (c : Char) : Bool := (String.utf8EncodeChar c).contains 0x9c

/-! ## 2. States -/

/-- How far into a sequence a reader is. -/
inductive State where
  /-- In no sequence. -/
  | text
  /-- Behind the escape character. -/
  | escape
  /-- In front of the last character of an escape sequence. -/
  | escapeEnd
  /-- Behind the escape character and a bracket, among parameters. -/
  | control
  /-- In a command to the system that shows the terminal. -/
  | command
  /-- In front of the parameters of a command to a device. -/
  | device
  /-- Among them. -/
  | deviceParameters
  /-- In front of the text of a command to a device. -/
  | deviceEnd
  /-- In a text that is not for the reader. -/
  | string
  deriving DecidableEq, Repr

namespace State

/-- **The character is shown.**  What arranges text is shown inside a short sequence too, and
breaks it off. -/
def shows (s : State) (c : Char) : Bool :=
  match s with
  | text => isShown c
  | escape | escapeEnd | control => isLayout c
  | command | device | deviceParameters | deviceEnd | string => false

/-- The state behind the escape character and one more. -/
def ofEscaped (c : Char) : State :=
  match c with
  | '[' => control
  | ']' => command
  | 'P' => device
  | 'X' | '^' | '_' => string
  | c => if isWithin c 0x20 0x2f then escapeEnd else if isWithin c 0x30 0x7e then text else escape

/-- **The state behind a character.**  The escape character begins a sequence anywhere, and two
others cancel one. -/
def next (s : State) (c : Char) : State :=
  if c == '\x1b' then escape
  else if c == '\x18' || c == '\x1a' || s.shows c then text
  else
    match s with
    | text => text
    | escape => ofEscaped c
    | escapeEnd => if isWithin c 0x30 0x7e then text else escapeEnd
    | control => if isWithin c 0x40 0x7e then text else control
    | command => if c == '\x07' then text else command
    | device =>
      if isWithin c 0x20 0x2f then deviceEnd
      else if isWithin c 0x30 0x3f then deviceParameters
      else if isWithin c 0x40 0x7e then string
      else device
    | deviceParameters =>
      if isWithin c 0x20 0x2f then deviceEnd
      else if isWithin c 0x3c 0x7e then string
      else deviceParameters
    | deviceEnd => if isWithin c 0x30 0x7e then string else deviceEnd
    | string => if endsString c then text else string

end State

/-! ## 3. What is shown of a text -/

/-- What a reader has shown, from the last character to the first, and the state that it is
in. -/
structure Reading where
  state : State := .text
  shown : List Char := []
  deriving DecidableEq, Repr

def Reading.read (r : Reading) (c : Char) : Reading :=
  { state := r.state.next c
    shown := if r.state.shows c then c :: r.shown else r.shown }

/-- **What is shown of a text.**  A sequence that is not complete is not shown either. -/
def visible (text : String) : String :=
  String.ofList (text.toList.foldl Reading.read {}).shown.reverse

end ControlSequence

end TraceRecorder
