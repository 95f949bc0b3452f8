/-
# JSON tokens

The lexer is a machine that reads one character at a time, so that every text is read to its end
or to the first character that no token allows.  Numbers are natural numbers of at most 64 bits
without leading zeros: a sign, a fraction or an exponent is no part of any token.
-/
import TraceRecorder.Json.Value

namespace TraceRecorder

namespace Json

/-- A token of a JSON text. -/
inductive Token where
  | beginArray
  | endArray
  | beginObject
  | endObject
  | colon
  | comma
  /-- Null, a truth value or a number. -/
  | scalar (v : Json)
  | text (s : String)
  deriving Inhabited

/-- What the lexer is in the middle of.  Characters of a text that were read are kept in reverse
order. -/
inductive LexerState where
  | between
  | word (letters : List Char)
  | number (value : Nat)
  | text (chars : List Char)
  /-- After a backslash. -/
  | escape (chars : List Char)
  /-- In the digits of a code unit, perhaps the second of a pair. -/
  | unit (chars : List Char) (missing value : Nat) (high : Option Nat)
  /-- After the first unit of a pair: a second one must follow. -/
  | pair (chars : List Char) (high : Nat)
  | pairEscape (chars : List Char) (high : Nat)

namespace LexerState

/-- The scalar that a word stands for. -/
def wordToken? (letters : List Char) : Option Token :=
  match String.ofList letters.reverse with
  | "null" => some (.scalar .null)
  | "true" => some (.scalar (.bool true))
  | "false" => some (.scalar (.bool false))
  | _ => none

def isBlank (c : Char) : Bool := c == ' ' || c == '\t' || c == '\n' || c == '\r'

def digit? (c : Char) : Option Nat :=
  if c.isDigit then some (c.toNat - '0'.toNat) else none

/-- The value of a hexadecimal digit. -/
def hexDigit? (c : Char) : Option Nat :=
  if c.isDigit then some (c.toNat - '0'.toNat)
  else if 'a' ≤ c ∧ c ≤ 'f' then some (c.toNat - 'a'.toNat + 10)
  else if 'A' ≤ c ∧ c ≤ 'F' then some (c.toNat - 'A'.toNat + 10)
  else none

/-- A character between tokens. -/
def stepBetween (c : Char) : Option (List Token × LexerState) :=
  if isBlank c then some ([], between)
  else match digit? c with
    | some d => some ([], number d)
    | none =>
      match c with
      | '[' => some ([.beginArray], between)
      | ']' => some ([.endArray], between)
      | '\x7b' => some ([.beginObject], between)
      | '\x7d' => some ([.endObject], between)
      | ':' => some ([.colon], between)
      | ',' => some ([.comma], between)
      | '"' => some ([], text [])
      | c => if c.isLower then some ([], word [c]) else none

/-- A token ends in front of a character that is no part of it. -/
def stepAfter (token : Token) (c : Char) : Option (List Token × LexerState) :=
  (stepBetween c).map fun next => (token :: next.1, next.2)

/-- The character that a simple escape stands for. -/
def escaped? (c : Char) : Option Char :=
  match c with
  | '"' => some '"'
  | '\\' => some '\\'
  | '/' => some '/'
  | 'b' => some '\x08'
  | 'f' => some '\x0c'
  | 'n' => some '\n'
  | 'r' => some '\r'
  | 't' => some '\t'
  | _ => none

/-- **A code unit of four digits is complete.**  The first half of a pair must be followed by the
second, and neither may stand alone. -/
def endUnit (chars : List Char) (value : Nat) (high : Option Nat) : Option LexerState :=
  let isHigh := 0xD800 ≤ value ∧ value < 0xDC00
  let isLow := 0xDC00 ≤ value ∧ value < 0xE000
  match high with
  | some h =>
    if isLow then
      some (text (Char.ofNat (0x10000 + (h - 0xD800) * 0x400 + (value - 0xDC00)) :: chars))
    else none
  | none =>
    if isHigh then some (pair chars value)
    else if isLow then none
    else some (text (Char.ofNat value :: chars))

/-- One character further: the tokens that end here, and the next state. -/
def step (state : LexerState) (c : Char) : Option (List Token × LexerState) :=
  match state with
  | between => stepBetween c
  | word letters =>
    if c.isLower then some ([], word (c :: letters))
    else (wordToken? letters).bind fun token => stepAfter token c
  | number value =>
    match digit? c with
    | some d =>
      if value ≠ 0 ∧ 10 * value + d < UInt64.size then some ([], number (10 * value + d)) else none
    | none => stepAfter (.scalar (.number value)) c
  | text chars =>
    if c = '"' then some ([.text (String.ofList chars.reverse)], between)
    else if c = '\\' then some ([], escape chars)
    else if c.toNat < 0x20 then none
    else some ([], text (c :: chars))
  | escape chars =>
    if c = 'u' then some ([], unit chars 4 0 none)
    else (escaped? c).map fun e => ([], text (e :: chars))
  | unit chars missing value high =>
    (hexDigit? c).bind fun d =>
      let value := 16 * value + d
      if missing ≤ 1 then (endUnit chars value high).map fun next => ([], next)
      else some ([], unit chars (missing - 1) value high)
  | pair chars high => if c = '\\' then some ([], pairEscape chars high) else none
  | pairEscape chars high => if c = 'u' then some ([], unit chars 4 0 (some high)) else none

/-- The tokens that end with the text, if it may end here. -/
def finish (state : LexerState) : Option (List Token) :=
  match state with
  | between => some []
  | word letters => (wordToken? letters).map fun token => [token]
  | number value => some [.scalar (.number value)]
  | _ => none

end LexerState

/-- The tokens of the characters that follow a state. -/
def tokensFrom (state : LexerState) : List Char → Option (List Token)
  | [] => state.finish
  | c :: rest =>
    (state.step c).bind fun next => (tokensFrom next.2 rest).map fun more => next.1 ++ more

/-- **The tokens of a text.** -/
def tokens (text : String) : Option (List Token) := tokensFrom .between text.toList

end Json

end TraceRecorder
