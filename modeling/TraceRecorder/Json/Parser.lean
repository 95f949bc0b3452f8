/-
# Parsing JSON

The parser reads one token at a time and keeps the containers that are open on a stack.  It is a
fold over the tokens: there is nothing to measure, and a text is refused at the first token that
has no place.
-/
import TraceRecorder.Json.Token

namespace TraceRecorder

namespace Json

/-- A container that is open, with its items so far in reverse order. -/
inductive Frame where
  | array (items : List Json)
  /-- An object in the member of the given name. -/
  | object (members : List (String × Json)) (name : String)

/-- What the parser expects. -/
inductive ParserState where
  | value (stack : List Frame)
  /-- A first item or the end of an array. -/
  | firstItem (stack : List Frame)
  /-- A first member or the end of an object. -/
  | firstName (stack : List Frame)
  | name (members : List (String × Json)) (stack : List Frame)
  | colon (members : List (String × Json)) (name : String) (stack : List Frame)
  /-- Whatever may follow a value that is complete. -/
  | after (v : Json) (stack : List Frame)

namespace ParserState

/-- A token where a value must begin. -/
def stepValue (stack : List Frame) : Token → Option ParserState
  | .scalar v => some (after v stack)
  | .text s => some (after (.text s) stack)
  | .beginArray => some (firstItem stack)
  | .beginObject => some (firstName stack)
  | _ => none

/-- One token further. -/
def step (state : ParserState) (token : Token) : Option ParserState :=
  match state, token with
  | value stack, token => stepValue stack token
  | firstItem stack, .endArray => some (after (.array []) stack)
  | firstItem stack, token => stepValue (.array [] :: stack) token
  | firstName stack, .endObject => some (after (.object []) stack)
  | firstName stack, .text n => some (colon [] n stack)
  | name members stack, .text n => some (colon members n stack)
  | colon members n stack, .colon => some (value (.object members n :: stack))
  | after v (.array items :: stack), .comma => some (value (.array (v :: items) :: stack))
  | after v (.array items :: stack), .endArray =>
    some (after (.array (v :: items).reverse) stack)
  | after v (.object members n :: stack), .comma => some (name ((n, v) :: members) stack)
  | after v (.object members n :: stack), .endObject =>
    some (after (.object ((n, v) :: members).reverse) stack)
  | _, _ => none

end ParserState

/-- The value that some tokens spell. -/
def ofTokens? (tokens : List Token) : Option Json :=
  match tokens.foldlM ParserState.step (.value []) with
  | some (.after v []) => some v
  | _ => none

/-- **The value that a text spells.** -/
def parse? (text : String) : Option Json := (tokens text).bind ofTokens?

end Json

end TraceRecorder
