/-
# Printing JSON

A value is printed on one line without blanks, or over several lines with two blanks of
indentation for each level.  Only quotes, backslashes and control characters of a text are
escaped.
-/
import TraceRecorder.Json.Value

namespace TraceRecorder

namespace Json

def hexDigit (n : Nat) : Char := ("0123456789abcdef".toList)[n]?.getD '0'

/-- A character of a text, escaped where it must be. -/
def escapeChar (c : Char) : String :=
  match c with
  | '"' => "\\\""
  | '\\' => "\\\\"
  | '\n' => "\\n"
  | '\r' => "\\r"
  | '\t' => "\\t"
  | '\x08' => "\\b"
  | '\x0c' => "\\f"
  | c =>
    if c.toNat < 0x20 then
      "\\u00" ++ String.ofList [hexDigit (c.toNat / 16), hexDigit (c.toNat % 16)]
    else c.toString

def quote (s : String) : String := "\"" ++ String.join (s.toList.map escapeChar) ++ "\""

mutual

/-- The value on one line. -/
def compact : Json → String
  | null => "null"
  | bool b => if b then "true" else "false"
  | number n => toString n
  | text s => quote s
  | array items => "[" ++ String.intercalate "," (compactItems items) ++ "]"
  | object members => "\x7b" ++ String.intercalate "," (compactMembers members) ++ "\x7d"

def compactItems : List Json → List String
  | [] => []
  | v :: rest => compact v :: compactItems rest

def compactMembers : List (String × Json) → List String
  | [] => []
  | (n, v) :: rest => (quote n ++ ":" ++ compact v) :: compactMembers rest

end

/-- Parts of a container, each on a line of its own between the brackets. -/
def block (indent opening closing : String) (parts : List String) : String :=
  match parts with
  | [] => opening ++ closing
  | parts =>
    let inner := indent ++ "  "
    opening ++ "\n" ++ String.intercalate ",\n" (parts.map (inner ++ ·)) ++ "\n" ++ indent
      ++ closing

mutual

/-- The value over several lines, inside the given indentation. -/
def prettyIn (indent : String) : Json → String
  | null => "null"
  | bool b => if b then "true" else "false"
  | number n => toString n
  | text s => quote s
  | array items => block indent "[" "]" (prettyItems (indent ++ "  ") items)
  | object members => block indent "\x7b" "\x7d" (prettyMembers (indent ++ "  ") members)

def prettyItems (indent : String) : List Json → List String
  | [] => []
  | v :: rest => prettyIn indent v :: prettyItems indent rest

def prettyMembers (indent : String) : List (String × Json) → List String
  | [] => []
  | (n, v) :: rest => (quote n ++ ": " ++ prettyIn indent v) :: prettyMembers indent rest

end

/-- **The value over several lines.** -/
def pretty (v : Json) : String := prettyIn "" v

end Json

end TraceRecorder
