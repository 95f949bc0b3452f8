/-
# Fields of a value

The value of a constant may be structured: a row of words, flags and texts.  A word takes eight
bytes, a flag one, a text a length in four bytes and its UTF-8 bytes.  Nothing in the bytes says
which fields they hold, so a reader asks for the kind that it expects.

A read that fails says where it failed, and the cursor stays where the last part that could be
read ended; reading may go on from there.
-/
import TraceRecorder.Bytes
import TraceRecorder.Fallible
import TraceRecorder.Chunk.Damage

namespace TraceRecorder

/-- A field of a structured value. -/
inductive Field where
  | word (w : UInt64)
  | flag (b : Bool)
  | text (s : String)
  deriving DecidableEq, Repr

/-- The kinds of fields. -/
inductive FieldKind where
  | word
  | flag
  | text
  deriving DecidableEq, Repr

namespace Field

/-- The kind of a field. -/
def kind : Field → FieldKind
  | word _ => .word
  | flag _ => .flag
  | text _ => .text

/-- The bytes of one field. -/
def encode : Field → Bytes
  | word w => Bytes.ofWord64 w
  | flag b => [if b then 1 else 0]
  | text s => Bytes.digits 4 (Bytes.ofText s).length ++ Bytes.ofText s

/-- The bytes of a value: its fields one after the other. -/
def encodeAll (fields : List Field) : Bytes := (fields.map encode).flatten

end Field

/-- A place in a value: what is left to read and how far it is from the value's start. -/
structure FieldCursor where
  rest : Bytes
  offset : Nat := 0

/-- **A reader of fields**: it moves a cursor, also when it fails. -/
abbrev FieldReader := Fallible Damage FieldCursor

namespace FieldReader

/-- The next `count` bytes.  The cursor moves only if they are all there. -/
def take (count : Nat) : FieldReader Bytes := do
  let cursor ← get
  if !Bytes.has count cursor.rest then throw ⟨.fieldTruncated, some cursor.offset⟩
  else
    set (⟨cursor.rest.drop count, cursor.offset + count⟩ : FieldCursor)
    pure (cursor.rest.take count)

def word : FieldReader UInt64 := do
  let bytes ← take 8
  pure (Bytes.word64 bytes)

/-- A flag: set unless its byte is zero. -/
def flag : FieldReader Bool := do
  let bytes ← take 1
  pure (bytes != [0])

/-- A text.  Its length is read first, so a text that is cut off leaves the cursor behind the
length. -/
def text : FieldReader String := do
  let length ← take 4
  let bytes ← take (Bytes.word32 length).toNat
  match Bytes.text? bytes with
  | some s => pure s
  | none => throw ⟨.textNotUtf8, none⟩

/-- A field of the given kind. -/
def field : FieldKind → FieldReader Field
  | .word => do return .word (← word)
  | .flag => do return .flag (← flag)
  | .text => do return .text (← text)

/-- **What a sequence of reads gives**, one answer for each, failures included. -/
def readEach : List FieldKind → FieldCursor → List (Except Damage Field)
  | [], _ => []
  | kind :: rest, cursor =>
    let (answer, next) := Fallible.runOn (field kind) cursor
    answer :: readEach rest next

end FieldReader

end TraceRecorder
