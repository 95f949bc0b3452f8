/-
# Damage

The ways in which chunk bytes can fail to be what a recorder writes.  A `Damage` names the flaw
and, where the reader knows one, the offset of the record that could not be read.  What the
offset is measured from depends on the reader: a value's start, a body's start, a payload's
start or the chunk's start.
-/
import TraceRecorder.Report

namespace TraceRecorder

/-- A flaw in chunk bytes. -/
inductive Flaw where
  | headerTruncated
  | flushpointFlag
  | sizeBelowHeader
  | sizeBeyondChunk
  | payloadWithoutSegments
  | segmentHeaderTruncated
  | segmentBodyBeyondPayload
  | pairTruncated
  | valueBeyondBody
  | fieldTruncated
  | textNotUtf8
  deriving DecidableEq, Repr

/-- The wording of a flaw. -/
def Flaw.message : Flaw → String
  | headerTruncated => "entry header truncated"
  | flushpointFlag => "invalid flushpoint flag"
  | sizeBelowHeader => "entry size below header length"
  | sizeBeyondChunk => "entry exceeds chunk bounds"
  | payloadWithoutSegments => "payload present without segments"
  | segmentHeaderTruncated => "segment header truncated"
  | segmentBodyBeyondPayload => "segment body exceeds payload"
  | pairTruncated => "relation pair truncated"
  | valueBeyondBody => "relation value exceeds body"
  | fieldTruncated => "relation value truncated"
  | textNotUtf8 => "relation string is not utf-8"

/-- A flaw and the offset of the record that shows it. -/
structure Damage where
  flaw : Flaw
  offset : Option Nat := none
  deriving DecidableEq, Repr

/-- **Damage is always reported as corruption**; only ill-formed text has a cause underneath. -/
def Damage.report (d : Damage) : Report where
  kind := .corrupt
  message := some d.flaw.message
  offset := d.offset
  source := if d.flaw = .textNotUtf8 then some "invalid utf-8 sequence" else none

/-- **The records read from some bytes, and the damage that stopped the reader**, if any did.
Nothing is read after damage. -/
structure Reading (α : Type) where
  items : List α
  damage : Option Damage

namespace Reading

variable {α : Type}

def nothing : Reading α := ⟨[], none⟩

def stopped (d : Damage) : Reading α := ⟨[], some d⟩

def cons (item : α) (rest : Reading α) : Reading α := ⟨item :: rest.items, rest.damage⟩

/-- All the records, if there was no damage. -/
def complete (r : Reading α) : Except Damage (List α) :=
  match r.damage with
  | none => .ok r.items
  | some d => .error d

@[simp] theorem items_cons (item : α) (rest : Reading α) :
    (cons item rest).items = item :: rest.items := rfl

@[simp] theorem damage_cons (item : α) (rest : Reading α) :
    (cons item rest).damage = rest.damage := rfl

end Reading

end TraceRecorder
