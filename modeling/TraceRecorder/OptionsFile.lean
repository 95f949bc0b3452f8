/-
# Options in JSON

Recorder options are an object whose members are the pools and the growth factor, and a pool is
an object of its five sizes and bounds.  Members may be left out, but none may be unknown or
occur twice.  Either object may also be written as an array of its first members' values in the
order of the fields below.

A recorder without a word about a pool gives it that pool's own defaults.  **A pool that is
named, even without any field, starts from the defaults of the carrier threads' pool**, whichever
pool it is.
-/
import TraceRecorder.Fault
import TraceRecorder.Json.Parser

namespace TraceRecorder

/-! ## 1. Records in JSON -/

/-- A field of a record: its name, and how its value changes the record. -/
structure JsonField (σ : Type) where
  name : String
  set? : Json → σ → Option σ

namespace JsonField

variable {σ : Type}

/-- The record after the members of an object. -/
def readMembers (fields : List (JsonField σ)) :
    List (String × Json) → σ → Option σ
  | [], record => some record
  | (name, value) :: rest, record =>
    match fields.find? fun f => f.name == name with
    | none => none
    | some f => (f.set? value record).bind (readMembers fields rest)

/-- The record after the items of an array, which belong to the fields in order. -/
def readItems : List (JsonField σ) → List Json → σ → Option σ
  | _, [], record => some record
  | [], _ :: _, _ => none
  | f :: fields, value :: rest, record => (f.set? value record).bind (readItems fields rest)

/-- **A record from JSON**: the members or items of the value laid over some defaults, if no
member occurs twice. -/
def read (fields : List (JsonField σ)) (defaults : σ) : Json → Option σ
  | .object members =>
    (readMembers fields members defaults).filter fun _ => (members.map Prod.fst).Nodup
  | .array items => readItems fields items defaults
  | _ => none

end JsonField

/-- A size or a count: a number that a 64-bit word holds. -/
def sizeFromJson? : Json → Option Nat
  | .number n => if n < UInt64.size then some n else none
  | _ => none

/-! ## 2. The options -/

namespace SpaceOptions

/-- The fields of a pool's options. -/
def fields : List (JsonField SpaceOptions) :=
  [⟨"buffer_size", fun v o => (sizeFromJson? v).map fun n => { o with bufferSize := n }⟩,
   ⟨"max_buffer_size", fun v o => (sizeFromJson? v).map fun n => { o with maxBufferSize := n }⟩,
   ⟨"cache_count", fun v o => (sizeFromJson? v).map fun n => { o with cacheCount := n }⟩,
   ⟨"prealloc_count", fun v o => (sizeFromJson? v).map fun n => { o with preallocCount := n }⟩,
   ⟨"limit", fun v o => (sizeFromJson? v).map fun n => { o with limit := n }⟩]

def ofJson? (v : Json) : Option SpaceOptions := JsonField.read fields threadLocalDefault v

end SpaceOptions

namespace RecorderOptions

/-- The fields of a recorder's options. -/
def fields : List (JsonField RecorderOptions) :=
  [⟨"global", fun v o => (SpaceOptions.ofJson? v).map fun s => { o with global := s }⟩,
   ⟨"thread_local", fun v o => (SpaceOptions.ofJson? v).map fun s => { o with threadLocal := s }⟩,
   ⟨"virtual_thread_local", fun v o =>
     (SpaceOptions.ofJson? v).map fun s => { o with virtualThreadLocal := s }⟩,
   ⟨"growth_factor", fun v o => (sizeFromJson? v).map fun n => { o with growthFactor := n }⟩]

/-- The options of a recorder from JSON, not held against the rules. -/
def ofJson? (v : Json) : Option RecorderOptions := JsonField.read fields default v

/-- **The options that a text spells.**  Options that break a rule are refused. -/
def ofText (text : String) : Except Fault RecorderOptions :=
  match (Json.parse? text).bind ofJson? with
  | none => .error .unreadableOptions
  | some o =>
    match o.flaw? with
    | some flaw => .error (.options flaw)
    | none => .ok o

end RecorderOptions

end TraceRecorder
