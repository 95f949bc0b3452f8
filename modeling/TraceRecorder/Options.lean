/-
# Recorder options

Each of the three pools has its own sizes and bounds, and one factor governs how much a renewed
buffer grows.  `flaw?` gives the first rule that some options break: pools in the order global,
carrier threads, virtual threads, then the factor.
-/
import TraceRecorder.Pool.Buffer
import TraceRecorder.Report

namespace TraceRecorder

/-- The sizes and bounds of one pool. -/
structure SpaceOptions where
  /-- The least size of a new buffer. -/
  bufferSize : Nat
  /-- The largest request that can be met. -/
  maxBufferSize : Nat
  /-- How many free buffers are kept. -/
  cacheCount : Nat
  /-- How many free buffers there are at the start. -/
  preallocCount : Nat
  /-- How many buffers there may be. -/
  limit : Nat
  deriving DecidableEq, Repr, Inhabited

/-- The options of a recorder. -/
structure RecorderOptions where
  global : SpaceOptions
  threadLocal : SpaceOptions
  virtualThreadLocal : SpaceOptions
  /-- How many times the room that is needed a renewed buffer gets. -/
  growthFactor : Nat
  deriving DecidableEq, Repr, Inhabited

/-- A rule that options break. -/
inductive OptionFlaw where
  | bufferSizeZero (space : BufferKind)
  | maximumBelowSize (space : BufferKind)
  | limitZero (space : BufferKind)
  | countsBeyondLimit (space : BufferKind)
  | growthFactorZero
  deriving DecidableEq, Repr

/-- The wording of a broken rule. -/
def OptionFlaw.message : OptionFlaw → String
  | bufferSizeZero space => space.name ++ ".buffer_size must be positive"
  | maximumBelowSize space => space.name ++ ".max_buffer_size is below buffer_size"
  | limitZero space => space.name ++ ".limit must be positive"
  | countsBeyondLimit space => space.name ++ " prealloc/cache counts exceed limit"
  | growthFactorZero => "growth_factor must be positive"

namespace SpaceOptions

def globalDefault : SpaceOptions := ⟨512 * 1024, 64 * 1024 * 1024, 2, 2, 64⟩

def threadLocalDefault : SpaceOptions := ⟨4 * 1024, 16 * 1024 * 1024, 16, 4, 4096⟩

def virtualThreadLocalDefault : SpaceOptions := ⟨1024, 16 * 1024 * 1024, 8, 0, 65536⟩

/-- The first rule that the options of a pool break. -/
def flaw? (o : SpaceOptions) (space : BufferKind) : Option OptionFlaw :=
  if o.bufferSize = 0 then some (.bufferSizeZero space)
  else if o.maxBufferSize < o.bufferSize then some (.maximumBelowSize space)
  else if o.limit = 0 then some (.limitZero space)
  else if o.limit < o.preallocCount ∨ o.limit < o.cacheCount then some (.countsBeyondLimit space)
  else none

end SpaceOptions

namespace RecorderOptions

/-- The options of a recorder that is told nothing. -/
def default : RecorderOptions :=
  ⟨.globalDefault, .threadLocalDefault, .virtualThreadLocalDefault, 2⟩

/-- The options of one pool. -/
def space (o : RecorderOptions) : BufferKind → SpaceOptions
  | .global => o.global
  | .threadLocal => o.threadLocal
  | .virtualThreadLocal => o.virtualThreadLocal

/-- **The first rule that the options break**, if they break any. -/
def flaw? (o : RecorderOptions) : Option OptionFlaw :=
  (o.global.flaw? .global).or
    ((o.threadLocal.flaw? .threadLocal).or
      ((o.virtualThreadLocal.flaw? .virtualThreadLocal).or
        (if o.growthFactor = 0 then some .growthFactorZero else none)))

def preallocated (o : RecorderOptions) : Nat :=
  o.global.preallocCount + o.threadLocal.preallocCount + o.virtualThreadLocal.preallocCount

/-- The size to ask for when a buffer with `needed` bytes of content to come is renewed: **at
least what is needed**, and beyond that up to the growth factor times as much, as far as the pool
allows. -/
def renewalRequest (o : RecorderOptions) (kind : BufferKind) (needed : Nat) : Nat :=
  let space := o.space kind
  max needed (min (max needed space.bufferSize * o.growthFactor) space.maxBufferSize)

end RecorderOptions

end TraceRecorder
