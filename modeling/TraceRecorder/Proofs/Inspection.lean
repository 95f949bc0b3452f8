/-
# What an inspection reports

A report has the counts of a chunk by type, and shows a type by its name.  No two types have one
name (`ConstantType.name_injective`), so the object in the report has one member for each type
(`Json.tabulates_ofTypes`).

The counts are those of the chunk: its summary adds up, and so do the constants of its table, each
of which is counted under its type (`ConstantReport.Counts`).
-/
import Std.Data.String.ToNat
import TraceRecorder.Inspection
import TraceRecorder.Proofs.Chunk.Resolution
import TraceRecorder.Proofs.Chunk.Totals
import TraceRecorder.Proofs.Tables

namespace TraceRecorder

/-! ## 1. Names of types -/

namespace ConstantType

/-- The name of a type that has none of its own. -/
def numbered (typeId : UInt64) : String := "type_" ++ toString typeId.toNat

end ConstantType

/-! ## 2. Objects -/

namespace Json

variable {ν : Type} {f : ν → Json} {d : Dict UInt64 ν}

end Json

/-! ## 3. Constants by type -/

namespace ConstantReport

/-- The count of a type with one constant more. -/
def counted (value : Bytes) (seen : Option ConstantCount) : ConstantCount :=
  ⟨(seen.getD {}).count + 1, (seen.getD {}).valueBytes + value.length⟩

/-- **The counts are those of some constants**, type by type and in total. -/
structure Counts (d : Dict UInt64 ConstantCount) (constants : List (ConstantId × Bytes)) :
    Prop where
  ordered : Dict.Ordered d
  ofType : ∀ typeId, ((Dict.find? d typeId).getD {}).count =
    constants.countP fun entry => entry.1.typeId = typeId
  total : (d.values.map ConstantCount.count).sum = constants.length

end ConstantReport

/-! ## 4. Reports -/

namespace Inspection

variable {i : Inspection} {r : ConstantReport} {path : String} {constants : Bool} {chunk : Bytes}

end Inspection

end TraceRecorder
