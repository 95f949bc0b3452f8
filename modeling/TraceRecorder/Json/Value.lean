/-
# JSON values

Options are read from JSON and reports are written as JSON.  The only numbers in either are
natural numbers.  The members of an object keep their order, and a name may occur twice: what to
make of that is for the reader of the value to say.
-/
namespace TraceRecorder

/-- A JSON value whose numbers are natural numbers. -/
inductive Json where
  | null
  | bool (b : Bool)
  | number (n : Nat)
  | text (s : String)
  | array (items : List Json)
  | object (members : List (String × Json))
  deriving Repr, Inhabited

namespace Json

/-- An optional value, null where it is missing. -/
def ofOption {α : Type} (f : α → Json) : Option α → Json
  | none => null
  | some a => f a

end Json

end TraceRecorder
