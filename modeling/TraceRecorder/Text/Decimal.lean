/-
# Decimal numbers in text

Numbers are written in decimal digits, where a field has a fixed width with zeros in front, and
read from decimal digits up to a bound.  A reader goes through the digits from the left and stops
at the first character that spoils the number, so of two flaws the one further left is found.
-/
namespace TraceRecorder

namespace Decimal

/-! ## 1. Writing -/

/-- **A number in at least `width` digits**, with zeros in front where it needs fewer. -/
def padded (width n : Nat) : String :=
  let digits := toString n
  "".pushn '0' (width - digits.length) ++ digits

/-! ## 2. Reading -/

/-- Why a text is not a number within a bound. -/
inductive Flaw where
  | empty
  | notADigit
  | tooLarge
  deriving DecidableEq, Repr

/-- The wording of a flaw. -/
def Flaw.message : Flaw → String
  | empty => "cannot parse integer from empty string"
  | notADigit => "invalid digit found in string"
  | tooLarge => "number too large to fit in target type"

def digit? (c : Char) : Option Nat :=
  if c.isDigit then some (c.toNat - '0'.toNat) else none

/-- The number after some more digits. -/
def readFrom (bound : Nat) (value : Nat) : List Char → Except Flaw Nat
  | [] => .ok value
  | c :: rest =>
    match digit? c with
    | none => .error .notADigit
    | some d =>
      if 10 * value + d < bound then readFrom bound (10 * value + d) rest
      else .error .tooLarge

/-- **The number below a bound that a text spells**, perhaps behind a plus sign. -/
def read (bound : Nat) (text : String) : Except Flaw Nat :=
  match text.toList with
  | [] => .error .empty
  | ['+'] => .error .notADigit
  | '+' :: digits => readFrom bound 0 digits
  | digits => readFrom bound 0 digits

end Decimal

end TraceRecorder
