/-
# Rows

A row holds values by their place, and reading or writing one takes as many steps as the place
has binary digits.  Below each value stand two rows: one for the places behind it at even
distances and one for those at odd distances.

A row is known by `find?`, and the laws say what `insert` does to that:

* `find?_insert_self`: there is a value where it was put;
* `find?_insert_of_ne`: nothing is different anywhere else.
-/
namespace TraceRecorder

/-- Values by their place. -/
inductive Row (α : Type) where
  | empty
  | node (here : Option α) (even odd : Row α)
  deriving DecidableEq

namespace Row

variable {α : Type}

def here : Row α → Option α
  | empty => none
  | node a _ _ => a

/-- The values behind the first one at even distances, the nearest one at distance zero. -/
def even : Row α → Row α
  | empty => empty
  | node _ r _ => r

/-- The values behind the first one at odd distances. -/
def odd : Row α → Row α
  | empty => empty
  | node _ _ r => r

/-- **The value at a place.** -/
def find? : Row α → Nat → Option α
  | empty, _ => none
  | node here _ _, 0 => here
  | node _ even odd, n + 1 => if n % 2 = 0 then even.find? (n / 2) else odd.find? (n / 2)

/-- The row with a value at a place that is less than the first number. -/
def insertBelow : Nat → Row α → Nat → α → Row α
  | 0, r, _, _ => r
  | _ + 1, r, 0, a => node (some a) r.even r.odd
  | bound + 1, r, n + 1, a =>
    if n % 2 = 0 then node r.here (insertBelow bound r.even (n / 2) a) r.odd
    else node r.here r.even (insertBelow bound r.odd (n / 2) a)

/-- **The row with a value at a place.** -/
def insert (r : Row α) (n : Nat) (a : α) : Row α := insertBelow (n + 1) r n a

@[simp] theorem here_node (a : Option α) (r s : Row α) : (node a r s).here = a := rfl

@[simp] theorem even_node (a : Option α) (r s : Row α) : (node a r s).even = r := rfl

@[simp] theorem odd_node (a : Option α) (r s : Row α) : (node a r s).odd = s := rfl

theorem find?_zero (r : Row α) : r.find? 0 = r.here := by cases r <;> rfl

theorem find?_succ (r : Row α) (n : Nat) :
    r.find? (n + 1) = if n % 2 = 0 then r.even.find? (n / 2) else r.odd.find? (n / 2) := by
  cases r with
  | empty => simp [find?, even, odd]
  | node here even odd => rfl

theorem find?_insertBelow_self {bound n : Nat} (h : n < bound) (r : Row α) (a : α) :
    (insertBelow bound r n a).find? n = some a := by
  induction bound generalizing r n with
  | zero => exact absurd h (Nat.not_lt_zero n)
  | succ bound ih =>
    cases n with
    | zero => rfl
    | succ n =>
      by_cases hn : n % 2 = 0
      · simpa [insertBelow, find?, hn] using ih (by omega) r.even
      · simpa [insertBelow, find?, hn] using ih (by omega) r.odd

theorem find?_insertBelow_of_ne (bound : Nat) (r : Row α) {m n : Nat} (h : m ≠ n) (a : α) :
    (insertBelow bound r n a).find? m = r.find? m := by
  induction bound generalizing r m n with
  | zero => rfl
  | succ bound ih =>
    cases n with
    | zero =>
      cases m with
      | zero => exact absurd rfl h
      | succ m => rw [find?_succ, find?_succ]; rfl
    | succ n =>
      cases m with
      | zero => by_cases hn : n % 2 = 0 <;> simp [insertBelow, hn, find?_zero]
      | succ m =>
        by_cases hn : n % 2 = 0 <;> by_cases hm : m % 2 = 0
        · simpa [insertBelow, hn, find?_succ, hm] using ih r.even (by omega)
        · simp [insertBelow, hn, find?_succ, hm]
        · simp [insertBelow, hn, find?_succ, hm]
        · simpa [insertBelow, hn, find?_succ, hm] using ih r.odd (by omega)

@[simp] theorem find?_empty (n : Nat) : (empty : Row α).find? n = none := rfl

@[simp] theorem find?_insert_self (r : Row α) (n : Nat) (a : α) :
    (r.insert n a).find? n = some a :=
  find?_insertBelow_self (Nat.lt_succ_self n) r a

theorem find?_insert_of_ne (r : Row α) {m n : Nat} (h : m ≠ n) (a : α) :
    (r.insert n a).find? m = r.find? m :=
  find?_insertBelow_of_ne (n + 1) r h a

end Row

end TraceRecorder
