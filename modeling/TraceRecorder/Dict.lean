/-
# Ordered dictionaries

A dictionary is a list of key-value pairs that is kept in ascending key order by `insert`, so
that walking it visits the keys in order.  The views are `find?` and the list itself; the laws
here say what each operation does to `find?`, and they need no order at all:

* `find?_insert_self` and `find?_insert_of_ne`: an insertion changes exactly its own key;
* `find?_erase_self` and `find?_erase_of_ne`: so does a removal.
-/
namespace TraceRecorder

/-- A type of dictionary keys: `before` says which of two keys comes first in a walk. -/
class KeyOrder (κ : Type) where
  before : κ → κ → Bool

instance : KeyOrder UInt64 where
  before a b := decide (a < b)

instance : KeyOrder String where
  before a b := decide (a < b)

abbrev Dict (κ ν : Type) := List (κ × ν)

namespace Dict

variable {κ ν : Type} [DecidableEq κ]

/-- The value stored under a key. -/
def find? (d : Dict κ ν) (k : κ) : Option ν :=
  match d with
  | [] => none
  | (k', v) :: rest => if k = k' then some v else find? rest k

/-- **The dictionary with `v` under `k`**: a value already there is replaced, a new key goes
in front of the first key that comes after it. -/
def insert [KeyOrder κ] (d : Dict κ ν) (k : κ) (v : ν) : Dict κ ν :=
  match d with
  | [] => [(k, v)]
  | (k', v') :: rest =>
    if k = k' then (k, v) :: rest
    else if KeyOrder.before k k' then (k, v) :: (k', v') :: rest
    else (k', v') :: insert rest k v

def erase (d : Dict κ ν) (k : κ) : Dict κ ν :=
  d.filter fun pair => k ≠ pair.1

/-- The dictionary with the value under `k` computed from the one that was there. -/
def update [KeyOrder κ] (d : Dict κ ν) (k : κ) (f : Option ν → ν) : Dict κ ν :=
  d.insert k (f (d.find? k))

def keys (d : Dict κ ν) : List κ := d.map Prod.fst

def values (d : Dict κ ν) : List ν := d.map Prod.snd

@[simp] theorem find?_insert_self [KeyOrder κ] (d : Dict κ ν) (k : κ) (v : ν) :
    find? (insert d k v) k = some v := by
  induction d with
  | nil => simp [insert, find?]
  | cons pair rest ih =>
    obtain ⟨k', v'⟩ := pair
    by_cases h : k = k'
    · simp [insert, find?, h]
    · by_cases hb : KeyOrder.before k k'
      · simp [insert, find?, h, hb]
      · simp [insert, find?, h, hb, ih]

theorem find?_insert_of_ne [KeyOrder κ] (d : Dict κ ν) {k j : κ} (v : ν) (hne : j ≠ k) :
    find? (insert d k v) j = find? d j := by
  induction d with
  | nil => simp [insert, find?, hne]
  | cons pair rest ih =>
    obtain ⟨k', v'⟩ := pair
    by_cases h : k = k'
    · subst h; simp [insert, find?, hne]
    · by_cases hb : KeyOrder.before k k'
      · simp [insert, find?, h, hb, hne]
      · simp only [insert, h, hb, find?]
        by_cases hj : j = k' <;> simp [hj, ih, find?]

@[simp] theorem find?_erase_self (d : Dict κ ν) (k : κ) : find? (erase d k) k = none := by
  induction d with
  | nil => rfl
  | cons pair rest ih =>
    obtain ⟨k', v'⟩ := pair
    by_cases h : k = k'
    · simpa [erase, h] using ih
    · simpa [erase, h, find?] using ih

theorem find?_erase_of_ne (d : Dict κ ν) {k j : κ} (hne : j ≠ k) :
    find? (erase d k) j = find? d j := by
  induction d with
  | nil => rfl
  | cons pair rest ih =>
    obtain ⟨k', v'⟩ := pair
    by_cases h : k = k'
    · subst h; simpa [erase, find?, hne] using ih
    · by_cases hj : j = k'
      · simp [erase, h, find?, hj]
      · simpa [erase, h, find?, hj] using ih

end Dict

/-- **The distinct members of a list in ascending order.** -/
def ascending {κ : Type} [DecidableEq κ] [KeyOrder κ] (members : List κ) : List κ :=
  (members.foldl (fun d k => Dict.insert d k ()) ([] : Dict κ Unit)).keys

end TraceRecorder
