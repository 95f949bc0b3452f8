/-
# Byte strings and little-endian words

Everything that a chunk holds is a byte string, and every number in it is a word of fixed width
with its least significant byte first.  `digits` writes the low base-256 digits of a number and
`value` reads digits back:

* `length_digits`: a word of width `w` takes exactly `w` bytes;
* `value_digits`: reading what was written gives the number modulo the number of values that the
  width has, so a number that fits its width survives and one that does not is cut to its low
  bytes;
* `digits_value`: writing what was read gives the same digits again.

`has` says whether a byte string is long enough without walking it further than that.
`overwrite` replaces a range of it without changing its length, and `splice` may make it longer.
-/
namespace TraceRecorder

abbrev Bytes := List UInt8

namespace Bytes

/-! ## 1. Words -/

/-- **The `width` lowest base-256 digits of a number**, the least significant one first. -/
def digits : (width n : Nat) → Bytes
  | 0, _ => []
  | width + 1, n => UInt8.ofNat n :: digits width (n / 256)

/-- **The number whose base-256 digits are given**, the least significant one first. -/
def value : Bytes → Nat
  | [] => 0
  | b :: rest => b.toNat + 256 * value rest

/-- How many numbers have at most `width` base-256 digits. -/
def range : (width : Nat) → Nat
  | 0 => 1
  | width + 1 => 256 * range width

def ofWord64 (w : UInt64) : Bytes := digits 8 w.toNat

def ofWord32 (w : UInt32) : Bytes := digits 4 w.toNat

/-- The 64-bit word in the first eight bytes. -/
def word64 (bytes : Bytes) : UInt64 := UInt64.ofNat (value (bytes.take 8))

/-- The 32-bit word in the first four bytes. -/
def word32 (bytes : Bytes) : UInt32 := UInt32.ofNat (value (bytes.take 4))

def ofText (text : String) : Bytes := text.toUTF8.data.toList

/-- **The text that the bytes spell in UTF-8**, if they are well formed. -/
def text? (bytes : Bytes) : Option String := String.fromUTF8? ⟨bytes.toArray⟩

@[simp] theorem length_digits (width n : Nat) : (digits width n).length = width := by
  induction width generalizing n with
  | zero => rfl
  | succ width ih => simp [digits, ih]

theorem value_digits (width n : Nat) : value (digits width n) = n % range width := by
  induction width generalizing n with
  | zero => simp [digits, value, range, Nat.mod_one]
  | succ width ih =>
    have hb : (UInt8.ofNat n).toNat = n % 256 := UInt8.toNat_ofNat'
    rw [digits, value, ih, hb, range, Nat.mod_mul]

@[simp] theorem length_ofWord64 (w : UInt64) : (ofWord64 w).length = 8 := length_digits 8 _

@[simp] theorem length_ofWord32 (w : UInt32) : (ofWord32 w).length = 4 := length_digits 4 _

@[simp] theorem word64_ofWord64_append (w : UInt64) (rest : Bytes) :
    word64 (ofWord64 w ++ rest) = w := by
  have h : (ofWord64 w ++ rest).take 8 = ofWord64 w := by
    rw [List.take_append_of_le_length (by simp), List.take_of_length_le (by simp)]
  have hlt : w.toNat < range 8 := w.toNat_lt
  rw [word64, h, ofWord64, value_digits, Nat.mod_eq_of_lt hlt, UInt64.ofNat_toNat]

@[simp] theorem word32_ofWord32_append (w : UInt32) (rest : Bytes) :
    word32 (ofWord32 w ++ rest) = w := by
  have h : (ofWord32 w ++ rest).take 4 = ofWord32 w := by
    rw [List.take_append_of_le_length (by simp), List.take_of_length_le (by simp)]
  have hlt : w.toNat < range 4 := w.toNat_lt
  rw [word32, h, ofWord32, value_digits, Nat.mod_eq_of_lt hlt, UInt32.ofNat_toNat]

theorem value_lt (bytes : Bytes) : value bytes < range bytes.length := by
  induction bytes with
  | nil => exact Nat.zero_lt_one
  | cons b rest ih =>
    have hb := b.toNat_lt
    rw [value, List.length_cons, range]
    omega

theorem digits_value (bytes : Bytes) : digits bytes.length (value bytes) = bytes := by
  induction bytes with
  | nil => rfl
  | cons b rest ih =>
    have hb := b.toNat_lt
    have hfirst : UInt8.ofNat (b.toNat + 256 * value rest) = b := by
      apply UInt8.toNat_inj.1
      rw [UInt8.toNat_ofNat']
      omega
    have hrest : (b.toNat + 256 * value rest) / 256 = value rest := by omega
    rw [List.length_cons, value, digits, hfirst, hrest, ih]

theorem ofWord64_word64 {bytes : Bytes} (h : 8 ≤ bytes.length) :
    ofWord64 (word64 bytes) = bytes.take 8 := by
  have hlength : (bytes.take 8).length = 8 := List.length_take_of_le h
  have hlt := value_lt (bytes.take 8)
  have hdigits := digits_value (bytes.take 8)
  rw [hlength] at hlt hdigits
  rw [ofWord64, word64, UInt64.toNat_ofNat_of_lt' hlt, hdigits]

theorem ofWord32_word32 {bytes : Bytes} (h : 4 ≤ bytes.length) :
    ofWord32 (word32 bytes) = bytes.take 4 := by
  have hlength : (bytes.take 4).length = 4 := List.length_take_of_le h
  have hlt := value_lt (bytes.take 4)
  have hdigits := digits_value (bytes.take 4)
  rw [hlength] at hlt hdigits
  rw [ofWord32, word32, UInt32.toNat_ofNat_of_lt' hlt, hdigits]

/-! ## 2. Ranges -/

/-- **There are `count` bytes**, and perhaps more. -/
def has : (count : Nat) → Bytes → Bool
  | 0, _ => true
  | _ + 1, [] => false
  | count + 1, _ :: rest => has count rest

@[simp] theorem has_iff (count : Nat) (bytes : Bytes) :
    has count bytes = true ↔ count ≤ bytes.length := by
  induction count generalizing bytes with
  | zero => simp [has]
  | succ count ih =>
    cases bytes with
    | nil => simp [has]
    | cons _ rest => simp [has, ih]

theorem mul_length_le_flatMap {α : Type} {encode : α → Bytes} {least : Nat}
    (h : ∀ a, least ≤ (encode a).length) (parts : List α) :
    least * parts.length ≤ (parts.flatMap encode).length := by
  induction parts with
  | nil => exact Nat.le_refl _
  | cons a parts ih =>
    have hfirst := h a
    rw [List.flatMap_cons, List.length_append, List.length_cons, Nat.mul_succ]
    omega

/-- **The byte string with `patch` written over the bytes from `start` on.**  What would reach
past the end is cut off, so the length does not change. -/
def overwrite (bytes : Bytes) (start : Nat) : (patch : Bytes) → Bytes
  | [] => bytes
  | b :: patch => overwrite (bytes.set start b) (start + 1) patch

@[simp] theorem length_overwrite (bytes : Bytes) (start : Nat) (patch : Bytes) :
    (overwrite bytes start patch).length = bytes.length := by
  induction patch generalizing bytes start with
  | nil => rfl
  | cons b patch ih => rw [overwrite, ih, List.length_set]

theorem overwrite_of_length_le {bytes : Bytes} {start : Nat} (h : bytes.length ≤ start)
    (patch : Bytes) : overwrite bytes start patch = bytes := by
  induction patch generalizing start with
  | nil => rfl
  | cons b patch ih => rw [overwrite, List.set_eq_of_length_le h, ih (by omega)]

/-- Of two byte strings behind each other the second one gets what the first one has no room
for. -/
theorem overwrite_append (a b : Bytes) (start : Nat) (patch : Bytes) :
    overwrite (a ++ b) start patch =
      overwrite a start patch
        ++ overwrite b (start - a.length) (patch.drop (a.length - start)) := by
  induction patch generalizing a b start with
  | nil => simp [overwrite]
  | cons x patch ih =>
    by_cases h : start < a.length
    · have hz : start - a.length = 0 := by omega
      have hz' : start + 1 - a.length = 0 := by omega
      have hk : a.length - start = a.length - (start + 1) + 1 := by omega
      rw [overwrite, List.set_append_left _ _ h, ih, List.length_set, hz, hz', hk,
        List.drop_succ_cons, overwrite]
    · have ha : a.length ≤ start := Nat.le_of_not_lt h
      have hz : a.length - start = 0 := by omega
      have hz' : a.length - (start + 1) = 0 := by omega
      have hk : start + 1 - a.length = start - a.length + 1 := by omega
      rw [overwrite, List.set_append_right _ _ ha, ih, hz, hz', hk, List.drop_zero,
        List.drop_zero, overwrite_of_length_le ha, overwrite_of_length_le (by omega), overwrite]

/-- What is written over bytes of the same length is what stands there then. -/
theorem overwrite_of_length_eq {bytes patch : Bytes} (h : bytes.length = patch.length) :
    overwrite bytes 0 patch = patch := by
  have hall : ∀ (patch before rest : Bytes), rest.length = patch.length →
      overwrite (before ++ rest) before.length patch = before ++ patch := by
    intro patch
    induction patch with
    | nil =>
      intro before rest hl
      rw [List.length_eq_zero_iff.1 hl]
      rfl
    | cons x patch ih =>
      intro before rest hl
      obtain ⟨y, rest, rfl⟩ := List.exists_cons_of_length_eq_add_one hl
      have hs : (before ++ y :: rest).set before.length x = (before ++ [x]) ++ rest := by simp
      have hi := ih (before ++ [x]) rest (by simpa using hl)
      rw [List.length_append] at hi
      rw [overwrite, hs]
      exact hi.trans (by simp)
  exact hall patch [] bytes h

/-- The byte string with `patch` written from `start` on, grown with zeros where it is too
short. -/
def splice (bytes : Bytes) (start : Nat) (patch : Bytes) : Bytes :=
  bytes.take start ++ (List.replicate (start - bytes.length) 0
    ++ (patch ++ bytes.drop (start + patch.length)))

end Bytes

end TraceRecorder
