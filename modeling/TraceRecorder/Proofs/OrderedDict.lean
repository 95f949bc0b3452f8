/-
# Dictionaries in key order

`Dict.insert` keeps the keys of a dictionary in ascending order, so no key occurs twice and a
walk meets each value once.  `Dict.Ordered` says so, and with it insertions and removals can be
followed through the list of values: `perm_insert` and `perm_erase` say which value comes in and
which one goes out, up to the order of the list.
-/
import TraceRecorder.Dict

namespace TraceRecorder

/-- A key order is a strict total order. -/
class LawfulKeyOrder (κ : Type) [KeyOrder κ] : Prop where
  irrefl : ∀ a : κ, KeyOrder.before a a = false
  trans : ∀ a b c : κ, KeyOrder.before a b = true → KeyOrder.before b c = true →
    KeyOrder.before a c = true
  total : ∀ a b : κ, a ≠ b → KeyOrder.before a b = false → KeyOrder.before b a = true

instance : LawfulKeyOrder UInt64 where
  irrefl a := by simp [KeyOrder.before]
  trans a b c hab hbc := by
    simp only [KeyOrder.before, decide_eq_true_eq] at *
    exact UInt64.lt_trans hab hbc
  total a b hne hab := by
    simp only [KeyOrder.before, decide_eq_true_eq, decide_eq_false_iff_not] at *
    exact UInt64.lt_of_le_of_ne (UInt64.not_lt.1 hab) (Ne.symm hne)

namespace Dict

variable {κ ν : Type}

/-! ## 1. What an operation finds and leaves -/

theorem mem_of_find? [DecidableEq κ] {d : Dict κ ν} {k : κ} {v : ν} (h : find? d k = some v) :
    (k, v) ∈ d := by
  induction d with
  | nil => cases h
  | cons pair rest ih =>
    obtain ⟨k', v'⟩ := pair
    rw [find?] at h
    split at h
    · rename_i hk
      cases h
      exact hk ▸ List.mem_cons_self
    · exact List.mem_cons_of_mem _ (ih h)

theorem find?_eq_none_of_ne [DecidableEq κ] {d : Dict κ ν} {k : κ} (h : ∀ pair ∈ d, pair.1 ≠ k) :
    find? d k = none := by
  induction d with
  | nil => rfl
  | cons pair rest ih =>
    obtain ⟨k', v'⟩ := pair
    have hk : k ≠ k' := fun heq => h (k', v') List.mem_cons_self heq.symm
    rw [find?, if_neg hk]
    exact ih fun p hp => h p (List.mem_cons_of_mem _ hp)

theorem find?_update [DecidableEq κ] [KeyOrder κ] (d : Dict κ ν) (k j : κ) (f : Option ν → ν) :
    find? (update d k f) j = if j = k then some (f (find? d k)) else find? d j := by
  by_cases h : j = k
  · rw [if_pos h, h, update, find?_insert_self]
  · rw [if_neg h, update, find?_insert_of_ne _ _ h]

/-- An insertion brings its own pair and no other. -/
theorem mem_of_mem_insert [DecidableEq κ] [KeyOrder κ] {d : Dict κ ν} {k : κ} {v : ν}
    {pair : κ × ν} (h : pair ∈ insert d k v) : pair = (k, v) ∨ pair ∈ d := by
  induction d with
  | nil => exact .inl (List.mem_singleton.1 h)
  | cons head rest ih =>
    obtain ⟨k', v'⟩ := head
    rw [insert] at h
    split at h
    · rcases List.mem_cons.1 h with h | h
      · exact .inl h
      · exact .inr (List.mem_cons_of_mem _ h)
    · split at h
      · rcases List.mem_cons.1 h with h | h
        · exact .inl h
        · exact .inr h
      · rcases List.mem_cons.1 h with h | h
        · exact .inr (h ▸ List.mem_cons_self)
        · rcases ih h with h | h
          · exact .inl h
          · exact .inr (List.mem_cons_of_mem _ h)

theorem mem_of_mem_erase [DecidableEq κ] {d : Dict κ ν} {k : κ} {pair : κ × ν}
    (h : pair ∈ erase d k) : pair ∈ d := (List.mem_filter.1 h).1

/-! ## 2. Order -/

/-- **The keys ascend**, each of them before all that follow. -/
def Ordered [KeyOrder κ] (d : Dict κ ν) : Prop :=
  d.Pairwise fun a b => KeyOrder.before a.1 b.1 = true

namespace Ordered

variable [KeyOrder κ] {d : Dict κ ν}

theorem nil : Ordered ([] : Dict κ ν) := List.Pairwise.nil

theorem map {μ : Type} (h : Ordered d) (f : ν → μ) :
    Ordered (d.map fun pair => (pair.1, f pair.2)) := List.pairwise_map.2 h

theorem erase [DecidableEq κ] (h : Ordered d) (k : κ) : Ordered (Dict.erase d k) :=
  List.Pairwise.filter _ h

theorem insert [DecidableEq κ] [LawfulKeyOrder κ] (h : Ordered d) (k : κ) (v : ν) :
    Ordered (Dict.insert d k v) := by
  induction d with
  | nil => exact List.pairwise_singleton _ _
  | cons pair rest ih =>
    obtain ⟨k', v'⟩ := pair
    obtain ⟨hhead, hrest⟩ := List.pairwise_cons.1 h
    rw [Dict.insert]
    split
    · rename_i hk
      exact List.pairwise_cons.2 ⟨hk ▸ hhead, hrest⟩
    · rename_i hk
      split
      · rename_i hb
        refine List.pairwise_cons.2 ⟨?_, h⟩
        intro x hx
        rcases List.mem_cons.1 hx with rfl | hx
        · exact hb
        · exact LawfulKeyOrder.trans _ _ _ hb (hhead x hx)
      · rename_i hb
        refine List.pairwise_cons.2 ⟨?_, ih hrest⟩
        intro x hx
        rcases mem_of_mem_insert hx with rfl | hx
        · exact LawfulKeyOrder.total _ _ hk (by simpa using hb)
        · exact hhead x hx

theorem ne_of_mem [LawfulKeyOrder κ] {k : κ} {v : ν} (h : Ordered ((k, v) :: d)) :
    ∀ pair ∈ d, pair.1 ≠ k := by
  intro pair hp heq
  have hb := (List.pairwise_cons.1 h).1 pair hp
  rw [heq, LawfulKeyOrder.irrefl] at hb
  cases hb

/-- **Whatever is in the dictionary is found there.** -/
theorem find?_of_mem [DecidableEq κ] [LawfulKeyOrder κ] {k : κ} {v : ν} (h : Ordered d)
    (hm : (k, v) ∈ d) : find? d k = some v := by
  induction d with
  | nil => cases hm
  | cons pair rest ih =>
    obtain ⟨k', v'⟩ := pair
    rcases List.mem_cons.1 hm with heq | hm
    · cases heq
      exact if_pos rfl
    · have hk : k ≠ k' := h.ne_of_mem _ hm
      rw [find?, if_neg hk]
      exact ih (List.pairwise_cons.1 h).2 hm

theorem iff_keys : Ordered d ↔ d.keys.Pairwise fun a b => KeyOrder.before a b = true := by
  rw [keys, List.pairwise_map, Ordered]

theorem of_sublist {μ : Type} {d' : Dict κ μ} (h : Ordered d) (hsub : d'.keys.Sublist d.keys) :
    Ordered d' :=
  iff_keys.2 ((iff_keys.1 h).sublist hsub)

theorem eq_or_before [DecidableEq κ] {k j : κ} {v w : ν} (h : Ordered ((k, v) :: d))
    (hj : find? ((k, v) :: d) j = some w) : j = k ∨ KeyOrder.before k j = true := by
  rcases List.mem_cons.1 (mem_of_find? hj) with heq | hmem
  · exact .inl (Prod.mk.inj heq).1
  · exact .inr ((List.pairwise_cons.1 h).1 _ hmem)

/-- **A dictionary is known by what is found in it.** -/
theorem ext [DecidableEq κ] [LawfulKeyOrder κ] {d' : Dict κ ν} (h : Ordered d) (h' : Ordered d')
    (hfind : ∀ k, find? d k = find? d' k) : d = d' := by
  induction d generalizing d' with
  | nil =>
    rcases d' with - | ⟨⟨k', v'⟩, rest'⟩
    · rfl
    · simpa [find?] using hfind k'
  | cons pair rest ih =>
    obtain ⟨k, v⟩ := pair
    rcases d' with - | ⟨⟨k', v'⟩, rest'⟩
    · simpa [find?] using hfind k
    · have hhere : find? ((k', v') :: rest') k = some v := by rw [← hfind, find?, if_pos rfl]
      have hthere : find? ((k, v) :: rest) k' = some v' := by rw [hfind, find?, if_pos rfl]
      have hkey : k = k' := by
        rcases h'.eq_or_before hhere with heq | hb
        · exact heq
        · rcases h.eq_or_before hthere with heq | hb'
          · exact heq.symm
          · have hloop := LawfulKeyOrder.trans _ _ _ hb hb'
            rw [LawfulKeyOrder.irrefl] at hloop
            cases hloop
      subst hkey
      obtain rfl : v' = v := by simpa [find?] using hhere
      refine congrArg _ (ih (List.pairwise_cons.1 h).2 (List.pairwise_cons.1 h').2 fun j => ?_)
      by_cases hj : j = k
      · subst hj
        rw [find?_eq_none_of_ne h.ne_of_mem, find?_eq_none_of_ne h'.ne_of_mem]
      · simpa [find?, hj] using hfind j

end Ordered

/-! ## 3. What comes in and what goes out -/

variable [DecidableEq κ] [KeyOrder κ] [LawfulKeyOrder κ]

/-- **The new value comes in, and the one that was found goes out.** -/
theorem perm_insert {d : Dict κ ν} (h : Ordered d) (k : κ) (v : ν) :
    ((find? d k).toList ++ values (insert d k v)).Perm (v :: values d) := by
  induction d with
  | nil => exact List.Perm.refl _
  | cons pair rest ih =>
    obtain ⟨k', v'⟩ := pair
    obtain ⟨hhead, hrest⟩ := List.pairwise_cons.1 h
    rw [find?, insert]
    split
    · exact List.Perm.swap v v' (values rest)
    · rename_i hk
      split
      · rename_i hb
        have hn : find? rest k = none := by
          refine find?_eq_none_of_ne ?_
          intro p hp heq
          have ht := LawfulKeyOrder.trans _ _ _ hb (heq ▸ hhead p hp)
          rw [LawfulKeyOrder.irrefl] at ht
          cases ht
        rw [hn]
        exact List.Perm.refl _
      · have hi := ih hrest
        calc (find? rest k).toList ++ v' :: values (insert rest k v)
          _ |>.Perm (v' :: ((find? rest k).toList ++ values (insert rest k v))) :=
            List.perm_middle
          _ |>.Perm (v' :: v :: values rest) := hi.cons v'
          _ |>.Perm (v :: v' :: values rest) := List.Perm.swap v v' _

/-- **The value that was found goes out.** -/
theorem perm_erase {d : Dict κ ν} (h : Ordered d) (k : κ) :
    ((find? d k).toList ++ values (erase d k)).Perm (values d) := by
  induction d with
  | nil => exact List.Perm.refl _
  | cons pair rest ih =>
    obtain ⟨k', v'⟩ := pair
    have hrest := (List.pairwise_cons.1 h).2
    rw [find?]
    split
    · rename_i hk
      subst hk
      have he : erase ((k, v') :: rest) k = rest := by
        have hf : erase rest k = rest :=
          List.filter_eq_self.2 fun p hp => by simpa using (h.ne_of_mem p hp).symm
        simpa [erase] using hf
      rw [he]
      exact List.Perm.refl _
    · rename_i hk
      have he : erase ((k', v') :: rest) k = (k', v') :: erase rest k := by simp [erase, hk]
      rw [he]
      exact List.perm_middle.trans ((ih hrest).cons v')

end Dict

end TraceRecorder
