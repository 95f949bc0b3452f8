/-
# What the constants of a chunk resolve to

A chunk may assign a constant more than once, in one segment or in several.  Its table is made of
the constants that a walk meets, one after the other, and `ConstantTable.Resolves` says what that
comes to: the value of a constant is the one that is assigned last, each constant is listed once and
in order, and the constants of a type are those between its least and its greatest key.

A table of two chunks is that of the first one overridden by that of the second
(`ConstantTable.resolution`).
-/
import Mathlib.Data.List.Dedup
import TraceRecorder.Proofs.Chunk.Offsets

namespace TraceRecorder

def Constant.id (c : Constant) : ConstantId := ⟨c.1, c.2.1⟩

theorem Constant.id_eq_iff {c : Constant} {typeId key : UInt64} :
    c.id = ⟨typeId, key⟩ ↔ c.1 = typeId ∧ c.2.1 = key := by simp [id]

/-- The constants are in order: types ascend, and keys within a type. -/
def ConstantId.Before (a b : ConstantId) : Prop :=
  a.typeId < b.typeId ∨ a.typeId = b.typeId ∧ a.key < b.key

namespace ConstantTable

variable {t : ConstantTable} {cs : List Constant} {typeId key : UInt64} {value : Bytes}

/-! ## 1. Values -/

/-- **The last assignment counts**, and the table before if there is none. -/
theorem valueOf?_withAll (t : ConstantTable) (cs : List Constant) (typeId key : UInt64) :
    (t.withAll cs).valueOf? typeId key =
      ((cs.reverse.find? fun c => c.1 == typeId && c.2.1 == key).map fun c => c.2.2).or
        (t.valueOf? typeId key) := by
  induction cs generalizing t with
  | nil => rfl
  | cons c cs ih =>
    have hstep : t.withAll (c :: cs) = (assign c.1 t c.2).withAll cs := rfl
    rw [hstep, ih, valueOf?_assign, List.reverse_cons, List.find?_append]
    cases cs.reverse.find? fun c => c.1 == typeId && c.2.1 == key with
    | some _ => rfl
    | none => by_cases h : c.1 = typeId ∧ c.2.1 = key <;> simp [h]

theorem valueOf?_empty : valueOf? ∅ typeId key = none := by simp [valueOf?]

theorem valueOf?_withAll_append (cs cs' : List Constant) (typeId key : UInt64) :
    (withAll ∅ (cs ++ cs')).valueOf? typeId key =
      ((withAll ∅ cs').valueOf? typeId key).or ((withAll ∅ cs).valueOf? typeId key) := by
  have hsplit : withAll ∅ (cs ++ cs') = (withAll ∅ cs).withAll cs' := List.foldl_append
  rw [hsplit, valueOf?_withAll, valueOf?_withAll ∅ cs', valueOf?_empty, Option.or_none]

/-- **A constant has a value** if it is assigned and none of what follows assigns it again. -/
theorem valueOf?_withAll_eq_some_iff :
    (withAll ∅ cs).valueOf? typeId key = some value ↔
      ∃ before behind : List Constant, cs = before ++ (typeId, key, value) :: behind ∧
        ∀ c ∈ behind, Constant.id c ≠ ⟨typeId, key⟩ := by
  rw [valueOf?_withAll, valueOf?_empty, Option.or_none, Option.map_eq_some_iff]
  constructor
  · rintro ⟨⟨_, _, _⟩, hlast, rfl⟩
    obtain ⟨hkey, behind, before, hcs, hbehind⟩ := List.find?_eq_some_iff_append.1 hlast
    obtain ⟨rfl, rfl⟩ := by simpa using hkey
    rw [List.reverse_eq_iff, List.reverse_append, List.reverse_cons, List.append_assoc] at hcs
    refine ⟨before.reverse, behind.reverse, hcs, fun c hc heq => ?_⟩
    have hne := hbehind c (List.mem_reverse.1 hc)
    simp [Constant.id_eq_iff.1 heq] at hne
  · rintro ⟨before, behind, rfl, hbehind⟩
    refine ⟨(typeId, key, value), List.find?_eq_some_iff_append.2
      ⟨by simp, behind.reverse, before.reverse, by simp, fun c hc => ?_⟩, rfl⟩
    have hne := hbehind c (List.mem_reverse.1 hc)
    rw [ne_eq, Constant.id_eq_iff, not_and_or] at hne
    simpa using hne

theorem isSome_valueOf?_withAll :
    ((withAll ∅ cs).valueOf? typeId key).isSome ↔ ∃ value, (typeId, key, value) ∈ cs := by
  rw [valueOf?_withAll, valueOf?_empty, Option.or_none, Option.isSome_map, List.find?_isSome]
  constructor
  · rintro ⟨⟨_, _, value⟩, hc, hkey⟩
    obtain ⟨rfl, rfl⟩ := by simpa using hkey
    exact ⟨value, List.mem_reverse.1 hc⟩
  · rintro ⟨value, hc⟩
    exact ⟨_, List.mem_reverse.2 hc, by simp⟩

/-! ## 2. Lists of constants -/

theorem mem_toList_iff {id : ConstantId} :
    (id, value) ∈ t.toList ↔ t.valueOf? id.typeId id.key = some value :=
  Std.TreeMap.mem_toList_iff_getElem?_eq_some

/-- **The constants are listed in order**, and so none of them is listed twice. -/
theorem pairwise_toList (t : ConstantTable) :
    t.toList.Pairwise fun a b => a.1.Before b.1 :=
  Std.TreeMap.ordered_keys_toList.imp fun {_ _} h => ConstantId.compare_eq_lt_iff.1 h

/-- **Of a type those constants are listed that have a value.** -/
theorem mem_ofType_iff : (key, value) ∈ t.ofType typeId ↔ t.valueOf? typeId key = some value := by
  rw [ofType_eq]
  constructor
  · intro h
    obtain ⟨⟨id, found⟩, hlisted, heq⟩ := List.mem_map.1 h
    obtain ⟨hmem, htype⟩ := List.mem_filter.1 hlisted
    obtain ⟨rfl, rfl⟩ := Prod.mk.inj heq
    obtain rfl := of_decide_eq_true htype
    exact mem_toList_iff.1 hmem
  · intro h
    refine List.mem_map.2 ⟨(⟨typeId, key⟩, value), List.mem_filter.2 ⟨mem_toList_iff.2 h, ?_⟩, rfl⟩
    simp

theorem pairwise_ofType (t : ConstantTable) (typeId : UInt64) :
    (t.ofType typeId).Pairwise fun a b => a.1 < b.1 := by
  rw [ofType_eq, List.pairwise_map, List.pairwise_filter]
  refine t.pairwise_toList.imp fun {a b} h ha hb => ?_
  obtain rfl : a.1.typeId = typeId := of_decide_eq_true ha
  have hb : b.1.typeId = a.1.typeId := of_decide_eq_true hb
  rcases h with h | ⟨-, h⟩
  · rw [hb] at h
    exact absurd h (UInt64.lt_irrefl _)
  · exact h

theorem mem_of_mem_ofType (h : (key, value) ∈ (withAll ∅ cs).ofType typeId) :
    (typeId, key, value) ∈ cs := by
  obtain ⟨before, behind, rfl, -⟩ := valueOf?_withAll_eq_some_iff.1 (mem_ofType_iff.1 h)
  exact List.mem_append_right _ List.mem_cons_self

/-- **The table has each constant once** that is assigned. -/
theorem keys_perm (cs : List Constant) :
    (withAll ∅ cs).keys.Perm (cs.map Constant.id).dedup := by
  refine (List.perm_ext_iff_of_nodup Std.TreeMap.nodup_keys (List.nodup_dedup _)).2 fun id => ?_
  rw [Std.TreeMap.mem_keys, Std.TreeMap.mem_iff_isSome_getElem?, List.mem_dedup, List.mem_map]
  refine isSome_valueOf?_withAll.trans ?_
  constructor
  · rintro ⟨value, hc⟩
    exact ⟨_, hc, rfl⟩
  · rintro ⟨⟨_, _, value⟩, hc, rfl⟩
    exact ⟨value, hc⟩

/-! ## 3. The table of a chunk -/

/-- **The table resolves some constants** that are assigned one after the other. -/
structure Resolves (t : ConstantTable) (cs : List Constant) : Prop where
  /-- The value of a constant is the one that nothing behind it replaces. -/
  value : ∀ typeId key value, t.valueOf? typeId key = some value ↔
    ∃ before behind : List Constant, cs = before ++ (typeId, key, value) :: behind ∧
      ∀ c ∈ behind, Constant.id c ≠ ⟨typeId, key⟩
  /-- Without a value are the constants that are not assigned. -/
  none : ∀ typeId key, t.valueOf? typeId key = none ↔ ∀ c ∈ cs, Constant.id c ≠ ⟨typeId, key⟩
  /-- The size is the number of distinct constants. -/
  size : t.size = (cs.map Constant.id).dedup.length
  listed : ∀ id value, (id, value) ∈ t.toList ↔ t.valueOf? id.typeId id.key = some value
  ordered : t.toList.Pairwise fun a b => a.1.Before b.1
  ofType : ∀ typeId key value,
    (key, value) ∈ t.ofType typeId ↔ t.valueOf? typeId key = some value
  orderedOfType : ∀ typeId, (t.ofType typeId).Pairwise fun a b => a.1 < b.1

theorem resolves_withAll (cs : List Constant) : Resolves (withAll ∅ cs) cs where
  value _ _ _ := valueOf?_withAll_eq_some_iff
  none typeId key := by
    rw [← Option.not_isSome_iff_eq_none, isSome_valueOf?_withAll]
    constructor
    · rintro hnone ⟨_, _, value⟩ hc heq
      obtain ⟨rfl, rfl⟩ := Constant.id_eq_iff.1 heq
      exact hnone ⟨value, hc⟩
    · rintro hne ⟨value, hc⟩
      exact hne _ hc rfl
  size := by rw [← Std.TreeMap.length_keys, (keys_perm cs).length_eq]
  listed _ _ := mem_toList_iff
  ordered := pairwise_toList _
  ofType _ _ _ := mem_ofType_iff
  orderedOfType _ := pairwise_ofType _ _

/-- **The later value wins.**  The table of a chunk resolves the constants that a walk of the chunk
meets: a constant has the value that it was assigned last, as many constants are counted as were
assigned at all, and both listings have just these with their values, in ascending order.

The table of two chunks that are put together has the values of the second one, and those of the
first one where the second has none.  So a chunk overrides what came before it, constant by
constant, and takes nothing away. -/
theorem resolution :
    (∀ chunk t, ofChunk chunk = .ok t →
      ∃ cs, Entry.walk chunk = .ok cs ∧ Resolves t cs) ∧
    (∀ front behind t t', ofChunk front = .ok t → ofChunk behind = .ok t' →
      ∃ both, ofChunk (front ++ behind) = .ok both ∧
        ∀ typeId key, both.valueOf? typeId key =
          (t'.valueOf? typeId key).or (t.valueOf? typeId key)) := by
  constructor
  · intro chunk t h
    obtain ⟨hnested, rfl⟩ := ofChunk_eq_ok_iff.1 h
    exact ⟨_, Entry.walk_eq_ok_iff.2 ⟨hnested, rfl⟩, resolves_withAll _⟩
  · intro front behind t t' h h'
    obtain ⟨hfront, rfl⟩ := ofChunk_eq_ok_iff.1 h
    obtain ⟨hbehind, rfl⟩ := ofChunk_eq_ok_iff.1 h'
    refine ⟨_, ofChunk_eq_ok_iff.2 ⟨hfront.append (fun _ _ h => h) hbehind, rfl⟩,
      fun typeId key => ?_⟩
    have hread := Entry.readAll_append (Entry.allOf_iff.1 hfront).1 (Entry.allOf_iff.1 hbehind).1
    have hfound : ((Entry.readAll behind).items.map (Entry.moved front.length)).flatMap
        Entry.found = (Entry.readAll behind).items.flatMap Entry.found := List.flatMap_map ..
    rw [hread, List.flatMap_append, hfound, valueOf?_withAll_append]

/-- The first constant of all twice and the last one, and in a second chunk the first one again. -/
theorem resolution_overridden :
    let last : UInt64 := 18446744073709551615
    let front : Entry := ⟨0, .forPayload 71 7 1 false 2,
      Segment.encode ⟨0, 2, Relation.encodePair (0, [1]) ++ Relation.encodePair (0, [2])⟩ ++
        Segment.encode ⟨last, 1, Relation.encodePair (last, [3])⟩⟩
    let behind : Entry := ⟨0, .forPayload 28 9 1 false 1,
      Segment.encode ⟨0, 1, Relation.encodePair (0, [])⟩⟩
    ∃ t t' both, ofChunk front.encode = .ok t ∧ ofChunk behind.encode = .ok t' ∧
      ofChunk (front.encode ++ behind.encode) = .ok both ∧
      t.size = 2 ∧ t.valueOf? 0 0 = some [2] ∧ t.valueOf? 0 last = none ∧
      (last, [3]) ∈ t.ofType last ∧
      both.valueOf? 0 0 = some [] ∧ both.valueOf? last last = some [3] := by
  intro last front behind
  have hfront := Entry.readAll_encode (e := front) rfl ⟨by decide, nofun⟩
  have hbehind := Entry.readAll_encode (e := behind) rfl ⟨by decide, nofun⟩
  have hwalk : Entry.walk front.encode = .ok [(0, 0, [1]), (0, 0, [2]), (last, last, [3])] := by
    rw [Entry.walk, hfront]
    decide
  have hwalk' : Entry.walk behind.encode = .ok [(0, 0, [])] := by
    rw [Entry.walk, hbehind]
    decide
  have ht := ofChunk_eq_ok_iff.2 ⟨(Entry.walk_eq_ok_iff.1 hwalk).1, rfl⟩
  have ht' := ofChunk_eq_ok_iff.2 ⟨(Entry.walk_eq_ok_iff.1 hwalk').1, rfl⟩
  obtain ⟨hresolves, hoverrides⟩ := resolution
  obtain ⟨both, hboth, hvalue⟩ := hoverrides _ _ _ _ ht ht'
  obtain ⟨cs, hcs, h⟩ := hresolves _ _ ht
  obtain ⟨cs', hcs', h'⟩ := hresolves _ _ ht'
  obtain rfl := Except.ok.inj (hwalk.symm.trans hcs)
  obtain rfl := Except.ok.inj (hwalk'.symm.trans hcs')
  have hfirst := (h.value 0 0 [2]).2 ⟨[_], [_], rfl, by decide⟩
  have hlast := (h.value last last [3]).2 ⟨[_, _], [], rfl, nofun⟩
  have hagain := (h'.value 0 0 []).2 ⟨[], [], rfl, nofun⟩
  have hnone := (h'.none last last).2 (by decide)
  refine ⟨_, _, both, ht, ht', hboth, h.size.trans (by decide), hfirst,
    (h.none 0 last).2 (by decide), (h.ofType _ _ _).2 hlast, ?_, ?_⟩
  · rw [hvalue, hagain, Option.some_or]
  · rw [hvalue, hnone, hlast, Option.none_or]

end ConstantTable

end TraceRecorder
