/-
# Segments and pairs

The segments of a payload and the pairs of a segment's body are read alike.  Their number is
announced elsewhere, each has a header that gives the length of what follows it, and bytes behind
the last one are not looked at.  `Reading.Counted` is what the two readers have in common:

* `Counted.read_flatMap`: sound records that stand in front are read back, whatever follows them;
* `Counted.front`: what is read are sound records that stand in front, and no more than announced;
* `Counted.damage_eq_none_iff`: so the reader meets no damage exactly where as many sound records
  stand as were announced;
* `Counted.stops_iff`: where they give out before, it says so.

`Segment.counted_readPairs` and `Segment.counted_readAll` say that pairs and segments are read so,
and the last section reads back what was written from relations.
-/
import TraceRecorder.Chunk.Relation

namespace TraceRecorder

/-! ## 1. Counted records -/

namespace Reading

variable {α : Type} {read : (count offset : Nat) → Bytes → Reading α} {encode : α → Bytes}
  {Sound : α → Prop}

/-- **The bytes begin with some number of sound records.** -/
def Begins (encode : α → Bytes) (Sound : α → Prop) (count : Nat) (bytes : Bytes) : Prop :=
  ∃ (items : List α) (rest : Bytes),
    items.length = count ∧ (∀ a ∈ items, Sound a) ∧ bytes = items.flatMap encode ++ rest

/-- **A reader of as many records as are announced.**  Where a sound record stands it is read, and
elsewhere there is damage. -/
structure Counted (read : (count offset : Nat) → Bytes → Reading α) (encode : α → Bytes)
    (Sound : α → Prop) : Prop where
  zero (offset : Nat) (bytes : Bytes) : read 0 offset bytes = .nothing
  succ (count offset : Nat) {a : α} (ha : Sound a) (rest : Bytes) :
    read (count + 1) offset (encode a ++ rest) =
      .cons a (read count (offset + (encode a).length) rest)
  stop (count offset : Nat) (bytes : Bytes) :
    (∃ a rest, Sound a ∧ bytes = encode a ++ rest) ∨
      ∃ flaw, read (count + 1) offset bytes = .stopped ⟨flaw, some offset⟩

/-- **Sound records that stand in front are read**, and then what follows them.  This is said once,
of any reader that takes a number of records; segments and pairs are read by such readers. -/
theorem Counted.read_append (h : Counted read encode Sound) {items : List α}
    (hs : ∀ a ∈ items, Sound a) (count offset : Nat) (rest : Bytes) :
    read (items.length + count) offset (items.flatMap encode ++ rest) =
      ⟨items ++ (read count (offset + (items.flatMap encode).length) rest).items,
        (read count (offset + (items.flatMap encode).length) rest).damage⟩ := by
  induction items generalizing offset with
  | nil =>
    rw [List.length_nil, Nat.zero_add]
    rfl
  | cons a items ih =>
    rw [List.length_cons, Nat.add_right_comm, List.flatMap_cons, List.append_assoc,
      h.succ _ _ (hs a List.mem_cons_self), ih fun x hx => hs x (List.mem_cons_of_mem _ hx),
      List.length_append, Nat.add_assoc]
    rfl

/-- **Sound records that stand in front are read back**, whatever follows them. -/
theorem Counted.read_flatMap (h : Counted read encode Sound) {items : List α}
    (hs : ∀ a ∈ items, Sound a) (offset : Nat) (rest : Bytes) :
    read items.length offset (items.flatMap encode ++ rest) = ⟨items, none⟩ := by
  have hread := h.read_append hs 0 offset rest
  rw [h.zero, Nat.add_zero] at hread
  rw [hread, nothing, List.append_nil]

/-- **What is read are sound records that stand in front**: as many as are announced if there is
no damage, and fewer if there is. -/
theorem Counted.front (h : Counted read encode Sound) (count offset : Nat) (bytes : Bytes) :
    (∀ a ∈ (read count offset bytes).items, Sound a) ∧
      (∃ rest, bytes = (read count offset bytes).items.flatMap encode ++ rest) ∧
      (read count offset bytes).items.length +
        (read count offset bytes).damage.toList.length ≤ count ∧
      ((read count offset bytes).damage = none →
        (read count offset bytes).items.length = count) := by
  induction count generalizing offset bytes with
  | zero =>
    rw [h.zero]
    exact ⟨by simp [nothing], ⟨bytes, rfl⟩, Nat.le_refl _, fun _ => rfl⟩
  | succ count ih =>
    rcases h.stop count offset bytes with ⟨a, rest, ha, rfl⟩ | ⟨flaw, hstop⟩
    · rw [h.succ count offset ha, items_cons, damage_cons]
      obtain ⟨hsound, ⟨last, hlast⟩, hmost, hall⟩ := ih (offset + (encode a).length) rest
      refine ⟨List.forall_mem_cons.2 ⟨ha, hsound⟩, ⟨last, ?_⟩, ?_, fun hnone => ?_⟩
      · rw [List.flatMap_cons, List.append_assoc, ← hlast]
      · rw [List.length_cons]
        omega
      · rw [List.length_cons, hall hnone]
    · rw [hstop]
      refine ⟨by simp [stopped], ⟨bytes, rfl⟩, ?_, fun hnone => by cases hnone⟩
      simp [stopped]

/-- **There is no damage exactly where as many sound records stand as are announced.** -/
theorem Counted.damage_eq_none_iff (h : Counted read encode Sound) (count offset : Nat)
    (bytes : Bytes) :
    (read count offset bytes).damage = none ↔ Begins encode Sound count bytes := by
  constructor
  · intro hnone
    obtain ⟨hsound, ⟨rest, hrest⟩, -, hall⟩ := h.front count offset bytes
    exact ⟨_, rest, hall hnone, hsound, hrest⟩
  · rintro ⟨items, rest, rfl, hs, rfl⟩
    rw [h.read_flatMap hs]

/-- **The records give out before as many stand there as are announced**: some sound ones stand in
front, and no sound one follows. -/
structure GivesOut (encode : α → Bytes) (Sound : α → Prop) (count : Nat) (bytes : Bytes)
    (items : List α) (rest : Bytes) : Prop where
  sound : ∀ a ∈ items, Sound a
  bytes : bytes = items.flatMap encode ++ rest
  fewer : items.length < count
  none : ∀ a behind, Sound a → rest ≠ encode a ++ behind

/-- **There is damage exactly where the records give out** before there are as many as were
announced, and its offset is that of the first byte behind the sound ones. -/
theorem Counted.stops_iff (h : Counted read encode Sound) {flawAt : Bytes → Flaw}
    (hflaw : ∀ count offset rest flaw,
      read (count + 1) offset rest = .stopped ⟨flaw, some offset⟩ → flaw = flawAt rest)
    {count offset : Nat} {bytes : Bytes} {items : List α} {d : Damage} :
    read count offset bytes = ⟨items, some d⟩ ↔
      ∃ rest, GivesOut encode Sound count bytes items rest ∧
        d = ⟨flawAt rest, some (offset + (items.flatMap encode).length)⟩ := by
  constructor
  · intro hread
    induction count generalizing offset bytes items with
    | zero =>
      rw [h.zero] at hread
      cases hread
    | succ count ih =>
      rcases h.stop count offset bytes with ⟨a, rest, ha, rfl⟩ | ⟨flaw, hstop⟩
      · rw [h.succ count offset ha] at hread
        obtain ⟨rfl, hdamage⟩ := Reading.mk.inj hread
        have hlater : read count (offset + (encode a).length) rest =
            ⟨(read count (offset + (encode a).length) rest).items, some d⟩ := by rw [← hdamage]
        obtain ⟨last, hout, rfl⟩ := ih hlater
        refine ⟨last, ⟨List.forall_mem_cons.2 ⟨ha, hout.sound⟩, ?_, ?_, hout.none⟩, ?_⟩
        · rw [List.flatMap_cons, List.append_assoc, ← hout.bytes]
        · exact Nat.succ_lt_succ hout.fewer
        · rw [List.flatMap_cons, List.length_append, Nat.add_assoc]
      · rw [hstop] at hread
        cases hread
        refine ⟨bytes, ⟨by simp, rfl, Nat.succ_pos count, ?_⟩, ?_⟩
        · rintro a behind ha rfl
          rw [h.succ count offset ha] at hstop
          cases hstop
        · rw [hflaw count offset bytes flaw hstop]
          rfl
  · rintro ⟨rest, hout, rfl⟩
    obtain ⟨more, rfl⟩ := Nat.exists_eq_add_of_lt hout.fewer
    rw [hout.bytes, Nat.add_assoc, h.read_append hout.sound]
    rcases h.stop more (offset + (items.flatMap encode).length) rest with ⟨a, behind, ha, hrest⟩ |
      ⟨flaw, hstop⟩
    · exact absurd hrest (hout.none a behind ha)
    · rw [hstop, ← hflaw _ _ _ _ hstop, stopped, List.append_nil]

/-- **How often a reader looks for a record** does not depend on how many are announced, if each of
them has a header. -/
theorem Counted.few (h : Counted read encode Sound) {least : Nat} (hpos : 0 < least)
    (hleast : ∀ a, least ≤ (encode a).length) (count offset : Nat) (bytes : Bytes) :
    (read count offset bytes).items.length + (read count offset bytes).damage.toList.length ≤
      bytes.length / least + 1 := by
  obtain ⟨-, ⟨rest, hrest⟩, -, -⟩ := h.front count offset bytes
  have hlength := congrArg List.length hrest
  rw [List.length_append] at hlength
  have hitems : (read count offset bytes).items.length ≤ bytes.length / least := by
    rw [Nat.le_div_iff_mul_le hpos, Nat.mul_comm]
    exact Nat.le_trans (Bytes.mul_length_le_flatMap hleast _) (by omega)
  have hdamage : (read count offset bytes).damage.toList.length ≤ 1 := by
    cases (read count offset bytes).damage <;> simp
  omega

end Reading

/-! ## 2. Pairs and segments -/

namespace Bytes

theorem toNat_word32_digits_append {n : Nat} (h : n < UInt32.size) (rest : Bytes) :
    (word32 (digits 4 n ++ rest)).toNat = n := by
  have htake : (digits 4 n ++ rest).take 4 = digits 4 n := List.take_left' (length_digits 4 n)
  have hrange : range 4 = UInt32.size := rfl
  rw [word32, htake, value_digits, hrange, Nat.mod_eq_of_lt h, UInt32.toNat_ofNat_of_lt' h]

end Bytes

namespace Segment

/-- The value of a pair has a length that a word can hold. -/
def PairSound (pair : Pair) : Prop := pair.2.length < UInt32.size

theorem length_encodePair (pair : Pair) :
    (Relation.encodePair pair).length = pairHeaderLength + pair.2.length := by
  rw [Relation.encodePair, List.length_append, List.length_append, Bytes.length_ofWord64,
    Bytes.length_digits, ← Nat.add_assoc]
  rfl

/-- A pair that stands in front is read. -/
theorem readPairs_encodePair_append (count offset : Nat) {pair : Pair} (h : PairSound pair)
    (rest : Bytes) :
    readPairs (count + 1) offset (Relation.encodePair pair ++ rest) =
      .cons pair (readPairs count (offset + (Relation.encodePair pair).length) rest) := by
  generalize hbody : Relation.encodePair pair ++ rest = body
  have hparts : body = Bytes.ofWord64 pair.1 ++ (Bytes.digits 4 pair.2.length ++
      (pair.2 ++ rest)) := by
    rw [← hbody, Relation.encodePair, List.append_assoc, List.append_assoc]
  have hkey : Bytes.word64 body = pair.1 := by rw [hparts, Bytes.word64_ofWord64_append]
  have hlength : (Bytes.word32 (body.drop 8)).toNat = pair.2.length := by
    rw [hparts, List.drop_left' (by simp), Bytes.toNat_word32_digits_append h]
  have hrest : body.drop pairHeaderLength = pair.2 ++ rest := by
    rw [show pairHeaderLength = 8 + 4 from rfl, ← List.drop_drop, hparts,
      List.drop_left' (by simp), List.drop_left' (by simp)]
  have hhead : Bytes.has pairHeaderLength body = true := by
    rw [Bytes.has_iff, ← hbody, List.length_append, length_encodePair]
    omega
  have hvalue : Bytes.has pair.2.length (body.drop pairHeaderLength) = true := by
    rw [Bytes.has_iff, hrest, List.length_append]
    omega
  rw [readPairs]
  simp only [hhead, hlength, hvalue, hkey, Bool.not_true, Bool.false_eq_true, if_false]
  rw [hrest, List.take_left, List.drop_left, length_encodePair, Nat.add_assoc]

/-- Where a pair is not all there it is reported. -/
theorem readPairs_stop (count offset : Nat) (body : Bytes) :
    (∃ pair rest, PairSound pair ∧ body = Relation.encodePair pair ++ rest) ∨
      ∃ flaw, readPairs (count + 1) offset body = .stopped ⟨flaw, some offset⟩ := by
  rw [readPairs]
  cases hhead : Bytes.has pairHeaderLength body with
  | false => exact .inr ⟨_, rfl⟩
  | true =>
    dsimp only
    cases hvalue : Bytes.has (Bytes.word32 (body.drop 8)).toNat (body.drop pairHeaderLength) with
    | false => exact .inr ⟨_, rfl⟩
    | true =>
      rw [Bytes.has_iff] at hhead hvalue
      have hh : 12 ≤ body.length := hhead
      have hlength := List.length_take_of_le hvalue
      refine .inl ⟨(Bytes.word64 body,
        (body.drop pairHeaderLength).take (Bytes.word32 (body.drop 8)).toNat),
        (body.drop pairHeaderLength).drop (Bytes.word32 (body.drop 8)).toNat, ?_, ?_⟩
      · rw [PairSound, hlength]
        exact UInt32.toNat_lt _
      · have hkey : Bytes.ofWord64 (Bytes.word64 body) = body.take 8 :=
          Bytes.ofWord64_word64 (by omega)
        have hword : Bytes.digits 4 (Bytes.word32 (body.drop 8)).toNat = (body.drop 8).take 4 :=
          Bytes.ofWord32_word32 (by rw [List.length_drop]; omega)
        rw [Relation.encodePair, hlength, hkey, hword, List.append_assoc, List.append_assoc,
          List.take_append_drop, show pairHeaderLength = 8 + 4 from rfl, ← List.drop_drop,
          List.take_append_drop, List.take_append_drop]

/-- What is wrong with bytes in which no pair stands. -/
def pairFlawAt (rest : Bytes) : Flaw :=
  if rest.length < pairHeaderLength then .pairTruncated else .valueBeyondBody

theorem flaw_of_readPairs {count offset : Nat} {rest : Bytes} {flaw : Flaw}
    (h : readPairs (count + 1) offset rest = .stopped ⟨flaw, some offset⟩) :
    flaw = pairFlawAt rest := by
  rw [readPairs] at h
  rw [pairFlawAt]
  split at h
  · rename_i hshort
    rw [Bool.not_eq_true', ← Bool.not_eq_true, Bytes.has_iff, Nat.not_le] at hshort
    cases h
    rw [if_pos hshort]
  · rename_i hlong
    rw [Bool.not_eq_true', Bool.not_eq_false, Bytes.has_iff] at hlong
    rw [if_neg (Nat.not_lt.2 hlong)]
    dsimp only at h
    split at h <;> cases h
    rfl

/-- **The pairs of a body are read as counted records.** -/
theorem counted_readPairs : Reading.Counted readPairs Relation.encodePair PairSound where
  zero _ _ := rfl
  succ count offset _ h rest := readPairs_encodePair_append count offset h rest
  stop := readPairs_stop

/-- The body of a segment has a length that a word can hold. -/
def Sound (s : Segment) : Prop := s.body.length < UInt32.size

/-- **The segment in bytes**: type, announced number of pairs and body length, then the body. -/
def encode (s : Segment) : Bytes :=
  Bytes.ofWord64 s.typeId ++
    (Bytes.ofWord32 s.count ++ (Bytes.digits 4 s.body.length ++ s.body))

theorem length_encode (s : Segment) : s.encode.length = headerLength + s.body.length := by
  rw [encode, List.length_append, List.length_append, List.length_append, Bytes.length_ofWord64,
    Bytes.length_ofWord32, Bytes.length_digits, ← Nat.add_assoc, ← Nat.add_assoc]
  rfl

/-- A segment that stands in front is read. -/
theorem readAll_encode_append (count offset : Nat) {s : Segment} (h : s.Sound) (rest : Bytes) :
    readAll (count + 1) offset (s.encode ++ rest) =
      .cons s (readAll count (offset + s.encode.length) rest) := by
  generalize hpayload : s.encode ++ rest = payload
  have hparts : payload = Bytes.ofWord64 s.typeId ++ (Bytes.ofWord32 s.count ++
      (Bytes.digits 4 s.body.length ++ (s.body ++ rest))) := by
    rw [← hpayload, encode, List.append_assoc, List.append_assoc, List.append_assoc]
  have h8 : payload.drop 8 = Bytes.ofWord32 s.count ++
      (Bytes.digits 4 s.body.length ++ (s.body ++ rest)) := by
    rw [hparts, List.drop_left' (by simp)]
  have h12 : payload.drop 12 = Bytes.digits 4 s.body.length ++ (s.body ++ rest) := by
    rw [show 12 = 8 + 4 from rfl, ← List.drop_drop, h8, List.drop_left' (by simp)]
  have hrest : payload.drop headerLength = s.body ++ rest := by
    rw [show headerLength = 12 + 4 from rfl, ← List.drop_drop, h12, List.drop_left' (by simp)]
  have htype : Bytes.word64 payload = s.typeId := by rw [hparts, Bytes.word64_ofWord64_append]
  have hcount : Bytes.word32 (payload.drop 8) = s.count := by
    rw [h8, Bytes.word32_ofWord32_append]
  have hlength : (Bytes.word32 (payload.drop 12)).toNat = s.body.length := by
    rw [h12, Bytes.toNat_word32_digits_append h]
  have hhead : Bytes.has headerLength payload = true := by
    rw [Bytes.has_iff, ← hpayload, List.length_append, length_encode]
    omega
  have hbody : Bytes.has s.body.length (payload.drop headerLength) = true := by
    rw [Bytes.has_iff, hrest, List.length_append]
    omega
  rw [readAll]
  simp only [hhead, hlength, hbody, htype, hcount, Bool.not_true, Bool.false_eq_true, if_false]
  rw [hrest, List.take_left, List.drop_left, length_encode, Nat.add_assoc]

/-- Where a segment is not all there it is reported. -/
theorem readAll_stop (count offset : Nat) (payload : Bytes) :
    (∃ s rest, Sound s ∧ payload = s.encode ++ rest) ∨
      ∃ flaw, readAll (count + 1) offset payload = .stopped ⟨flaw, some offset⟩ := by
  rw [readAll]
  cases hhead : Bytes.has headerLength payload with
  | false => exact .inr ⟨_, rfl⟩
  | true =>
    dsimp only
    cases hbody : Bytes.has (Bytes.word32 (payload.drop 12)).toNat (payload.drop headerLength) with
    | false => exact .inr ⟨_, rfl⟩
    | true =>
      rw [Bytes.has_iff] at hhead hbody
      have hh : 16 ≤ payload.length := hhead
      have hlength := List.length_take_of_le hbody
      refine .inl ⟨⟨Bytes.word64 payload, Bytes.word32 (payload.drop 8),
        (payload.drop headerLength).take (Bytes.word32 (payload.drop 12)).toNat⟩,
        (payload.drop headerLength).drop (Bytes.word32 (payload.drop 12)).toNat, ?_, ?_⟩
      · rw [Sound, hlength]
        exact UInt32.toNat_lt _
      · have htype : Bytes.ofWord64 (Bytes.word64 payload) = payload.take 8 :=
          Bytes.ofWord64_word64 (by omega)
        have hcount : Bytes.ofWord32 (Bytes.word32 (payload.drop 8)) = (payload.drop 8).take 4 :=
          Bytes.ofWord32_word32 (by rw [List.length_drop]; omega)
        have hword : Bytes.digits 4 (Bytes.word32 (payload.drop 12)).toNat =
            (payload.drop 12).take 4 := Bytes.ofWord32_word32 (by rw [List.length_drop]; omega)
        rw [encode, hlength, htype, hcount, hword, List.append_assoc, List.append_assoc,
          List.append_assoc, List.take_append_drop, show headerLength = 12 + 4 from rfl,
          ← List.drop_drop, List.take_append_drop, show 12 = 8 + 4 from rfl, ← List.drop_drop,
          List.take_append_drop, List.take_append_drop]

/-- What is wrong with bytes in which no segment stands. -/
def flawAt (rest : Bytes) : Flaw :=
  if rest.length < headerLength then .segmentHeaderTruncated else .segmentBodyBeyondPayload

theorem flaw_of_readAll {count offset : Nat} {rest : Bytes} {flaw : Flaw}
    (h : readAll (count + 1) offset rest = .stopped ⟨flaw, some offset⟩) :
    flaw = flawAt rest := by
  rw [readAll] at h
  rw [flawAt]
  split at h
  · rename_i hshort
    rw [Bool.not_eq_true', ← Bool.not_eq_true, Bytes.has_iff, Nat.not_le] at hshort
    cases h
    rw [if_pos hshort]
  · rename_i hlong
    rw [Bool.not_eq_true', Bool.not_eq_false, Bytes.has_iff] at hlong
    rw [if_neg (Nat.not_lt.2 hlong)]
    dsimp only at h
    split at h <;> cases h
    rfl

/-- **The segments of a payload are read as counted records.** -/
theorem counted_readAll : Reading.Counted readAll encode Sound where
  zero _ _ := rfl
  succ count offset _ h rest := readAll_encode_append count offset h rest
  stop := readAll_stop

end Segment

/-! ## 3. Relations -/

namespace Relation

def segment (r : Relation) : Segment := ⟨r.typeId, UInt32.ofNat r.count, r.body⟩

theorem length_encode (r : Relation) : r.encode.length = Segment.headerLength + r.body.length := by
  simp [encode, Segment.headerLength]
  omega

theorem mul_length_le (relations : List Relation) :
    Segment.headerLength * relations.length ≤ (relations.map encode).flatten.length := by
  rw [← List.flatMap_def]
  refine Bytes.mul_length_le_flatMap (fun r => ?_) relations
  rw [length_encode]
  exact Nat.le_add_right ..

theorem sizes_le (r : Relation) :
    r.count ≤ r.body.length ∧ ∀ pair ∈ r.pairs, pair.2.length ≤ r.body.length := by
  rw [body_eq, count]
  induction r.pairs with
  | nil => simp
  | cons pair pairs ih =>
    obtain ⟨hcount, hvalues⟩ := ih
    simp only [List.map_cons, List.flatten_cons, List.length_append, List.length_cons, encodePair,
      Bytes.length_ofWord64, Bytes.length_digits]
    refine ⟨by omega, List.forall_mem_cons.2 ⟨by omega, fun x hx => ?_⟩⟩
    have := hvalues x hx
    omega

variable {r : Relation}

theorem toNat_count_segment (h : r.body.length < UInt32.size) :
    r.segment.count.toNat = r.count := by
  have := r.sizes_le.1
  exact UInt32.toNat_ofNat_of_lt' (by omega)

theorem encode_segment (h : r.body.length < UInt32.size) : r.segment.encode = r.encode := by
  rw [Segment.encode, Bytes.ofWord32, toNat_count_segment h]
  rfl

/-- **The pairs of a relation are read back.** -/
theorem pairs_segment (h : r.body.length < UInt32.size) : r.segment.pairs = ⟨r.pairs, none⟩ := by
  have hsound : ∀ pair ∈ r.pairs, Segment.PairSound pair := by
    intro pair hp
    exact Nat.lt_of_le_of_lt (r.sizes_le.2 pair hp) h
  have hpairs := Segment.counted_readPairs.read_flatMap hsound 0 []
  rw [List.append_nil, List.flatMap_def, ← body_eq] at hpairs
  rw [Segment.pairs, toNat_count_segment h]
  exact hpairs

/-- **Segments are read back as their relations**, whatever follows them. -/
theorem readAll_encode {relations : List Relation}
    (h : ∀ r ∈ relations, r.body.length < UInt32.size) (offset : Nat) (rest : Bytes) :
    Segment.readAll relations.length offset ((relations.map encode).flatten ++ rest) =
      ⟨relations.map segment, none⟩ := by
  have hsound : ∀ s ∈ relations.map segment, s.Sound := by
    rintro s hs
    obtain ⟨r, hr, rfl⟩ := List.mem_map.1 hs
    exact h r hr
  have hbytes :
      (relations.map segment).flatMap Segment.encode = (relations.map encode).flatten := by
    rw [List.flatMap_map, List.flatMap_def]
    exact congrArg List.flatten (List.map_congr_left fun r hr => encode_segment (h r hr))
  have hread := Segment.counted_readAll.read_flatMap hsound offset rest
  rwa [List.length_map, hbytes] at hread

end Relation

end TraceRecorder
