/-
# The grammar of a chunk

A chunk is whole entries, one behind the other, and nothing else.  `Entry.Laid` says of some entries
that they lie so and that each header tells the truth of its payload; `Entry.Starts` says by the
fields of a header that a valid entry begins where some bytes do.  Neither knows of the reader.

* `Header.read_eq_ok_iff_exists`: what is read at one place is what was written there;
* `Entry.Laid.readFrom_append`: entries that lie in front are all read, whatever follows them;
* `Entry.readFrom_laid`: what is read lies in front, and then either nothing is left or no valid
  entry begins;
* `Entry.Laid.readFrom_take`: of entries that are cut somewhere those before the cut are read.

So the reader accepts just the chunks of the grammar, and of any other byte string it takes the
longest part that is of it (`Entry.parses`).
-/
import Mathlib.Data.List.Forall2
import TraceRecorder.Proofs.Chunk.Pieces

namespace TraceRecorder

/-! ## 1. One entry -/

namespace Header

/-- **The header tells the truth of a payload**: its size is that of the whole entry, and only an
empty payload has no segments. -/
structure Announces (h : Header) (payload : Bytes) : Prop where
  size : h.size.toNat = length + payload.length
  counted : h.segments = 0 → payload = []

/-- **A whole entry is read exactly where a header stands in front of its payload.** -/
theorem read_eq_ok_iff_exists {bytes : Bytes} {h : Header} :
    read bytes = .ok h ↔
      ∃ payload rest, h.Announces payload ∧ bytes = h.encode ++ (payload ++ rest) := by
  have hl : length = 32 := rfl
  rw [read_eq_ok_iff]
  constructor
  · rintro ⟨hd, hleast, hmost, hcounted⟩
    have hsize : (bytes.take h.size.toNat).length = h.size.toNat := List.length_take_of_le hmost
    refine ⟨(bytes.take h.size.toNat).drop length, bytes.drop h.size.toNat, ⟨?_, ?_⟩, ?_⟩
    · rw [List.length_drop, hsize]
      omega
    · intro hnone
      apply List.eq_nil_of_length_eq_zero
      rw [List.length_drop, hsize]
      exact hcounted hnone
    · have htake : h.encode = (bytes.take h.size.toNat).take length := by
        rw [encode_of_decode hd, List.take_take, Nat.min_eq_left hleast]
      rw [htake, ← List.append_assoc, List.take_append_drop, List.take_append_drop]
  · rintro ⟨payload, rest, ⟨hsize, hcounted⟩, rfl⟩
    refine ⟨decode_encode_append h _, by omega, ?_, fun hnone => ?_⟩
    · simp only [List.length_append, length_encode]
      omega
    · rw [payloadLength, hsize, hcounted hnone]
      rfl

end Header

namespace Entry

/-- **A valid entry begins here**: there are the 32 bytes of a header, the flushpoint word is 0 or
1, the size is that of the header at least and of what is there at most, and an entry without
segments has no payload. -/
structure Starts (bytes : Bytes) : Prop where
  header : Header.length ≤ bytes.length
  flag : Bytes.word32 (bytes.drop 24) = 0 ∨ Bytes.word32 (bytes.drop 24) = 1
  least : Header.length ≤ sizeAt bytes
  most : sizeAt bytes ≤ bytes.length
  counted : Bytes.word32 (bytes.drop 28) = 0 → sizeAt bytes = Header.length

/-- **The reader reads an entry exactly where a valid one begins**, whatever follows it.  So where
it stops is a matter of the bytes alone, and not of how far it has come. -/
theorem starts_iff {bytes : Bytes} : Starts bytes ↔ ∃ header, Header.read bytes = .ok header := by
  constructor
  · rintro ⟨hheader, hflag, hleast, hmost, hcounted⟩
    obtain ⟨flushpoint, hflag⟩ :
        ∃ b : Bool, Bytes.word32 (bytes.drop 24) = if b then 1 else 0 :=
      hflag.elim (⟨false, ·⟩) (⟨true, ·⟩)
    refine ⟨⟨Bytes.word64 bytes, Bytes.word64 (bytes.drop 8), Bytes.word64 (bytes.drop 16),
      flushpoint, Bytes.word32 (bytes.drop 28)⟩, Header.read_eq_ok_iff.2 ⟨?_, hleast, hmost, ?_⟩⟩
    · exact Header.decode_eq_ok_iff.2 ⟨hheader, rfl, rfl, rfl, hflag, rfl⟩
    · exact fun hnone => Nat.sub_eq_zero_of_le (Nat.le_of_eq (hcounted hnone))
  · rintro ⟨header, hr⟩
    obtain ⟨hd, hleast, hmost, hcounted⟩ := Header.read_eq_ok_iff.1 hr
    obtain ⟨hheader, hsize, -, -, hflag, hsegments⟩ := Header.decode_eq_ok_iff.1 hd
    rw [hsize] at hleast hmost
    refine ⟨hheader, ?_, hleast, hmost, fun hnone => ?_⟩
    · cases hb : header.flushpoint with
      | false => exact .inl (by rw [hflag, hb]; rfl)
      | true => exact .inr (by rw [hflag, hb]; rfl)
    · have hzero := hcounted (hsegments.trans hnone)
      rw [Header.payloadLength, hsize] at hzero
      exact Nat.le_antisymm (Nat.le_of_sub_eq_zero hzero) hleast

def encode (e : Entry) : Bytes := e.header.encode ++ e.payload

def stop (e : Entry) : Nat := e.offset + e.encode.length

/-! ## 2. Rows of entries -/

/-- **The entries lie one behind the other** from an offset on, and each header tells the truth of
its payload. -/
def Laid : Nat → List Entry → Prop
  | _, [] => True
  | offset, e :: es =>
    e.offset = offset ∧ e.header.Announces e.payload ∧ Laid (offset + e.encode.length) es

variable {offset : Nat} {e : Entry} {es : List Entry} {rest : Bytes}

theorem length_encode (e : Entry) : e.encode.length = Header.length + e.payload.length := by
  rw [encode, List.length_append, Header.length_encode]

theorem readFrom_encode_append (h : e.header.Announces e.payload) (rest : Bytes) :
    readFrom e.offset (e.encode ++ rest) =
      .cons e (readFrom (e.offset + e.encode.length) rest) := by
  have hread : Header.read (e.encode ++ rest) = .ok e.header :=
    Header.read_eq_ok_iff_exists.2 ⟨e.payload, rest, h, by rw [encode, List.append_assoc]⟩
  have hsize : e.header.size.toNat = e.encode.length := by rw [h.size, length_encode]
  rw [readFrom_of_ok hread, hsize, List.take_left, List.drop_left, encode,
    List.drop_left' (Header.length_encode _)]

/-- **Entries that lie in front are all read**, whatever follows them. -/
theorem Laid.readFrom_append (h : Laid offset es) (rest : Bytes) :
    readFrom offset (es.flatMap encode ++ rest) =
      ⟨es ++ (readFrom (offset + (es.flatMap encode).length) rest).items,
        (readFrom (offset + (es.flatMap encode).length) rest).damage⟩ := by
  induction es generalizing offset with
  | nil => rfl
  | cons e es ih =>
    obtain ⟨rfl, hsound, hrest⟩ := h
    rw [List.flatMap_cons, List.append_assoc, readFrom_encode_append hsound, ih hrest,
      List.length_append, Nat.add_assoc]
    rfl

/-- **How a reading ends**: nothing is left, or no valid entry begins in what is left.  The fields
of a header are looked at only if all of it is there. -/
inductive Halts (offset : Nat) : Bytes → Option Damage → Prop
  | done : Halts offset [] none
  | damaged {rest : Bytes} {flaw : Flaw} (hne : rest ≠ []) (hno : ¬ Starts rest)
      (hshort : flaw = .headerTruncated ↔ rest.length < Header.length) :
      Halts offset rest (some ⟨flaw, some offset⟩)

theorem truncated_iff {bytes : Bytes} {flaw : Flaw} (h : Header.read bytes = .error flaw) :
    flaw = .headerTruncated ↔ bytes.length < Header.length := by
  rw [← Nat.not_le, ← Bytes.has_iff]
  constructor
  · rintro rfl hhas
    exact Header.read_ne_headerTruncated hhas h
  · intro hhas
    have hd : Header.decode bytes = .error .headerTruncated := by simp [Header.decode, hhas]
    rw [Header.read, hd] at h
    cases h
    rfl

theorem halts_readFrom (hno : ¬ Starts rest) (offset : Nat) :
    (readFrom offset rest).items = [] ∧ Halts offset rest (readFrom offset rest).damage := by
  by_cases hne : rest = []
  · rw [hne, readFrom_nil]
    exact ⟨rfl, .done⟩
  · cases hr : Header.read rest with
    | error flaw =>
      rw [readFrom_of_error hne hr]
      exact ⟨rfl, .damaged hne hno (truncated_iff hr)⟩
    | ok header => exact absurd (starts_iff.2 ⟨header, hr⟩) hno

/-- **What is read lies in front**, and there the reading ends: either nothing is left, or what is
left does not begin with a valid entry, and the damage says why and where. -/
theorem readFrom_laid (offset : Nat) (bytes : Bytes) :
    Laid offset (readFrom offset bytes).items ∧
      ∃ rest, bytes = (readFrom offset bytes).items.flatMap encode ++ rest ∧
        Halts (offset + ((readFrom offset bytes).items.flatMap encode).length) rest
          (readFrom offset bytes).damage := by
  -- The cases are those of the reader: nothing is left, no header, or an entry and what follows it.
  induction offset, bytes using readFrom.induct with
  | case1 offset bytes he =>
    obtain rfl : bytes = [] := by simpa using he
    rw [readFrom_nil]
    exact ⟨trivial, [], rfl, .done⟩
  | case2 offset bytes he flaw hr =>
    have hno : ¬ Starts bytes := by
      rintro hs
      obtain ⟨header, hr'⟩ := starts_iff.1 hs
      rw [hr] at hr'
      cases hr'
    obtain ⟨hnone, hhalts⟩ := halts_readFrom hno offset
    rw [hnone]
    exact ⟨trivial, bytes, rfl, hhalts⟩
  | case3 offset bytes he header hr size ih =>
    obtain ⟨e, rfl, rfl, hsound, rest, rfl⟩ : ∃ e : Entry, e.offset = offset ∧
        e.header = header ∧ e.header.Announces e.payload ∧ ∃ rest, bytes = e.encode ++ rest := by
      obtain ⟨payload, rest, hsound, rfl⟩ := Header.read_eq_ok_iff_exists.1 hr
      exact ⟨⟨offset, header, payload⟩, rfl, rfl, hsound, rest, (List.append_assoc ..).symm⟩
    have hsize : size = e.encode.length := hsound.size.trans e.length_encode.symm
    rw [hsize, List.drop_left] at ih
    obtain ⟨hlaid, last, hlast, hhalts⟩ := ih
    rw [readFrom_encode_append hsound, Reading.items_cons, Reading.damage_cons]
    refine ⟨⟨rfl, hsound, hlaid⟩, last, ?_, ?_⟩
    · rw [List.flatMap_cons, List.append_assoc, ← hlast]
    · rwa [List.flatMap_cons, List.length_append, ← Nat.add_assoc]

/-! ## 3. Entries as they were framed -/

/-- **The entry is what is read of some bytes** that stand at an offset. -/
structure Views (entry : Entry) (offset : Nat) (e : Bytes) : Prop where
  offset : entry.offset = offset
  bytes : entry.encode = e
  sound : entry.header.Announces entry.payload

theorem Frames.views {e : Bytes} {run : List Bytes} {startTime : UInt64} {flushpoint : Bool}
    (h : Frames e run startTime flushpoint) (offset : Nat) :
    ∃ entry : Entry, entry.Views offset e ∧ entry.payload = run.flatten ∧
      entry.header.segments.toNat = run.length ∧ entry.header.flushpoint = flushpoint := by
  obtain ⟨header, hdecode, hpayload, hlength, hsize, hcount, -, hflushpoint⟩ := h
  refine ⟨⟨offset, header, e.drop Header.length⟩, ⟨rfl, ?_, ?_, fun hnone => ?_⟩, hpayload, hcount,
    hflushpoint⟩
  · rw [encode, Header.encode_of_decode hdecode, List.take_append_drop]
  · rw [hsize, List.length_drop]
    omega
  · rw [hnone] at hcount
    obtain rfl : run = [] := List.eq_nil_of_length_eq_zero hcount.symm
    exact hpayload

/-- **Bytes that are each read as an entry are laid** when they are put one behind the other. -/
theorem exists_laid {α : Type} {R : Bytes → α → Prop} {S : Entry → α → Prop}
    (h : ∀ e x, R e x → ∀ offset, ∃ entry : Entry, entry.Views offset e ∧ S entry x)
    {es : List Bytes} {xs : List α} (hs : List.Forall₂ R es xs) (offset : Nat) :
    ∃ entries, Laid offset entries ∧ entries.map encode = es ∧ List.Forall₂ S entries xs := by
  induction hs generalizing offset with
  | nil => exact ⟨[], trivial, rfl, .nil⟩
  | @cons e x es xs he _ ih =>
    obtain ⟨entry, hviews, hentry⟩ := h e x he offset
    obtain ⟨entries, hlaid, hentries, hall⟩ := ih (offset + entry.encode.length)
    refine ⟨entry :: entries, ⟨hviews.offset, hviews.sound, hlaid⟩, ?_, .cons hentry hall⟩
    rw [List.map_cons, hviews.bytes, hentries]

/-! ## 4. Cuts -/

/-- The entry begins before the cut at `n` and ends behind it. -/
def CutAt (e : Entry) (n : Nat) : Prop := e.offset < n ∧ n < e.stop

instance (e : Entry) (n : Nat) : Decidable (e.CutAt n) := inferInstanceAs (Decidable (_ ∧ _))

/-- What is found at an entry that is cut at `n`: its header is not all there, or its payload is
not. -/
def cutDamage (e : Entry) (n : Nat) : Damage :=
  ⟨if n < e.offset + Header.length then .headerTruncated else .sizeBeyondChunk, some e.offset⟩

/-- Of an entry that is cut nothing is read. -/
theorem readFrom_take_encode (h : e.header.Announces e.payload) {n : Nat}
    (hn : e.CutAt (e.offset + n)) :
    readFrom e.offset (e.encode.take n) = .stopped (e.cutDamage (e.offset + n)) := by
  have hlength := length_encode e
  obtain ⟨hpos, hshort⟩ : 0 < n ∧ n < e.encode.length := by
    obtain ⟨hbegin, hend⟩ := hn
    rw [stop] at hend
    omega
  have htake : (e.encode.take n).length = n := List.length_take_of_le (Nat.le_of_lt hshort)
  have hne : e.encode.take n ≠ [] := List.ne_nil_of_length_pos (by omega)
  rw [cutDamage]
  by_cases hheader : n < Header.length
  · have hread : Header.read (e.encode.take n) = .error .headerTruncated := by
      cases hr : Header.read (e.encode.take n) with
      | error flaw => rw [(truncated_iff hr).2 (by omega)]
      | ok header =>
        have := Header.decode_eq_ok_iff.1 (Header.read_eq_ok_iff.1 hr).1
        omega
    rw [readFrom_of_error hne hread, if_pos (by omega)]
  · have hdecode : Header.decode (e.encode.take n) = .ok e.header := by
      rw [encode, List.take_append, List.take_of_length_le (by rw [Header.length_encode]; omega)]
      exact Header.decode_encode_append _ _
    have hread : Header.read (e.encode.take n) = .error .sizeBeyondChunk := by
      have hsize := h.size
      rw [Header.read, hdecode]
      simp only [Header.flaw?]
      rw [if_neg (by omega), if_pos (by rw [List.length_take]; omega)]
    rw [readFrom_of_error hne hread, if_neg (by omega)]

theorem Laid.offset_le (h : Laid offset es) (he : e ∈ es) : offset ≤ e.offset := by
  induction es generalizing offset with
  | nil => cases he
  | cons e' es ih =>
    obtain ⟨hfirst, -, hrest⟩ := h
    cases he with
    | head => exact Nat.le_of_eq hfirst.symm
    | tail _ he => exact Nat.le_trans (Nat.le_add_right ..) (ih hrest he)

theorem Laid.behind (h : Laid offset es) {n : Nat} (hn : n ≤ offset) :
    es.filter (·.stop ≤ n) = [] ∧ es.find? (·.CutAt n) = none := by
  have hbegin (e : Entry) (he : e ∈ es) : n ≤ e.offset := Nat.le_trans hn (h.offset_le he)
  refine ⟨List.filter_eq_nil_iff.2 fun e he => ?_, List.find?_eq_none.2 fun e he => ?_⟩
  · have hlength := length_encode e
    have hl : Header.length = 32 := rfl
    have hoffset := hbegin e he
    rw [decide_eq_true_eq, stop]
    omega
  · rw [decide_eq_true_eq]
    exact fun hcut => Nat.not_lt.2 (hbegin e he) hcut.1

/-- **Of entries that are cut at some place those before the cut are read**, and the one that the
cut goes through, if there is one, is damaged. -/
theorem Laid.readFrom_take (h : Laid offset es) (n : Nat) :
    readFrom offset ((es.flatMap encode).take n) =
      ⟨es.filter (·.stop ≤ offset + n),
        (es.find? (·.CutAt (offset + n))).map (·.cutDamage (offset + n))⟩ := by
  induction es generalizing offset n with
  | nil =>
    rw [List.flatMap_nil, List.take_nil, readFrom_nil]
    rfl
  | cons e es ih =>
    -- The cut is in front of the first entry, goes through it, or is not before its end.
    rcases Nat.eq_zero_or_pos n with rfl | hpos
    · obtain ⟨hnone, huncut⟩ := h.behind (Nat.le_refl offset)
      rw [List.take_zero, readFrom_nil, Nat.add_zero, hnone, huncut]
      rfl
    obtain ⟨rfl, hsound, hrest⟩ := h
    rw [List.flatMap_cons]
    by_cases hinside : n < e.encode.length
    · have hcut : e.CutAt (e.offset + n) := ⟨by omega, by rw [stop]; omega⟩
      have hopen : ¬ e.stop ≤ e.offset + n := Nat.not_le.2 hcut.2
      have hbehind : e.offset + n ≤ e.offset + e.encode.length := by omega
      rw [List.take_append_of_le_length (by omega), readFrom_take_encode hsound hcut,
        List.filter_cons_of_neg (by simpa using hopen), (hrest.behind hbehind).1,
        List.find?_cons_of_pos (by simpa using hcut)]
      rfl
    · obtain ⟨n, rfl⟩ := Nat.exists_eq_add_of_le (Nat.not_lt.1 hinside)
      have hstop : e.stop ≤ e.offset + (e.encode.length + n) := by
        rw [stop]
        omega
      have huncut : ¬ e.CutAt (e.offset + (e.encode.length + n)) := fun hcut =>
        absurd hcut.2 (Nat.not_lt.2 hstop)
      rw [List.take_length_add_append, readFrom_encode_append hsound, ih hrest,
        List.filter_cons_of_pos (by simpa using hstop),
        List.find?_cons_of_neg (by simpa using huncut), Nat.add_assoc]
      rfl

/-! ## 5. Chunks -/

/-- **An entry stands in a chunk**: all of it is there, with its header and its payload in place. -/
structure StandsIn (e : Entry) (chunk : Bytes) : Prop where
  inside : e.offset + e.header.size.toNat ≤ chunk.length
  header : Header.decode (chunk.drop e.offset) = .ok e.header
  payload : e.payload = (chunk.drop (e.offset + Header.length)).take e.header.payloadLength

/-- Entries that lie somewhere in a chunk stand there. -/
theorem Laid.standsIn (before : Bytes) (h : Laid before.length es) (he : e ∈ es) (rest : Bytes) :
    e.StandsIn (before ++ (es.flatMap encode ++ rest)) := by
  induction es generalizing before with
  | nil => cases he
  | cons e' es ih =>
    obtain ⟨hoffset, hsound, hrest⟩ := h
    rw [List.flatMap_cons, List.append_assoc]
    cases he with
    | head =>
      have hsize := hsound.size
      have hlength := length_encode e
      refine ⟨?_, ?_, ?_⟩
      · simp only [List.length_append]
        omega
      · rw [hoffset, List.drop_left, encode, List.append_assoc]
        exact Header.decode_encode_append _ _
      · have hpayload : e.header.payloadLength = e.payload.length := by
          rw [Header.payloadLength, hsize, Nat.add_sub_cancel_left]
        rw [← List.drop_drop, hoffset, List.drop_left, encode, List.append_assoc,
          List.drop_left' (Header.length_encode _), hpayload, List.take_left]
    | tail _ he =>
      have hstands := ih (before ++ e'.encode) (by rwa [List.length_append]) he
      rwa [List.append_assoc] at hstands

/-- **What a reading takes of a chunk**: entries that fill the first `taken` bytes, and damage where
they end, unless they fill all of it. -/
structure Takes (chunk : Bytes) (reading : Reading Entry) (taken : Nat) : Prop where
  within : taken ≤ chunk.length
  laid : Laid 0 reading.items
  front : reading.items.flatMap encode = chunk.take taken
  standing : ∀ e ∈ reading.items, e.StandsIn chunk
  /-- How often the reader looks for an entry. -/
  few : reading.items.length + reading.damage.toList.length ≤ chunk.length / Header.length + 1
  complete : reading.damage = none ↔ taken = chunk.length
  damaged : ∀ damage, reading.damage = some damage →
    damage.offset = some taken ∧ damage.report.kind = .corrupt ∧ ¬ Starts (chunk.drop taken) ∧
      (damage.flaw = .headerTruncated ↔ chunk.length < taken + Header.length)

/-- A reading takes what lies in front. -/
theorem takes_readAll (chunk : Bytes) :
    Takes chunk (readAll chunk) ((readAll chunk).items.flatMap encode).length := by
  obtain ⟨hlaid, rest, hchunk, hhalts⟩ := readFrom_laid 0 chunk
  change Laid 0 (readAll chunk).items at hlaid
  change chunk = (readAll chunk).items.flatMap encode ++ rest at hchunk
  change Halts (0 + ((readAll chunk).items.flatMap encode).length) rest
    (readAll chunk).damage at hhalts
  generalize readAll chunk = reading at hlaid hchunk hhalts
  rw [Nat.zero_add] at hhalts
  have hlength : chunk.length = (reading.items.flatMap encode).length + rest.length := by
    rw [hchunk, List.length_append]
  have hcount : reading.items.length ≤ chunk.length / Header.length := by
    have hleast (e : Entry) : Header.length ≤ e.encode.length := by
      rw [length_encode]
      exact Nat.le_add_right ..
    rw [Nat.le_div_iff_mul_le (by decide), Nat.mul_comm]
    exact Nat.le_trans (Bytes.mul_length_le_flatMap hleast _) (by omega)
  refine
    { within := by omega
      laid := hlaid
      front := by rw [hchunk, List.take_left]
      standing := fun e he => hchunk ▸ hlaid.standsIn [] he rest
      few := ?_
      complete := ?_
      damaged := ?_ }
  · have : reading.damage.toList.length ≤ 1 := by cases reading.damage <;> simp
    omega
  · constructor
    · intro hnone
      rw [hnone] at hhalts
      cases hhalts
      exact hlength.symm
    · intro hall
      obtain rfl : rest = [] := List.eq_nil_of_length_eq_zero (by omega)
      generalize reading.damage = damage at hhalts
      cases hhalts with
      | done => rfl
      | damaged hne => exact absurd rfl hne
  · intro damage hsome
    rw [hsome] at hhalts
    have hdrop : chunk.drop (reading.items.flatMap encode).length = rest := by
      rw [hchunk, List.drop_left]
    cases hhalts with
    | damaged _ hno hshort =>
      rw [hdrop]
      exact ⟨rfl, rfl, hno, hshort.trans (by omega)⟩

theorem not_starts_nil : ¬ Starts [] := fun hs => absurd hs.header (by decide)

/-- Nothing can be read in another way: entries in front of which nothing stands and behind which
no valid entry begins are those that are read. -/
theorem Laid.items_eq (h : Laid 0 es) (hno : ¬ Starts rest) :
    (readAll (es.flatMap encode ++ rest)).items = es := by
  rw [readAll, h.readFrom_append, (halts_readFrom hno _).1, List.append_nil]

/-- **Entries alone are read without damage.** -/
theorem Laid.readAll_eq (h : Laid 0 es) : readAll (es.flatMap encode) = ⟨es, none⟩ := by
  have hread := h.readFrom_append []
  rw [readFrom_nil, List.append_nil] at hread
  exact hread.trans (congrArg (Reading.mk · none) (List.append_nil es))

theorem readAll_encode (hoffset : e.offset = 0) (h : e.header.Announces e.payload) :
    readAll e.encode = ⟨[e], none⟩ := by
  have hlaid : Laid 0 [e] := ⟨hoffset, h, trivial⟩
  have hread := hlaid.readAll_eq
  rwa [List.flatMap_singleton] at hread

theorem eq_flatMap_of_damage {chunk : Bytes} (h : (readAll chunk).damage = none) :
    chunk = (readAll chunk).items.flatMap encode := by
  have htakes := takes_readAll chunk
  rw [htakes.front, htakes.complete.1 h, List.take_length]

/-- **The reader accepts the entry grammar**, on every byte string.  It looks for an entry no more
often than the chunk has room for headers and once more, takes entries that fill the front of the
chunk as far as valid entries follow each other, and reports damage just where the next one would
have to begin, unless nothing is left.  No other entries could be taken; the chunks without damage
are those made of entries alone; and of such a chunk that is cut somewhere the entries before the
cut are read, with damage at the start of the one that the cut goes through. -/
theorem parses (chunk : Bytes) :
    (∃ taken, Takes chunk (readAll chunk) taken) ∧
    (∀ es rest, Laid 0 es → chunk = es.flatMap encode ++ rest → ¬ Starts rest →
      (readAll chunk).items = es) ∧
    ((readAll chunk).damage = none ↔ ∃ es, Laid 0 es ∧ chunk = es.flatMap encode) ∧
    ((readAll chunk).damage = none → ∀ n,
      readAll (chunk.take n) =
        ⟨(readAll chunk).items.filter (·.stop ≤ n),
          ((readAll chunk).items.find? (·.CutAt n)).map (·.cutDamage n)⟩) := by
  refine ⟨⟨_, takes_readAll chunk⟩, ?_, ⟨fun hnone => ?_, ?_⟩, ?_⟩
  · rintro es rest hes rfl hno
    exact hes.items_eq hno
  · exact ⟨_, (takes_readAll chunk).laid, eq_flatMap_of_damage hnone⟩
  · rintro ⟨es, hes, rfl⟩
    rw [hes.readAll_eq]
  · intro hnone n
    have hcut := (takes_readAll chunk).laid.readFrom_take n
    rw [← eq_flatMap_of_damage hnone, Nat.zero_add] at hcut
    exact hcut

/-- Two entries of which the second one lacks a byte. -/
theorem parses_last_byte_cut :
    let first : Entry := ⟨0, .forPayload 3 7 1 true 1, [1, 2, 3]⟩
    let second : Entry := ⟨35, .forPayload 2 8 0 false 1, [4, 5]⟩
    let chunk := first.encode ++ second.encode
    (readAll chunk).damage = none ∧
      readAll (chunk.take 68) = ⟨[first], some ⟨.sizeBeyondChunk, some 35⟩⟩ := by
  intro first second chunk
  obtain ⟨-, hunique, haccepted, hcut⟩ := parses chunk
  have hlaid : Laid 0 [first, second] :=
    ⟨rfl, ⟨by decide, by decide⟩, by decide, ⟨by decide, by decide⟩, trivial⟩
  have hchunk : chunk = [first, second].flatMap encode := rfl
  have hitems : (readAll chunk).items = [first, second] :=
    hunique _ [] hlaid (by rw [hchunk, List.append_nil]) not_starts_nil
  have hdamage := haccepted.2 ⟨_, hlaid, hchunk⟩
  refine ⟨hdamage, ?_⟩
  rw [hcut hdamage 68, hitems]
  rfl

end Entry

end TraceRecorder
