/-
# Where a chunk is damaged

A chunk that a reader does not accept `Breaks` at one place, whatever reads it: at an entry, at a
segment of an entry, or at a pair of a segment.  The place is where all is well up to there and no
record of the kind begins, and the bytes that stand there give the flaw.

* `Summary.ofChunk_eq_error_iff`: a summary fails where the chunk breaks at an entry or a segment,
  and reports the place by its offset in the chunk;
* `ConstantTable.ofChunk_eq_error_iff`: so does a table, but a pair is reported by its offset in the
  body of its segment;
* `Entry.Breaks.append`: what stands in front of a chunk moves the place where it breaks.

So an entry or a segment is reported that many bytes further on when an accepted chunk is put in
front, and a pair is reported as if nothing were there (`ConstantTable.offsets`).
-/
import TraceRecorder.Proofs.Chunk.Readers

namespace TraceRecorder

/-! ## 1. Places -/

/-- Where a chunk breaks. -/
inductive Site where
  | entry (offset : Nat)
  | segment (offset : Nat)
  /-- So many bytes behind the start of a segment's body. -/
  | pair (body inner : Nat)
  deriving DecidableEq, Repr

namespace Site

/-- The offset of the place in the chunk. -/
def offset : Site → Nat
  | entry offset => offset
  | segment offset => offset
  | pair body inner => body + inner

/-- The offset by which a table of constants reports the place. -/
def reported : Site → Nat
  | entry offset => offset
  | segment offset => offset
  | pair _ inner => inner

/-- The place so many bytes further on. -/
def moved (n : Nat) : Site → Site
  | entry offset => entry (n + offset)
  | segment offset => segment (n + offset)
  | pair body inner => pair (n + body) inner

theorem offset_moved (p : Site) (n : Nat) : (p.moved n).offset = n + p.offset := by
  cases p with
  | entry => rfl
  | segment => rfl
  | pair body inner => exact Nat.add_assoc ..

end Site

/-- The flaw of a pair, and of nothing else. -/
def Flaw.InPair (flaw : Flaw) : Prop := flaw = .pairTruncated ∨ flaw = .valueBeyondBody

instance (flaw : Flaw) : Decidable flaw.InPair := inferInstanceAs (Decidable (_ ∨ _))

def Damage.moved (n : Nat) (d : Damage) : Damage := { d with offset := d.offset.map (n + ·) }

/-! ## 2. What stands in front -/

namespace Entry

def moved (n : Nat) (e : Entry) : Entry := { e with offset := n + e.offset }

variable {offset : Nat} {e : Entry} {es es' : List Entry} {P : Entry → Prop} {R : Segment → Prop}
  {chunk front : Bytes}

theorem laid_append :
    Laid offset (es ++ es') ↔ Laid offset es ∧ Laid (offset + (es.flatMap encode).length) es' := by
  induction es generalizing offset with
  | nil => simp [Laid]
  | cons e es ih =>
    simp only [List.cons_append, Laid, ih, List.flatMap_cons, List.length_append, Nat.add_assoc,
      and_assoc]

theorem flatMap_encode_moved (n : Nat) (es : List Entry) :
    (es.map (moved n)).flatMap encode = es.flatMap encode := by
  rw [List.flatMap_map]
  rfl

theorem Laid.moved (h : Laid offset es) (n : Nat) : Laid (n + offset) (es.map (moved n)) := by
  induction es generalizing offset with
  | nil => trivial
  | cons e es ih =>
    obtain ⟨rfl, hsound, hrest⟩ := h
    exact ⟨rfl, hsound, by rw [Nat.add_assoc]; exact ih hrest⟩

/-- **An entry is reached**: it stands in the chunk behind entries of some sort. -/
structure Reached (P : Entry → Prop) (chunk : Bytes) (before : List Entry) (e : Entry)
    (behind : Bytes) : Prop where
  laid : Laid 0 (before ++ [e])
  good : ∀ x ∈ before, P x
  bytes : chunk = before.flatMap encode ++ (e.encode ++ behind)

/-- **The end is reached**: no entry begins behind entries of some sort. -/
structure Ends (P : Entry → Prop) (chunk : Bytes) (before : List Entry) (rest : Bytes)
    (flaw : Flaw) : Prop where
  laid : Laid 0 before
  good : ∀ x ∈ before, P x
  bytes : chunk = before.flatMap encode ++ rest
  more : rest ≠ []
  none : ¬ Starts rest
  flaw : Header.read rest = .error flaw

/-- What is reached are the entries that are read. -/
theorem reached_iff {before : List Entry} :
    (∃ behind, Reached P chunk before e behind) ↔
      ∃ more, (readAll chunk).items = before ++ e :: more ∧ ∀ x ∈ before, P x := by
  constructor
  · rintro ⟨behind, hlaid, hgood, rfl⟩
    have hbytes : before.flatMap encode ++ (e.encode ++ behind) =
        (before ++ [e]).flatMap encode ++ behind := by simp
    rw [hbytes, readAll, hlaid.readFrom_append, List.append_assoc]
    exact ⟨_, rfl, hgood⟩
  · rintro ⟨more, hitems, hgood⟩
    obtain ⟨hlaid, rest, hbytes, -⟩ := readFrom_laid 0 chunk
    change Laid 0 (readAll chunk).items at hlaid
    change chunk = (readAll chunk).items.flatMap encode ++ rest at hbytes
    rw [hitems, List.append_cons, laid_append] at hlaid
    refine ⟨more.flatMap encode ++ rest, hlaid.1, hgood, ?_⟩
    rw [hitems] at hbytes
    simpa using hbytes

/-- The damage that is read is where the end is reached. -/
theorem ends_iff {d : Damage} :
    ((∀ x ∈ (readAll chunk).items, P x) ∧ (readAll chunk).damage = some d) ↔
      ∃ before rest flaw, Ends P chunk before rest flaw ∧
        d = ⟨flaw, some (before.flatMap encode).length⟩ := by
  constructor
  · rintro ⟨hgood, hdamage⟩
    obtain ⟨hlaid, rest, hbytes, hhalts⟩ := readFrom_laid 0 chunk
    change Laid 0 (readAll chunk).items at hlaid
    change chunk = (readAll chunk).items.flatMap encode ++ rest at hbytes
    change Halts (0 + ((readAll chunk).items.flatMap encode).length) rest (readAll chunk).damage
      at hhalts
    have hread := hlaid.readFrom_append rest
    rw [← hbytes] at hread
    have hbehind := congrArg Reading.damage hread
    change (readAll chunk).damage = _ at hbehind
    rw [Nat.zero_add, hdamage] at hhalts hbehind
    obtain ⟨hmore, hno⟩ : rest ≠ [] ∧ ¬ Starts rest := by
      cases hhalts with
      | damaged hmore hno => exact ⟨hmore, hno⟩
    cases hr : Header.read rest with
    | ok header => exact absurd (starts_iff.2 ⟨header, hr⟩) hno
    | error flaw =>
      rw [readFrom_of_error hmore hr] at hbehind
      exact ⟨_, rest, flaw, ⟨hlaid, hgood, hbytes, hmore, hno, hr⟩, Option.some.inj hbehind⟩
  · rintro ⟨before, rest, flaw, ⟨hlaid, hgood, rfl, hmore, hno, hflaw⟩, rfl⟩
    rw [readAll, hlaid.readFrom_append, readFrom_of_error hmore hflaw, Nat.zero_add,
      Reading.stopped, List.append_nil]
    exact ⟨hgood, rfl⟩

end Entry

/-- **A segment is reached**: it stands in the payload behind segments of some sort, and so many are
announced. -/
structure Segment.Reached (R : Segment → Prop) (e : Entry) (before : List Segment) (s : Segment) :
    Prop where
  good : ∀ x ∈ before, x.Sound ∧ R x
  sound : s.Sound
  fewer : before.length < e.header.segments.toNat
  bytes : ∃ behind, e.payload = before.flatMap encode ++ (s.encode ++ behind)

/-- What is reached are the segments that are read. -/
theorem Segment.reached_iff {R : Segment → Prop} {e : Entry} {before : List Segment} {s : Segment} :
    s.Reached R e before ↔
      ∃ more, e.segments.items = before ++ s :: more ∧ ∀ x ∈ before, R x := by
  constructor
  · rintro ⟨hgood, hsound, hfewer, behind, hbytes⟩
    obtain ⟨more, hcount⟩ := Nat.exists_eq_add_of_lt hfewer
    have hall : ∀ x ∈ before, x.Sound := fun x hx => (hgood x hx).1
    rw [Entry.segments, hbytes, hcount, Nat.add_assoc, counted_readAll.read_append hall,
      counted_readAll.succ _ _ hsound]
    exact ⟨_, rfl, fun x hx => (hgood x hx).2⟩
  · rintro ⟨more, hitems, hgood⟩
    obtain ⟨hsound, ⟨rest, hrest⟩, hmost, -⟩ :=
      counted_readAll.front e.header.segments.toNat 0 e.payload
    change ∀ x ∈ e.segments.items, x.Sound at hsound
    change e.payload = e.segments.items.flatMap encode ++ rest at hrest
    change e.segments.items.length + e.segments.damage.toList.length ≤ _ at hmost
    rw [hitems] at hsound hrest hmost
    refine ⟨fun x hx => ⟨hsound x (List.mem_append_left _ hx), hgood x hx⟩,
      hsound s (List.mem_append_right _ List.mem_cons_self), ?_, more.flatMap encode ++ rest, ?_⟩
    · simp only [List.length_append, List.length_cons] at hmost
      omega
    · simpa using hrest

/-! ## 3. Breaks -/

theorem Segment.pairs_eq_iff {s : Segment} {pairs : List Pair} {d : Damage} :
    s.pairs = ⟨pairs, some d⟩ ↔ ∃ rest,
      Reading.GivesOut Relation.encodePair PairSound s.count.toNat s.body pairs rest ∧
      d = ⟨pairFlawAt rest, some (pairs.flatMap Relation.encodePair).length⟩ := by
  rw [Segment.pairs, counted_readPairs.stops_iff fun _ _ _ _ => flaw_of_readPairs]
  simp only [Nat.zero_add]

namespace Entry

open Reading (GivesOut)

/-- **An entry breaks** behind the segments that are good: at a segment, or at a pair of one that is
bad. -/
inductive BreaksIn (R : Segment → Prop) (e : Entry) : Site → Flaw → Prop
  | segment {before : List Segment} {rest : Bytes} (good : ∀ s ∈ before, R s)
      (out : GivesOut Segment.encode Segment.Sound e.header.segments.toNat e.payload before rest) :
      BreaksIn R e
        (.segment (e.offset + Header.length + (before.flatMap Segment.encode).length))
        (Segment.flawAt rest)
  | pair {before : List Segment} {s : Segment} {pairs : List Pair} {rest : Bytes}
      (reached : s.Reached R e before) (bad : ¬ R s)
      (out : GivesOut Relation.encodePair Segment.PairSound s.count.toNat s.body pairs rest) :
      BreaksIn R e
        (.pair (e.offset + Header.length + (before.flatMap Segment.encode).length +
          Segment.headerLength) (pairs.flatMap Relation.encodePair).length)
        (Segment.pairFlawAt rest)

/-- **A chunk breaks** behind the entries that are good: where no entry begins, or inside the entry
that follows them. -/
inductive Breaks (P : Entry → Prop) (R : Segment → Prop) (chunk : Bytes) : Site → Flaw → Prop
  | entry {before : List Entry} {rest : Bytes} {flaw : Flaw}
      (ends : Ends P chunk before rest flaw) :
      Breaks P R chunk (.entry (before.flatMap encode).length) flaw
  | inside {before : List Entry} {e : Entry} {behind : Bytes} {place : Site} {flaw : Flaw}
      (reached : Reached P chunk before e behind) (inside : BreaksIn R e place flaw) :
      Breaks P R chunk place flaw

variable {e : Entry} {P : Entry → Prop} {R : Segment → Prop} {chunk front : Bytes} {d : Damage}
  {place : Site} {flaw : Flaw}

theorem segments_eq_iff {before : List Segment} :
    e.segments = ⟨before, some d⟩ ↔ ∃ rest,
      GivesOut Segment.encode Segment.Sound e.header.segments.toNat e.payload before rest ∧
      d = ⟨Segment.flawAt rest, some (before.flatMap Segment.encode).length⟩ := by
  rw [segments, Segment.counted_readAll.stops_iff fun _ _ _ _ => Segment.flaw_of_readAll]
  simp only [Nat.zero_add]

/-- **A reader of entries fails where the chunk breaks**, if it fails for an entry where this one
does. -/
theorem fails_iff {E : Entry → Damage → Prop} {report : Site → Nat}
    (hentry : ∀ n, report (.entry n) = n)
    (hinside : ∀ e d, E e d ↔ ∃ place flaw, BreaksIn R e place flaw ∧
      d = ⟨flaw, some (report place)⟩) :
    (readAll chunk).Fails P E id d ↔
      ∃ place flaw, Breaks P R chunk place flaw ∧ d = ⟨flaw, some (report place)⟩ := by
  constructor
  · intro hfails
    cases hfails with
    | inside hitems hgood hbad =>
      obtain ⟨behind, hreached⟩ := reached_iff.2 ⟨_, hitems, hgood⟩
      obtain ⟨place, flaw, hplace, rfl⟩ := (hinside _ _).1 hbad
      exact ⟨place, flaw, .inside hreached hplace, rfl⟩
    | behind hgood hdamage =>
      obtain ⟨before, rest, flaw, hends, rfl⟩ := ends_iff.1 ⟨hgood, hdamage⟩
      exact ⟨_, flaw, .entry hends, by rw [hentry]; rfl⟩
  · rintro ⟨place, flaw, hbreaks, rfl⟩
    cases hbreaks with
    | entry hends =>
      obtain ⟨hgood, hdamage⟩ := ends_iff.2 ⟨_, _, _, hends, rfl⟩
      rw [hentry]
      exact .behind hgood hdamage
    | inside hreached hplace =>
      obtain ⟨more, hitems, hgood⟩ := reached_iff.1 ⟨_, hreached⟩
      exact .inside hitems hgood ((hinside _ _).2 ⟨place, flaw, hplace, rfl⟩)

end Entry

/-! ## 4. The two readers -/

theorem Reading.damage_eq_some_iff {α : Type} {r : Reading α} {d : Damage} :
    r.damage = some d ↔ ∃ items, r = ⟨items, some d⟩ := by
  constructor
  · rintro h
    exact ⟨r.items, by rw [← h]⟩
  · rintro ⟨items, rfl⟩
    rfl

namespace Summary

/-- A summary does not take an entry in which fewer segments stand than are announced. -/
theorem addEntry_eq_error_iff {s : Summary} {e : Entry} {d : Damage} :
    s.addEntry e = .error d ↔
      ∃ place flaw, e.BreaksIn (fun _ => True) place flaw ∧ d = ⟨flaw, some place.offset⟩ := by
  have hdamage : s.addEntry e = .error d ↔ ∃ d', e.segments.damage = some d' ∧ e.rebase d' = d :=
    Reading.map_eq_error_iff.trans Option.map_eq_some_iff
  rw [hdamage]
  constructor
  · rintro ⟨d', hd, rfl⟩
    obtain ⟨before, hread⟩ := Reading.damage_eq_some_iff.1 hd
    obtain ⟨rest, hout, rfl⟩ := Entry.segments_eq_iff.1 hread
    exact ⟨_, _, .segment (fun _ _ => trivial) hout, rfl⟩
  · rintro ⟨place, flaw, hbreaks, rfl⟩
    cases hbreaks with
    | segment _ hout =>
      have hread := Entry.segments_eq_iff.2 ⟨_, hout, rfl⟩
      exact ⟨_, by rw [hread], rfl⟩
    | pair _ hbad => exact absurd trivial hbad

/-- **A summary fails where the chunk breaks at an entry or a segment**, and reports the place by
its offset in the chunk. -/
theorem ofChunk_eq_error_iff {chunk : Bytes} {d : Damage} :
    ofChunk chunk = .error d ↔
      ∃ place flaw, Entry.Breaks Entry.Segmented (fun _ => True) chunk place flaw ∧
        d = ⟨flaw, some place.offset⟩ := by
  have hfold : ofChunk chunk = .error d ↔ (Entry.readAll chunk).Fails _ _ id d :=
    Reading.fold_eq_error_iff (f := addEntry) (g := withEntry) (fun _ _ _ => addEntry_eq_ok_iff)
      (fun _ _ _ => addEntry_eq_error_iff) id
  rw [hfold]
  exact Entry.fails_iff (fun _ => rfl) fun _ _ => Iff.rfl

end Summary

namespace ConstantTable

/-- A table does not take a segment in which fewer pairs stand than are announced. -/
theorem addEntry_eq_error_iff {t : ConstantTable} {e : Entry} {d : Damage} :
    t.addEntry e = .error d ↔
      ∃ place flaw, e.BreaksIn Segment.Paired place flaw ∧ d = ⟨flaw, some place.reported⟩ := by
  have hok (t : ConstantTable) (s : Segment) (t' : ConstantTable) :
      t.addSegment s = .ok t' ↔ s.Paired ∧ t' = t.withAll s.found := by
    rw [addSegment_eq_ok_iff, Segment.pairs_damage_iff]
  have hfold : t.addEntry e = .error d ↔
      e.segments.Fails Segment.Paired (fun s d => s.pairs.damage = some d) e.rebase d :=
    Reading.fold_eq_error_iff hok (fun _ _ _ => Reading.map_eq_error_iff) e.rebase
  rw [hfold]
  constructor
  · intro hfails
    cases hfails with
    | @inside before behind s _ hitems hgood hbad =>
      obtain ⟨pairs, hread⟩ := Reading.damage_eq_some_iff.1 hbad
      obtain ⟨rest, hout, rfl⟩ := Segment.pairs_eq_iff.1 hread
      have hs : ¬ s.Paired := by
        rw [← Segment.pairs_damage_iff, hbad]
        nofun
      exact ⟨_, _, .pair (Segment.reached_iff.2 ⟨_, hitems, hgood⟩) hs hout, rfl⟩
    | behind hgood hdamage =>
      obtain ⟨before, hread⟩ := Reading.damage_eq_some_iff.1 hdamage
      obtain ⟨rest, hout, rfl⟩ := Entry.segments_eq_iff.1 hread
      rw [hread] at hgood
      exact ⟨_, _, .segment hgood hout, rfl⟩
  · rintro ⟨place, flaw, hbreaks, rfl⟩
    cases hbreaks with
    | @segment before rest hgood hout =>
      let d : Damage := ⟨Segment.flawAt rest, some (before.flatMap Segment.encode).length⟩
      have hread : e.segments = ⟨before, some d⟩ := Entry.segments_eq_iff.2 ⟨rest, hout, rfl⟩
      rw [hread]
      exact .behind (d := d) hgood rfl
    | pair hreached _ hout =>
      obtain ⟨more, hitems, hgood⟩ := Segment.reached_iff.1 hreached
      have hread := Segment.pairs_eq_iff.2 ⟨_, hout, rfl⟩
      exact .inside hitems hgood (Reading.damage_eq_some_iff.2 ⟨_, hread⟩)

/-- **A table fails where the chunk breaks**, and reports a pair by its offset in the body of its
segment, and any other place by its offset in the chunk. -/
theorem ofChunk_eq_error_iff {chunk : Bytes} {d : Damage} :
    ofChunk chunk = .error d ↔
      ∃ place flaw, Entry.Breaks Entry.Nested Segment.Paired chunk place flaw ∧
        d = ⟨flaw, some place.reported⟩ := by
  have hfold : ofChunk chunk = .error d ↔ (Entry.readAll chunk).Fails _ _ id d :=
    Reading.fold_eq_error_iff (f := addEntry) (g := fun t e => t.withAll e.found)
      (fun _ _ _ => addEntry_eq_ok_iff) (fun _ _ _ => addEntry_eq_error_iff) id
  rw [hfold]
  exact Entry.fails_iff (fun _ => rfl) fun _ _ => Iff.rfl

end ConstantTable

/-! ## 5. Chunks that are put together -/

namespace Entry

variable {es before : List Entry} {e : Entry} {P : Entry → Prop} {R : Segment → Prop}
  {chunk front : Bytes} {place : Site} {flaw : Flaw}

theorem Laid.append (hes : Laid 0 es) (h : Laid 0 before) :
    Laid 0 (es ++ before.map (Entry.moved (es.flatMap encode).length)) := by
  rw [laid_append, Nat.zero_add]
  exact ⟨hes, h.moved _⟩

/-- **Chunks that are put together are read one behind the other**, if both are read without
damage. -/
theorem readAll_append (hfront : (readAll front).damage = none)
    (hchunk : (readAll chunk).damage = none) :
    readAll (front ++ chunk) =
      ⟨(readAll front).items ++ (readAll chunk).items.map (Entry.moved front.length), none⟩ := by
  have hlaid := (takes_readAll front).laid.append (takes_readAll chunk).laid
  rw [← eq_flatMap_of_damage hfront] at hlaid
  have hread := hlaid.readAll_eq
  rwa [List.flatMap_append, flatMap_encode_moved, ← eq_flatMap_of_damage hfront,
    ← eq_flatMap_of_damage hchunk] at hread

theorem AllOf.append (hmoved : ∀ n e, P e → P (e.moved n)) (hfront : AllOf P front)
    (hchunk : AllOf P chunk) : AllOf P (front ++ chunk) := by
  rw [allOf_iff] at hfront hchunk ⊢
  rw [readAll_append hfront.1 hchunk.1]
  refine ⟨rfl, fun e he => ?_⟩
  rcases List.mem_append.1 he with he | he
  · exact hfront.2 e he
  · obtain ⟨e', he', rfl⟩ := List.mem_map.1 he
    exact hmoved _ _ (hchunk.2 e' he')

theorem BreaksIn.moved (h : BreaksIn R e place flaw) (n : Nat) :
    BreaksIn R (e.moved n) (place.moved n) flaw := by
  cases h with
  | segment hgood hout =>
    have hbreaks := BreaksIn.segment (e := e.moved n) hgood hout
    simpa only [Site.moved, Entry.moved, Nat.add_assoc] using hbreaks
  | pair hreached hbad hout =>
    have hreached' := Segment.Reached.mk (e := e.moved n) hreached.good hreached.sound
      hreached.fewer hreached.bytes
    have hbreaks := BreaksIn.pair (e := e.moved n) hreached' hbad hout
    simpa only [Site.moved, Entry.moved, Nat.add_assoc] using hbreaks

/-- **What stands in front of a chunk moves the place where it breaks**, if all of it is good and
goodness does not depend on where an entry stands. -/
theorem Breaks.append (hP : ∀ n e, P e → P (e.moved n)) (hfront : AllOf P front)
    (h : Breaks P R chunk place flaw) :
    Breaks P R (front ++ chunk) (place.moved front.length) flaw := by
  obtain ⟨es, hlaid, rfl, hes⟩ := hfront
  have hgood {before : List Entry} {n : Nat} (hbefore : ∀ x ∈ before, P x) :
      ∀ x ∈ es ++ before.map (moved n), P x := by
    intro x hx
    rcases List.mem_append.1 hx with hx | hx
    · exact hes x hx
    · obtain ⟨y, hy, rfl⟩ := List.mem_map.1 hx
      exact hP n y (hbefore y hy)
  cases h with
  | @entry before rest _ hends =>
    have hends' : Ends P (es.flatMap encode ++ chunk)
        (es ++ before.map (moved (es.flatMap encode).length)) rest flaw :=
      { laid := hlaid.append hends.laid
        good := hgood hends.good
        bytes := by
          rw [List.flatMap_append, flatMap_encode_moved, List.append_assoc, ← hends.bytes]
        more := hends.more
        none := hends.none
        flaw := hends.flaw }
    have hbreaks := Breaks.entry (R := R) hends'
    rwa [List.flatMap_append, flatMap_encode_moved, List.length_append] at hbreaks
  | @inside before e behind _ _ hreached hplace =>
    have hlaid' := hlaid.append hreached.laid
    rw [List.map_append, ← List.append_assoc] at hlaid'
    have hreached' : Reached P (es.flatMap encode ++ chunk)
        (es ++ before.map (moved (es.flatMap encode).length))
        (e.moved (es.flatMap encode).length) behind :=
      { laid := hlaid'
        good := hgood hreached.good
        bytes := by
          rw [List.flatMap_append, flatMap_encode_moved, List.append_assoc, hreached.bytes]
          rfl }
    exact .inside hreached' (hplace.moved _)

end Entry

/-- A header has no flaw of a pair. -/
theorem Header.not_inPair {bytes : Bytes} {flaw : Flaw} (h : read bytes = .error flaw) :
    ¬ flaw.InPair := by
  unfold read at h
  split at h
  · rename_i hd
    cases h
    unfold decode at hd
    split at hd
    · cases hd
      decide
    · split at hd <;> cases hd
      decide
  · split at h <;> cases h
    rename_i hf
    unfold flaw? at hf
    split at hf
    · cases hf
      decide
    · split at hf
      · cases hf
        decide
      · split at hf <;> cases hf
        decide

/-- **What a table reports moves with the place**, unless the flaw is that of a pair. -/
theorem Entry.Breaks.reported_moved {P : Entry → Prop} {R : Segment → Prop} {chunk : Bytes}
    {place : Site} {flaw : Flaw} (h : Breaks P R chunk place flaw) (n : Nat) :
    (place.moved n).reported = if flaw.InPair then place.reported else n + place.reported := by
  cases h with
  | entry hends => exact (if_neg (Header.not_inPair hends.flaw)).symm
  | inside _ hplace =>
    cases hplace with
    | segment =>
      refine (if_neg ?_).symm
      unfold Segment.flawAt
      split <;> decide
    | pair =>
      refine (if_pos ?_).symm
      unfold Segment.pairFlawAt
      split <;> decide

/-! ## 6. Reports -/

namespace ConstantTable

/-- **What the readers of a chunk report.**  Where the chunk breaks, each of them reports it as
corrupt.  A summary reports the offset of the place in the chunk.  A table of constants does so for
entries and segments, but reports a pair by its offset in the body of its segment.  So behind
another chunk that is accepted a summary is damaged that many bytes further on, and so is a table
unless it is damaged at a pair: then it reports what it would report without the other chunk. -/
theorem offsets (chunk : Bytes) :
    (∀ d, Summary.ofChunk chunk = .error d ↔
      ∃ place flaw, Entry.Breaks Entry.Segmented (fun _ => True) chunk place flaw ∧
        d = ⟨flaw, some place.offset⟩) ∧
    (∀ d, ofChunk chunk = .error d ↔
      ∃ place flaw, Entry.Breaks Entry.Nested Segment.Paired chunk place flaw ∧
        d = ⟨flaw, some place.reported⟩) ∧
    (∀ d, Summary.ofChunk chunk = .error d ∨ ofChunk chunk = .error d →
      d.report.kind = .corrupt) ∧
    (∀ front s d, Summary.ofChunk front = .ok s → Summary.ofChunk chunk = .error d →
      Summary.ofChunk (front ++ chunk) = .error (d.moved front.length)) ∧
    (∀ front t d, ofChunk front = .ok t → ofChunk chunk = .error d →
      ofChunk (front ++ chunk) = .error (if d.flaw.InPair then d else d.moved front.length)) := by
  refine ⟨fun d => Summary.ofChunk_eq_error_iff, fun d => ofChunk_eq_error_iff, fun _ _ => rfl,
    ?_, ?_⟩
  · intro front s d hs hd
    obtain ⟨place, flaw, hbreaks, rfl⟩ := Summary.ofChunk_eq_error_iff.1 hd
    have hfront := (Summary.ofChunk_eq_ok_iff.1 hs).1
    refine Summary.ofChunk_eq_error_iff.2 ⟨_, flaw, hbreaks.append (fun _ _ h => h) hfront, ?_⟩
    rw [Site.offset_moved]
    rfl
  · intro front t d ht hd
    obtain ⟨place, flaw, hbreaks, rfl⟩ := ofChunk_eq_error_iff.1 hd
    have hfront := (ofChunk_eq_ok_iff.1 ht).1
    refine ofChunk_eq_error_iff.2 ⟨_, flaw, hbreaks.append (fun _ _ h => h) hfront, ?_⟩
    rw [hbreaks.reported_moved]
    split <;> rfl

/-- An entry with one pair, of which so many are announced. -/
def lone (count : UInt32) : Entry :=
  ⟨0, .forPayload 29 7 1 false 1, Segment.encode ⟨64, count, Relation.encodePair (1, [7])⟩⟩

theorem laid_lone (count : UInt32) : Entry.Laid 0 [lone count] := by
  refine ⟨rfl, ⟨?_, fun hnone => ?_⟩, trivial⟩
  · rw [lone, Segment.length_encode]
    rfl
  · cases hnone

/-- Where two pairs are announced the chunk breaks behind the first one, at its end. -/
theorem breaks_lone :
    Entry.Breaks Entry.Nested Segment.Paired (lone 2).encode (.pair 48 13) .pairTruncated := by
  let s : Segment := ⟨64, 2, Relation.encodePair (1, [7])⟩
  have hentry : Entry.Reached Entry.Nested (lone 2).encode [] (lone 2) [] :=
    ⟨laid_lone 2, nofun, (List.append_nil _).symm⟩
  have hsegment : s.Reached Segment.Paired (lone 2) [] :=
    ⟨nofun, by unfold Segment.Sound; decide, by decide, [], (List.append_nil _).symm⟩
  have hpairs : ¬ s.Paired := by
    rw [← Segment.pairs_damage_iff]
    decide
  have hout : Reading.GivesOut Relation.encodePair Segment.PairSound s.count.toNat s.body
      [(1, [7])] [] :=
    { sound := by
        intro pair hpair
        obtain rfl := List.mem_singleton.1 hpair
        unfold Segment.PairSound
        decide
      bytes := rfl
      fewer := by decide
      none := by
        intro pair behind _ hnil
        have hlength := congrArg List.length hnil
        rw [List.length_append, Segment.length_encodePair] at hlength
        have hheader : Segment.pairHeaderLength = 12 := rfl
        rw [List.length_nil] at hlength
        omega }
  exact .inside hentry (.pair hsegment hpairs hout)

/-- The second pair is missing 61 bytes behind the start of the chunk, and 13 bytes are reported,
also where 61 more bytes are in front. -/
theorem offsets_lone :
    ofChunk (lone 2).encode = .error ⟨.pairTruncated, some 13⟩ ∧
      ofChunk ((lone 1).encode ++ (lone 2).encode) = .error ⟨.pairTruncated, some 13⟩ := by
  have hd : ofChunk (lone 2).encode = .error ⟨.pairTruncated, some 13⟩ :=
    ((offsets (lone 2).encode).2.1 _).2 ⟨_, _, breaks_lone, rfl⟩
  have hnested : Entry.AllOf Entry.Nested (lone 1).encode := by
    refine ⟨[lone 1], laid_lone 1, (List.append_nil _).symm, ?_⟩
    intro e he
    obtain rfl := List.mem_singleton.1 he
    exact (Entry.nested_iff _).2 ⟨by decide, by decide⟩
  have ht := ofChunk_eq_ok_iff.2 ⟨hnested, rfl⟩
  exact ⟨hd, (offsets (lone 2).encode).2.2.2.2 _ _ _ ht hd⟩

/-- **A table of constants does not always report the offset in the chunk.** -/
theorem offsets_not_absolute :
    ¬ ∀ chunk d place flaw, ofChunk chunk = .error d →
      Entry.Breaks Entry.Nested Segment.Paired chunk place flaw →
      d.offset = some place.offset := by
  intro h
  have hd : ofChunk (lone 2).encode = .error ⟨.pairTruncated, some 13⟩ :=
    ofChunk_eq_error_iff.2 ⟨_, _, breaks_lone, rfl⟩
  exact absurd (h _ _ _ _ hd breaks_lone) (by decide)

end ConstantTable

end TraceRecorder
