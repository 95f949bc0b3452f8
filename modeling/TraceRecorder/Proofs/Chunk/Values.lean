/-
# Values, whole and cut short

A reader that asks a value for the kinds of its fields finds all fields, and nothing is left then
(`ReadsWhole`).  If the value is cut short it finds the fields that are there in full, and is
refused at the next one (`CutShort`): a field is never taken for another one that stands in front of
it.

Nothing in the bytes says which fields they hold.  So a reader that goes on after a refusal may take
what is left of one field for another; but whatever the bytes are and whatever is asked for, each
read starts where the one before it ended, and ends inside the value (`Walks`).
-/
import TraceRecorder.Proofs.Chunk.Fields

namespace TraceRecorder

open Fallible (runOn)

/-! ## 1. Texts and words -/

namespace Bytes

theorem ofText_of_text? {bytes : Bytes} {s : String} (h : text? bytes = some s) :
    ofText s = bytes := by
  unfold text? String.fromUTF8? at h
  split at h
  · cases h
    simp [ofText, String.fromUTF8]
  · cases h

end Bytes

namespace Field

/-- **Some bytes stand for a field.**  A flag is set by every byte but zero. -/
def SpelledBy : Field → Bytes → Prop
  | flag b, bytes => ∃ x : UInt8, bytes = [x] ∧ b = (x != 0)
  | f, bytes => bytes = f.encode

theorem encodeAll_append (fields fields' : List Field) :
    encodeAll (fields ++ fields') = encodeAll fields ++ encodeAll fields' := by
  simp [encodeAll]

end Field

namespace FieldReader

/-! ## 2. Reads inside a value -/

/-- The cursor at an offset of a value. -/
def cursorAt (value : Bytes) (offset : Nat) : FieldCursor := ⟨value.drop offset, offset⟩

/-- **A read inside a value**, from one offset to another. -/
structure ReadsAt (value : Bytes) (start : Nat) (kind : FieldKind) (answer : Except Damage Field)
    (stop : Nat) : Prop where
  run : runOn (field kind) (cursorAt value start) = (answer, cursorAt value stop)
  forward : start ≤ stop
  inside : stop ≤ value.length
  /-- What is found is what stands there. -/
  found : ∀ f, answer = .ok f → f.kind = kind ∧ f.SpelledBy (value.extract start stop)
  refused : ∀ d, answer = .error d → d.report.kind = .corrupt

/-- **Reads inside a value**, each from where the one before it ended. -/
inductive Walks (value : Bytes) :
    Nat → List FieldKind → List (Except Damage Field) → Nat → Prop where
  | done (start : Nat) : Walks value start [] [] start
  | read {start next stop : Nat} {kind : FieldKind} {kinds : List FieldKind}
      {answer : Except Damage Field} {answers : List (Except Damage Field)}
      (first : ReadsAt value start kind answer next) (rest : Walks value next kinds answers stop) :
      Walks value start (kind :: kinds) (answer :: answers) stop

variable {value : Bytes} {start : Nat}

theorem runOn_take_of_le {count : Nat} (h : start + count ≤ value.length) :
    runOn (take count) (cursorAt value start) =
      (.ok (value.extract start (start + count)), cursorAt value (start + count)) := by
  have all : Bytes.has count (value.drop start) = true := by
    rw [Bytes.has_iff, List.length_drop]
    omega
  simp [take, cursorAt, all, List.extract_eq_take_drop, Nat.add_comm]

theorem runOn_take_of_lt {count : Nat} (inside : start ≤ value.length)
    (h : value.length < start + count) :
    runOn (take count) (cursorAt value start) =
      (.error ⟨.fieldTruncated, some start⟩, cursorAt value start) := by
  have some_missing : ¬ Bytes.has count (value.drop start) = true := by
    rw [Bytes.has_iff, List.length_drop]
    omega
  simp [take, cursorAt, some_missing]

theorem length_extract {stop : Nat} (h : stop ≤ value.length) :
    (value.extract start stop).length = stop - start := by
  simp [List.extract_eq_take_drop]
  omega

theorem extract_append_extract {middle stop : Nat} (h : start ≤ middle) (h' : middle ≤ stop) :
    value.extract start middle ++ value.extract middle stop = value.extract start stop := by
  have parts : stop - start = (middle - start) + (stop - middle) := by omega
  have behind : value.drop middle = (value.drop start).drop (middle - start) := by
    rw [List.drop_drop, Nat.add_sub_cancel' h]
  rw [List.extract_eq_take_drop, List.extract_eq_take_drop, List.extract_eq_take_drop, parts,
    List.take_add, behind]

theorem ReadsAt.of_refused {kind : FieldKind} {d : Damage} {stop : Nat}
    (run : runOn (field kind) (cursorAt value start) = (.error d, cursorAt value stop))
    (forward : start ≤ stop) (inside : stop ≤ value.length) :
    ReadsAt value start kind (.error d) stop := by
  refine ⟨run, forward, inside, ?_, ?_⟩
  · rintro f ⟨⟩
  · rintro d ⟨⟩
    rfl

theorem ReadsAt.of_found {kind : FieldKind} {f : Field} {stop : Nat}
    (run : runOn (field kind) (cursorAt value start) = (.ok f, cursorAt value stop))
    (forward : start ≤ stop) (inside : stop ≤ value.length) (asked : f.kind = kind)
    (spelled : f.SpelledBy (value.extract start stop)) : ReadsAt value start kind (.ok f) stop := by
  refine ⟨run, forward, inside, ?_, ?_⟩
  · rintro f ⟨⟩
    exact ⟨asked, spelled⟩
  · rintro d ⟨⟩

theorem exists_readsAt_word (inside : start ≤ value.length) :
    ∃ answer stop, ReadsAt value start .word answer stop := by
  rcases Nat.lt_or_ge value.length (start + 8) with short | room
  · have run : runOn (field .word) (cursorAt value start) =
        (.error ⟨.fieldTruncated, some start⟩, cursorAt value start) := by
      simp [field, word, runOn_take_of_lt inside short]
    exact ⟨_, _, .of_refused run (Nat.le_refl _) inside⟩
  · have length : (value.extract start (start + 8)).length = 8 := by
      rw [length_extract room, Nat.add_sub_cancel_left]
    have same := Bytes.ofWord64_word64 (Nat.le_of_eq length.symm)
    rw [List.take_of_length_le (Nat.le_of_eq length)] at same
    have run : runOn (field .word) (cursorAt value start) =
        (.ok (.word (Bytes.word64 (value.extract start (start + 8)))),
          cursorAt value (start + 8)) := by
      simp [field, word, runOn_take_of_le room]
    exact ⟨_, _, .of_found run (Nat.le_add_right _ _) room rfl same.symm⟩

theorem exists_readsAt_flag (inside : start ≤ value.length) :
    ∃ answer stop, ReadsAt value start .flag answer stop := by
  rcases Nat.lt_or_ge value.length (start + 1) with short | room
  · have run : runOn (field .flag) (cursorAt value start) =
        (.error ⟨.fieldTruncated, some start⟩, cursorAt value start) := by
      simp [field, flag, runOn_take_of_lt inside short]
    exact ⟨_, _, .of_refused run (Nat.le_refl _) inside⟩
  · have length : (value.extract start (start + 1)).length = 1 := by
      rw [length_extract room, Nat.add_sub_cancel_left]
    obtain ⟨x, single⟩ := List.length_eq_one_iff.mp length
    have set : ([x] != [0]) = (x != 0) := by
      simp [bne]
    have run : runOn (field .flag) (cursorAt value start) =
        (.ok (.flag (x != 0)), cursorAt value (start + 1)) := by
      simp [field, flag, runOn_take_of_le room, single, set]
    exact ⟨_, _, .of_found run (Nat.le_add_right _ _) room rfl ⟨x, single, rfl⟩⟩

/-- **A text stands where it is read**, behind its length. -/
theorem encode_text_eq_extract {length : Nat} {s : String} (room : start + 4 ≤ value.length)
    (all : start + 4 + length ≤ value.length)
    (announced : length = (Bytes.word32 (value.extract start (start + 4))).toNat)
    (spelled : Bytes.text? (value.extract (start + 4) (start + 4 + length)) = some s) :
    (Field.text s).encode = value.extract start (start + 4 + length) := by
  have text_eq := Bytes.ofText_of_text? spelled
  have length_digits : (value.extract start (start + 4)).length = 4 := by
    rw [length_extract room, Nat.add_sub_cancel_left]
  have length_text : (Bytes.ofText s).length = length := by
    rw [text_eq, length_extract all, Nat.add_sub_cancel_left]
  have same_digits : Bytes.digits 4 length = value.extract start (start + 4) := by
    have same := Bytes.ofWord32_word32 (Nat.le_of_eq length_digits.symm)
    rw [List.take_of_length_le (Nat.le_of_eq length_digits)] at same
    rw [announced]
    exact same
  rw [Field.encode, length_text, same_digits, text_eq,
    extract_append_extract (Nat.le_add_right _ _) (Nat.le_add_right _ _)]

theorem exists_readsAt_text (inside : start ≤ value.length) :
    ∃ answer stop, ReadsAt value start .text answer stop := by
  rcases Nat.lt_or_ge value.length (start + 4) with short | room
  · have run : runOn (field .text) (cursorAt value start) =
        (.error ⟨.fieldTruncated, some start⟩, cursorAt value start) := by
      simp [field, text, runOn_take_of_lt inside short]
    exact ⟨_, _, .of_refused run (Nat.le_refl _) inside⟩
  -- The length stands in front, and is believed.
  obtain ⟨digits, hdigits⟩ : ∃ digits, digits = value.extract start (start + 4) := ⟨_, rfl⟩
  obtain ⟨length, hlength⟩ : ∃ length, length = (Bytes.word32 digits).toNat := ⟨_, rfl⟩
  rcases Nat.lt_or_ge value.length (start + 4 + length) with short | all
  · have run : runOn (field .text) (cursorAt value start) =
        (.error ⟨.fieldTruncated, some (start + 4)⟩, cursorAt value (start + 4)) := by
      simp [field, text, runOn_take_of_le room, ← hdigits, ← hlength, runOn_take_of_lt room short]
    exact ⟨_, _, .of_refused run (Nat.le_add_right _ _) room⟩
  obtain ⟨bytes, hbytes⟩ : ∃ bytes, bytes = value.extract (start + 4) (start + 4 + length) :=
    ⟨_, rfl⟩
  cases spelled : Bytes.text? bytes with
  | none =>
    have run : runOn (field .text) (cursorAt value start) =
        (.error ⟨.textNotUtf8, none⟩, cursorAt value (start + 4 + length)) := by
      simp [field, text, runOn_take_of_le room, ← hdigits, ← hlength, runOn_take_of_le all,
        ← hbytes, spelled]
    exact ⟨_, _, .of_refused run (by omega) all⟩
  | some s =>
    have run : runOn (field .text) (cursorAt value start) =
        (.ok (.text s), cursorAt value (start + 4 + length)) := by
      simp [field, text, runOn_take_of_le room, ← hdigits, ← hlength, runOn_take_of_le all,
        ← hbytes, spelled]
    refine ⟨_, _, .of_found run (by omega) all rfl ?_⟩
    rw [hbytes] at spelled
    rw [hdigits] at hlength
    exact (encode_text_eq_extract room all hlength spelled).symm

theorem exists_readsAt (inside : start ≤ value.length) (kind : FieldKind) :
    ∃ answer stop, ReadsAt value start kind answer stop := by
  cases kind with
  | word => exact exists_readsAt_word inside
  | flag => exact exists_readsAt_flag inside
  | text => exact exists_readsAt_text inside

/-- **Whatever is asked for, the reads stay inside the value.** -/
theorem exists_walks (inside : start ≤ value.length) (kinds : List FieldKind) :
    ∃ stop, Walks value start kinds (readEach kinds (cursorAt value start)) stop := by
  induction kinds generalizing start with
  | nil => exact ⟨start, .done start⟩
  | cons kind kinds ih =>
    obtain ⟨answer, next, first⟩ := exists_readsAt inside kind
    obtain ⟨stop, rest⟩ := ih first.inside
    have answers : readEach (kind :: kinds) (cursorAt value start) =
        answer :: readEach kinds (cursorAt value next) := by
      rw [readEach, first.run]
    exact ⟨stop, answers ▸ .read first rest⟩

/-- A flag that is asked for after a word was refused is found in what there is of the word. -/
example : readEach [.word, .flag] ⟨[1, 2], 0⟩ =
    [.error ⟨.fieldTruncated, some 0⟩, .ok (.flag true)] := rfl

/-! ## 3. The fields of a value -/

variable {fields : List Field}

/-- **Fields that stand in front are read one after the other.** -/
theorem readEach_encodeAll (fits : ∀ f ∈ fields, f.Fits) (kinds : List FieldKind) (rest : Bytes)
    (offset : Nat) :
    readEach (fields.map Field.kind ++ kinds) ⟨Field.encodeAll fields ++ rest, offset⟩ =
      fields.map .ok ++ readEach kinds ⟨rest, offset + (Field.encodeAll fields).length⟩ := by
  induction fields generalizing offset with
  | nil => rfl
  | cons f fields ih =>
    have first := runOn_field (Field.encodeAll fields ++ rest) offset (fits f List.mem_cons_self)
    have later := ih (fun g hg => fits g (List.mem_cons_of_mem f hg)) (offset + f.encode.length)
    rw [List.map_cons, List.cons_append, Field.encodeAll_cons, List.append_assoc, readEach, first]
    dsimp only
    rw [later, List.length_append, Nat.add_assoc]
    rfl

theorem runOn_mapM_encodeAll (fits : ∀ f ∈ fields, f.Fits) (rest : Bytes) (offset : Nat) :
    runOn ((fields.map Field.kind).mapM field) ⟨Field.encodeAll fields ++ rest, offset⟩ =
      (.ok fields, ⟨rest, offset + (Field.encodeAll fields).length⟩) := by
  induction fields generalizing offset with
  | nil => rfl
  | cons f fields ih =>
    have first := runOn_field (Field.encodeAll fields ++ rest) offset (fits f List.mem_cons_self)
    have later := ih (fun g hg => fits g (List.mem_cons_of_mem f hg)) (offset + f.encode.length)
    rw [List.map_cons, List.mapM_cons, Fallible.runOn_bind, Field.encodeAll_cons,
      List.append_assoc, first]
    dsimp only
    rw [Fallible.runOn_bind, later, List.length_append, Nat.add_assoc]
    rfl

/-- **A field that is cut short is refused.** -/
theorem runOn_field_of_short {f : Field} (fits : f.Fits) {part : Bytes}
    (front : part <+: f.encode) (short : part ≠ f.encode) (offset : Nat) :
    ∃ at_offset next, runOn (field f.kind) ⟨part, offset⟩ =
      (.error ⟨.fieldTruncated, some at_offset⟩, next) := by
  have fewer : part.length < f.encode.length :=
    Nat.lt_of_le_of_ne front.length_le fun same => short (front.eq_of_length same)
  have missing {count : Nat} (h : part.length < count) : Bytes.has count part = false := by
    rw [Bool.eq_false_iff, ne_eq, Bytes.has_iff]
    omega
  cases f with
  | word w =>
    have none_there : Bytes.has 8 part = false := missing (by simpa [Field.encode] using fewer)
    refine ⟨offset, ⟨part, offset⟩, ?_⟩
    simp [Field.kind, field, word, take, none_there]
  | flag b =>
    have none_there : Bytes.has 1 part = false := missing (by simpa [Field.encode] using fewer)
    refine ⟨offset, ⟨part, offset⟩, ?_⟩
    simp [Field.kind, field, flag, take, none_there]
  | text s =>
    rcases Nat.lt_or_ge part.length 4 with cut_length | announced
    · have none_there : Bytes.has 4 part = false := missing cut_length
      refine ⟨offset, ⟨part, offset⟩, ?_⟩
      simp [Field.kind, field, text, take, none_there]
    · have digits_front : Bytes.digits 4 (Bytes.ofText s).length <+: part :=
        List.prefix_of_prefix_length_le (List.prefix_append ..) front (by simpa using announced)
      obtain ⟨piece, rfl⟩ := digits_front
      have length := Bytes.toNat_word32_digits_append fits []
      rw [List.append_nil] at length
      have none_there : Bytes.has (Bytes.ofText s).length piece = false := by
        rw [Bool.eq_false_iff, ne_eq, Bytes.has_iff]
        simp only [Field.encode, List.length_append] at fewer
        omega
      have digits_read := runOn_take piece offset (Bytes.length_digits 4 (Bytes.ofText s).length)
      refine ⟨offset + 4, ⟨piece, offset + 4⟩, ?_⟩
      simp [Field.kind, field, text, digits_read, length]
      simp [take, none_there]

/-- **A value that is cut short** ends inside one of its fields. -/
theorem exists_cut {part : Bytes} (front : part <+: Field.encodeAll fields)
    (short : part ≠ Field.encodeAll fields) :
    ∃ whole f behind piece, fields = whole ++ f :: behind ∧
      part = Field.encodeAll whole ++ piece ∧ piece <+: f.encode ∧ piece ≠ f.encode := by
  induction fields generalizing part with
  | nil => exact absurd (List.prefix_nil.mp front) short
  | cons f fields ih =>
    rw [Field.encodeAll_cons] at front short
    by_cases there : f.encode <+: part
    · obtain ⟨later, rfl⟩ := there
      have front := (List.prefix_append_right_inj f.encode).mp front
      have short : later ≠ Field.encodeAll fields := fun same => short (by rw [same])
      obtain ⟨whole, g, behind, piece, rfl, rfl, cut⟩ := ih front short
      refine ⟨f :: whole, g, behind, piece, rfl, ?_, cut⟩
      rw [Field.encodeAll_cons, List.append_assoc]
    · have inside := (List.prefix_or_prefix_of_prefix front (List.prefix_append ..)).resolve_right
        there
      have cut : part ≠ f.encode := by
        rintro rfl
        exact there (List.prefix_refl _)
      exact ⟨[], f, fields, part, rfl, rfl, inside, cut⟩

/-! ## 4. Values, whole and cut short -/

/-- **A value that is there in full gives its fields**, and nothing is left. -/
structure ReadsWhole (fields : List Field) : Prop where
  each : readEach (fields.map Field.kind) ⟨Field.encodeAll fields, 0⟩ = fields.map .ok
  /-- The same for a reader that stops when it is refused. -/
  all : runOn ((fields.map Field.kind).mapM field) ⟨Field.encodeAll fields, 0⟩ =
    (.ok fields, ⟨[], (Field.encodeAll fields).length⟩)

/-- **A value that is cut short inside the field `f`** gives the fields in front of `f`. -/
structure CutShort (fields : List Field) (part : Bytes) (whole : List Field) (f : Field)
    (behind : List Field) : Prop where
  split : fields = whole ++ f :: behind
  there : Field.encodeAll whole <+: part
  missing : ¬ Field.encodeAll (whole ++ [f]) <+: part
  refused : ∃ damage : Damage, damage.report.kind = .corrupt ∧
    (∃ later, readEach (fields.map Field.kind) ⟨part, 0⟩ =
      whole.map .ok ++ .error damage :: later) ∧
    ∃ next, runOn ((fields.map Field.kind).mapM field) ⟨part, 0⟩ = (.error damage, next)

theorem readsWhole (fits : ∀ f ∈ fields, f.Fits) : ReadsWhole fields := by
  constructor
  · have each := readEach_encodeAll fits [] [] 0
    simpa [readEach] using each
  · have all := runOn_mapM_encodeAll fits [] 0
    simpa using all

theorem exists_cutShort (fits : ∀ f ∈ fields, f.Fits) {part : Bytes}
    (front : part <+: Field.encodeAll fields) (short : part ≠ Field.encodeAll fields) :
    ∃ whole f behind, CutShort fields part whole f behind := by
  obtain ⟨whole, f, behind, piece, rfl, rfl, inside, cut⟩ := exists_cut front short
  have whole_fits : ∀ g ∈ whole, g.Fits := fun g hg => fits g (by simp [hg])
  obtain ⟨offset, next, refusal⟩ := runOn_field_of_short (fits f (by simp)) inside cut
    (0 + (Field.encodeAll whole).length)
  refine ⟨whole, f, behind, rfl, List.prefix_append .., ?_,
    ⟨.fieldTruncated, some offset⟩, rfl, ?_, next, ?_⟩
  · intro there
    rw [Field.encodeAll_append, List.prefix_append_right_inj] at there
    have there : f.encode <+: piece := by simpa [Field.encodeAll] using there
    exact cut (inside.eq_of_length_le there.length_le)
  · refine ⟨readEach (behind.map Field.kind) next, ?_⟩
    rw [List.map_append, readEach_encodeAll whole_fits, List.map_cons, readEach, refusal]
  · have read := runOn_mapM_encodeAll whole_fits piece 0
    rw [List.map_append, List.mapM_append, Fallible.runOn_bind, read]
    dsimp only
    rw [List.map_cons, List.mapM_cons, Fallible.runOn_bind, Fallible.runOn_bind, refusal]

/-- **The fields of a value**: all of them if it is whole, those in front of the cut if it is not;
and no read leaves a value, whatever its bytes are.

A whole value is used up by its own fields.  A value that is cut short ends inside some field: the
fields in front of it are read, and the read of that one is refused as corrupt, whether the reader
goes on then or stops.  Arbitrary bytes may be read as any fields in any order: each read begins
where the one before it ended, also behind one that was refused. -/
theorem fields_of_value (fields : List Field) (fits : ∀ f ∈ fields, f.Fits) :
    ReadsWhole fields ∧
    (∀ part, part <+: Field.encodeAll fields → part ≠ Field.encodeAll fields →
      ∃ whole f behind, CutShort fields part whole f behind) ∧
    ∀ (value : Bytes) (kinds : List FieldKind),
      ∃ stop, Walks value 0 kinds (readEach kinds ⟨value, 0⟩) stop :=
  ⟨readsWhole fits, fun _ front short => exists_cutShort fits front short,
    fun _ kinds => exists_walks (Nat.zero_le _) kinds⟩

/-- A word, a text and a flag, whole and cut inside the text. -/
theorem fields_of_value_three :
    (∀ f ∈ [Field.word 42, .text "main", .flag true], f.Fits) ∧
      ReadsWhole [.word 42, .text "main", .flag true] ∧
      ∃ whole f behind, CutShort [.word 42, .text "main", .flag true]
        [42, 0, 0, 0, 0, 0, 0, 0, 4, 0, 0, 0, 109, 97] whole f behind := by
  have fits : ∀ f ∈ [Field.word 42, .text "main", .flag true], f.Fits := by
    simp only [List.forall_mem_cons, List.not_mem_nil, false_imp_iff, implies_true, and_true]
    have short : (Bytes.ofText "main").length < UInt32.size := by decide
    exact ⟨trivial, short, trivial⟩
  obtain ⟨whole, cut, -⟩ := fields_of_value [.word 42, .text "main", .flag true] fits
  exact ⟨fits, whole, cut _ (by decide) (by decide)⟩

end FieldReader

end TraceRecorder
