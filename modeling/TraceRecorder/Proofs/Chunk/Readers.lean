/-
# The readers of a whole chunk

Three readers go over a chunk.  A summary counts and takes the pairs of a segment at their
announced number, a table of constants reads them, and `Entry.walk` reads them and collects them in
order.  All three stop at the first damage.

* `Summary.ofChunk_eq_ok_iff`, `ConstantTable.ofChunk_eq_ok_iff` and `Entry.walk_eq_ok_iff` say when
  a reader succeeds and with which answer, and `Entry.segments_damage_iff` and
  `Segment.pairs_damage_iff` say so by the bytes alone: an entry is `Segmented` if as many segments
  stand in its payload as its header announces, and `Nested` if moreover as many pairs stand in each
  of them;
* `Summary.Tallies` and `ConstantTable.Lists` hold the two answers against the constants of a walk.

So a table of constants can be made of no more chunks than a summary, and where it can be made the
two agree (`ConstantTable.agrees_with_summary`).
-/
import TraceRecorder.Chunk.ConstantTable
import TraceRecorder.Chunk.Summary
import TraceRecorder.Proofs.Chunk.Grammar
import TraceRecorder.Proofs.Chunk.Segments

namespace TraceRecorder

/-- A constant as it stands in a chunk: its type, its key and its value. -/
abbrev Constant := UInt64 × Pair

/-! ## 1. The walk -/

/-- The constants of a segment, if all its pairs can be read. -/
def Segment.constants (s : Segment) : Except Damage (List Constant) := do
  let pairs ← s.pairs.complete
  pure (pairs.map fun pair => (s.typeId, pair))

namespace Entry

/-- The constants of an entry, if all its segments can be read. -/
def constants (e : Entry) : Except Damage (List Constant) := do
  let segments ← e.segments.complete
  let constants ← segments.mapM Segment.constants
  pure constants.flatten

/-- **The constants of a chunk**, one entry after the other, if all of it can be read. -/
def walk (chunk : Bytes) : Except Damage (List Constant) := do
  let entries ← (readAll chunk).complete
  let constants ← entries.mapM Entry.constants
  pure constants.flatten

end Entry

/-! ## 2. Readers that stop at damage -/

section Stopping

variable {ε α β : Type}

theorem bind_eq_ok_iff {x : Except ε α} {f : α → Except ε β} {b : β} :
    x >>= f = .ok b ↔ ∃ a, x = .ok a ∧ f a = .ok b := by
  cases x with
  | error e => exact ⟨nofun, nofun⟩
  | ok a => exact ⟨fun h => ⟨a, rfl, h⟩, fun ⟨_, ha, hb⟩ => by cases ha; exact hb⟩

/-- A step behind another one fails if either does. -/
theorem bind_eq_error_iff {x : Except ε α} {f : α → Except ε β} {e : ε} :
    x >>= f = .error e ↔ x = .error e ∨ ∃ a, x = .ok a ∧ f a = .error e := by
  cases x with
  | error e' =>
    constructor
    · intro h
      cases h
      exact .inl rfl
    · rintro (h | ⟨a, ha, -⟩)
      · cases h
        rfl
      · cases ha
  | ok a =>
    constructor
    · exact fun h => .inr ⟨a, rfl, h⟩
    · rintro (h | ⟨a', ha, h⟩)
      · cases h
      · cases ha
        exact h

theorem map_eq_ok_iff {x : Except ε α} {f : α → β} {b : β} :
    f <$> x = .ok b ↔ ∃ a, x = .ok a ∧ f a = b := by
  cases x <;> simp [Functor.map, Except.map]

/-- **Steps in a row all succeed or the row fails**, and then it ends where the steps lead to. -/
theorem foldlM_eq_ok_iff {f : β → α → Except ε β} {P : α → Prop} {g : β → α → β}
    (h : ∀ b x b', f b x = .ok b' ↔ P x ∧ b' = g b x) (l : List α) (b b' : β) :
    l.foldlM f b = .ok b' ↔ (∀ x ∈ l, P x) ∧ b' = l.foldl g b := by
  induction l generalizing b with
  | nil => simp [pure, Except.pure, eq_comm]
  | cons x l ih =>
    rw [List.foldlM_cons, bind_eq_ok_iff, List.forall_mem_cons, List.foldl_cons]
    constructor
    · rintro ⟨b₁, hx, hl⟩
      obtain ⟨hp, rfl⟩ := (h b x b₁).1 hx
      obtain ⟨hall, hlast⟩ := (ih _).1 hl
      exact ⟨⟨hp, hall⟩, hlast⟩
    · rintro ⟨⟨hp, hall⟩, hlast⟩
      exact ⟨_, (h b x _).2 ⟨hp, rfl⟩, (ih _).2 ⟨hall, hlast⟩⟩

/-- **A row of steps fails at the first one that does.** -/
theorem foldlM_eq_error_iff {f : β → α → Except ε β} {P : α → Prop} {g : β → α → β}
    {E : α → ε → Prop} (hok : ∀ b x b', f b x = .ok b' ↔ P x ∧ b' = g b x)
    (herror : ∀ b x e, f b x = .error e ↔ E x e) (l : List α) (b : β) (e : ε) :
    l.foldlM f b = .error e ↔
      ∃ before x behind, l = before ++ x :: behind ∧ (∀ y ∈ before, P y) ∧ E x e := by
  induction l generalizing b with
  | nil => simp [pure, Except.pure]
  | cons x l ih =>
    rw [List.foldlM_cons, bind_eq_error_iff]
    constructor
    · rintro (hx | ⟨b₁, hx, hl⟩)
      · exact ⟨[], x, l, rfl, by simp, (herror b x e).1 hx⟩
      · obtain ⟨hp, -⟩ := (hok b x b₁).1 hx
        obtain ⟨before, y, behind, rfl, hall, hy⟩ := (ih b₁).1 hl
        exact ⟨x :: before, y, behind, rfl, List.forall_mem_cons.2 ⟨hp, hall⟩, hy⟩
    · rintro ⟨before, y, behind, hl, hall, hy⟩
      cases before with
      | nil =>
        obtain ⟨rfl, rfl⟩ := List.cons.inj hl
        exact .inl ((herror b x e).2 hy)
      | cons x' before =>
        obtain ⟨rfl, rfl⟩ := List.cons.inj hl
        obtain ⟨hp, hall⟩ := List.forall_mem_cons.1 hall
        exact .inr ⟨g b x, (hok b x _).2 ⟨hp, rfl⟩, (ih _).2 ⟨before, y, behind, rfl, hall, hy⟩⟩

/-- **Answers of one step each are collected** if all steps succeed. -/
theorem mapM_eq_ok_iff {f : α → Except ε β} {P : α → Prop} {g : α → β}
    (h : ∀ x y, f x = .ok y ↔ P x ∧ y = g x) (l : List α) (ys : List β) :
    l.mapM f = .ok ys ↔ (∀ x ∈ l, P x) ∧ ys = l.map g := by
  induction l generalizing ys with
  | nil => simp [pure, Except.pure, eq_comm]
  | cons x l ih =>
    rw [List.mapM_cons, bind_eq_ok_iff, List.forall_mem_cons, List.map_cons]
    constructor
    · rintro ⟨y, hx, hl⟩
      obtain ⟨zs, hzs, hys⟩ := bind_eq_ok_iff.1 hl
      obtain ⟨hp, rfl⟩ := (h x y).1 hx
      obtain ⟨hall, rfl⟩ := (ih zs).1 hzs
      cases hys
      exact ⟨⟨hp, hall⟩, rfl⟩
    · rintro ⟨⟨hp, hall⟩, rfl⟩
      exact ⟨_, (h x _).2 ⟨hp, rfl⟩, bind_eq_ok_iff.2 ⟨_, (ih _).2 ⟨hall, rfl⟩, rfl⟩⟩

theorem mapM_eq_ok {f : α → Except ε β} {g : α → β} {l : List α} (h : ∀ x ∈ l, f x = .ok (g x)) :
    l.mapM f = .ok (l.map g) := by
  induction l with
  | nil => rfl
  | cons x l ih =>
    obtain ⟨hx, hl⟩ := List.forall_mem_cons.1 h
    rw [List.mapM_cons, hx, ih hl]
    rfl

theorem exists_mapM_eq_ok {f : α → Except ε β} {l : List α} (h : ∀ x ∈ l, ∃ y, f x = .ok y) :
    ∃ ys, l.mapM f = .ok ys ∧ ∀ y ∈ ys, ∃ x ∈ l, f x = .ok y := by
  induction l with
  | nil => exact ⟨[], rfl, fun _ hy => by cases hy⟩
  | cons x l ih =>
    obtain ⟨⟨y, hx⟩, hl⟩ := List.forall_mem_cons.1 h
    obtain ⟨ys, hys, hfrom⟩ := ih hl
    refine ⟨y :: ys, by rw [List.mapM_cons, hx, hys]; rfl, List.forall_mem_cons.2 ⟨?_, ?_⟩⟩
    · exact ⟨x, List.mem_cons_self, hx⟩
    · rintro y' hy'
      obtain ⟨x', hx', hfx⟩ := hfrom y' hy'
      exact ⟨x', List.mem_cons_of_mem _ hx', hfx⟩

/-- **What a fold has taken in is followed** by what its steps take in. -/
theorem foldl_follows {γ : Type} {R : β → List γ → Prop} {f : β → α → β} {g : α → List γ}
    {l : List α} {b : β} {cs : List γ} (hb : R b cs)
    (h : ∀ x ∈ l, ∀ b cs, R b cs → R (f b x) (cs ++ g x)) :
    R (l.foldl f b) (cs ++ l.flatMap g) := by
  induction l generalizing b cs with
  | nil => rwa [List.flatMap_nil, List.append_nil]
  | cons x l ih =>
    obtain ⟨hx, hl⟩ := List.forall_mem_cons.1 h
    rw [List.foldl_cons, List.flatMap_cons, ← List.append_assoc]
    exact ih (hx b cs hb) hl

theorem Reading.complete_eq_ok_iff {r : Reading α} {items : List α} :
    r.complete = .ok items ↔ r.damage = none ∧ items = r.items := by
  unfold Reading.complete
  cases r.damage with
  | none => simp [eq_comm]
  | some d => simp

/-- **What is made of all that is read** is there if no damage was met. -/
theorem Reading.map_eq_ok_iff {r : Reading α} {g : List α → β} {b : β} :
    (do let items ← r.complete; pure (g items)) = .ok b ↔ r.damage = none ∧ b = g r.items := by
  rw [bind_eq_ok_iff]
  constructor
  · rintro ⟨items, hitems, hb⟩
    obtain ⟨hdamage, rfl⟩ := Reading.complete_eq_ok_iff.1 hitems
    cases hb
    exact ⟨hdamage, rfl⟩
  · rintro ⟨hdamage, rfl⟩
    exact ⟨_, Reading.complete_eq_ok_iff.2 ⟨hdamage, rfl⟩, rfl⟩

/-- **Answers to all that is read are joined** if no damage was met and each one is there. -/
theorem Reading.collect_eq_ok_iff {r : Reading α} {f : α → Except Damage (List β)} {P : α → Prop}
    {g : α → List β} (h : ∀ x ys, f x = .ok ys ↔ P x ∧ ys = g x) {ys : List β} :
    (do let items ← r.complete; let rows ← items.mapM f; pure rows.flatten) = .ok ys ↔
      (r.damage = none ∧ ∀ x ∈ r.items, P x) ∧ ys = r.items.flatMap g := by
  rw [bind_eq_ok_iff]
  constructor
  · rintro ⟨items, hitems, hys⟩
    obtain ⟨hdamage, rfl⟩ := Reading.complete_eq_ok_iff.1 hitems
    obtain ⟨rows, hrows, hys⟩ := bind_eq_ok_iff.1 hys
    obtain ⟨hall, rfl⟩ := (mapM_eq_ok_iff h _ _).1 hrows
    cases hys
    exact ⟨⟨hdamage, hall⟩, rfl⟩
  · rintro ⟨⟨hdamage, hall⟩, rfl⟩
    exact ⟨_, Reading.complete_eq_ok_iff.2 ⟨hdamage, rfl⟩, bind_eq_ok_iff.2
      ⟨_, (mapM_eq_ok_iff h _ _).2 ⟨hall, rfl⟩, rfl⟩⟩

/-- **A fold over all that is read** ends well if each step does and no damage was met. -/
theorem Reading.fold_eq_ok_iff {r : Reading α} {f : β → α → Except Damage β} {P : α → Prop}
    {g : β → α → β} (h : ∀ b x b', f b x = .ok b' ↔ P x ∧ b' = g b x) {b b' : β}
    (place : Damage → Damage) :
    (do
      let b ← r.items.foldlM f b
      match r.damage with
      | none => pure b
      | some damage => throw (place damage)) = .ok b' ↔
      (r.damage = none ∧ ∀ x ∈ r.items, P x) ∧ b' = r.items.foldl g b := by
  rw [bind_eq_ok_iff]
  constructor
  · rintro ⟨b₁, hb₁, hb'⟩
    obtain ⟨hall, rfl⟩ := (foldlM_eq_ok_iff h _ _ _).1 hb₁
    split at hb'
    · rename_i hdamage
      cases hb'
      exact ⟨⟨hdamage, hall⟩, rfl⟩
    · cases hb'
  · rintro ⟨⟨hdamage, hall⟩, rfl⟩
    refine ⟨_, (foldlM_eq_ok_iff h _ _ _).2 ⟨hall, rfl⟩, ?_⟩
    rw [hdamage]
    rfl

theorem Reading.map_eq_error_iff {r : Reading α} {g : List α → β} {d : Damage} :
    (do let items ← r.complete; pure (g items)) = .error d ↔ r.damage = some d := by
  unfold Reading.complete
  cases r.damage with
  | none => exact ⟨nofun, nofun⟩
  | some d' => simp [bind, Except.bind]

/-- **How a fold over all that is read fails**: at the first record that its step fails for, or at
the damage behind all records. -/
inductive Reading.Fails (P : α → Prop) (E : α → Damage → Prop) (place : Damage → Damage)
    (r : Reading α) : Damage → Prop
  | inside {before behind : List α} {x : α} {d : Damage} (items : r.items = before ++ x :: behind)
      (good : ∀ y ∈ before, P y) (bad : E x d) : Fails P E place r d
  | behind {d : Damage} (good : ∀ y ∈ r.items, P y) (damage : r.damage = some d) :
      Fails P E place r (place d)

theorem Reading.fold_eq_error_iff {r : Reading α} {f : β → α → Except Damage β} {P : α → Prop}
    {g : β → α → β} {E : α → Damage → Prop} (hok : ∀ b x b', f b x = .ok b' ↔ P x ∧ b' = g b x)
    (herror : ∀ b x d, f b x = .error d ↔ E x d) {b : β} {d : Damage} (place : Damage → Damage) :
    (do
      let b ← r.items.foldlM f b
      match r.damage with
      | none => pure b
      | some damage => throw (place damage)) = .error d ↔ r.Fails P E place d := by
  rw [bind_eq_error_iff, foldlM_eq_error_iff hok herror]
  constructor
  · rintro (⟨before, x, behind, hitems, hall, hx⟩ | ⟨b₁, hb₁, hd⟩)
    · exact .inside hitems hall hx
    · obtain ⟨hall, -⟩ := (foldlM_eq_ok_iff hok _ _ _).1 hb₁
      split at hd
      · cases hd
      · rename_i hdamage
        cases hd
        exact .behind hall hdamage
  · intro hfails
    cases hfails with
    | inside hitems hall hx => exact .inl ⟨_, _, _, hitems, hall, hx⟩
    | behind hall hdamage =>
      refine .inr ⟨_, (foldlM_eq_ok_iff hok _ _ _).2 ⟨hall, rfl⟩, ?_⟩
      rw [hdamage]
      rfl

end Stopping

/-! ## 3. What the bytes have to be -/

/-- **As many pairs stand in the body as the header announces**, and perhaps something behind
them. -/
def Segment.Paired (s : Segment) : Prop :=
  Reading.Begins Relation.encodePair Segment.PairSound s.count.toNat s.body

theorem Segment.pairs_damage_iff (s : Segment) : s.pairs.damage = none ↔ s.Paired :=
  Segment.counted_readPairs.damage_eq_none_iff _ 0 _

namespace Entry

/-- **As many segments stand in the payload as the header announces**, and perhaps something behind
them. -/
def Segmented (e : Entry) : Prop :=
  Reading.Begins Segment.encode Segment.Sound e.header.segments.toNat e.payload

/-- As many segments stand in the payload as the header announces, and in each of them as many pairs
as its own header announces. -/
def Nested (e : Entry) : Prop :=
  Reading.Begins Segment.encode (fun s => s.Sound ∧ s.Paired) e.header.segments.toNat e.payload

theorem segments_damage_iff (e : Entry) : e.segments.damage = none ↔ e.Segmented :=
  Segment.counted_readAll.damage_eq_none_iff _ 0 _

theorem nested_iff (e : Entry) :
    e.Nested ↔ e.segments.damage = none ∧ ∀ s ∈ e.segments.items, s.pairs.damage = none := by
  constructor
  · rintro ⟨segments, rest, hcount, hsound, hpayload⟩
    have hread : e.segments = ⟨segments, none⟩ := by
      rw [Entry.segments, ← hcount, hpayload]
      exact Segment.counted_readAll.read_flatMap (fun s hs => (hsound s hs).1) 0 rest
    rw [hread]
    exact ⟨rfl, fun s hs => s.pairs_damage_iff.2 (hsound s hs).2⟩
  · rintro ⟨hdamage, hpairs⟩
    obtain ⟨hsound, ⟨rest, hrest⟩, -, hall⟩ :=
      Segment.counted_readAll.front e.header.segments.toNat 0 e.payload
    exact ⟨e.segments.items, rest, hall hdamage,
      fun s hs => ⟨hsound s hs, s.pairs_damage_iff.1 (hpairs s hs)⟩, hrest⟩

/-- **The bytes are entries of some sort**, one behind the other. -/
def AllOf (P : Entry → Prop) (chunk : Bytes) : Prop :=
  ∃ es, Laid 0 es ∧ chunk = es.flatMap encode ∧ ∀ e ∈ es, P e

theorem allOf_iff {P : Entry → Prop} {chunk : Bytes} :
    AllOf P chunk ↔ (readAll chunk).damage = none ∧ ∀ e ∈ (readAll chunk).items, P e := by
  constructor
  · rintro ⟨es, hlaid, rfl, hes⟩
    have hread : readAll (es.flatMap encode) = ⟨es, none⟩ := hlaid.readAll_eq
    rw [hread]
    exact ⟨rfl, hes⟩
  · rintro ⟨hdamage, hes⟩
    exact ⟨_, (takes_readAll chunk).laid, eq_flatMap_of_damage hdamage, hes⟩

/-! ## 4. What is found -/

end Entry

/-- The constants that are found in a segment. -/
def Segment.found (s : Segment) : List Constant := s.pairs.items.map fun pair => (s.typeId, pair)

/-- The constants that are found in an entry. -/
def Entry.found (e : Entry) : List Constant := e.segments.items.flatMap Segment.found

theorem Segment.constants_eq_ok_iff {s : Segment} {cs : List Constant} :
    s.constants = .ok cs ↔ s.pairs.damage = none ∧ cs = s.found := Reading.map_eq_ok_iff

/-- **The constants of an entry** are there if it is nested. -/
theorem Entry.constants_eq_ok_iff {e : Entry} {cs : List Constant} :
    e.constants = .ok cs ↔ e.Nested ∧ cs = e.found := by
  rw [Entry.nested_iff]
  exact Reading.collect_eq_ok_iff fun _ _ => Segment.constants_eq_ok_iff

/-- **A walk succeeds where all entries are nested**, and finds their constants. -/
theorem Entry.walk_eq_ok_iff {chunk : Bytes} {cs : List Constant} :
    Entry.walk chunk = .ok cs ↔
      Entry.AllOf Entry.Nested chunk ∧ cs = (Entry.readAll chunk).items.flatMap Entry.found := by
  rw [Entry.allOf_iff]
  exact Reading.collect_eq_ok_iff fun _ _ => Entry.constants_eq_ok_iff

/-! ## 5. Summaries -/

namespace Summary

/-- The summary with one more entry, whatever could be read of it. -/
def withEntry (s : Summary) (e : Entry) : Summary :=
  e.segments.items.foldl addSegment (s.addHeader e.header)

theorem addEntry_eq_ok_iff {s s' : Summary} {e : Entry} :
    s.addEntry e = .ok s' ↔ e.Segmented ∧ s' = s.withEntry e := by
  rw [← Entry.segments_damage_iff]
  exact Reading.map_eq_ok_iff.trans (and_congr_left fun _ => Option.map_eq_none_iff)

/-- **A summary can be made where all entries are segmented**, and counts them one by one. -/
theorem ofChunk_eq_ok_iff {chunk : Bytes} {s : Summary} :
    ofChunk chunk = .ok s ↔ Entry.AllOf Entry.Segmented chunk ∧
      s = (Entry.readAll chunk).items.foldl withEntry { bytes := chunk.length } := by
  rw [Entry.allOf_iff]
  exact Reading.fold_eq_ok_iff (f := addEntry) (g := withEntry)
    (fun _ _ _ => addEntry_eq_ok_iff) id

/-- The number of constants of a type, as the summary has it. -/
def constantsOf (s : Summary) (typeId : UInt64) : Nat :=
  ((Dict.find? s.types typeId).getD {}).constants

/-- **The summary counts some constants**, all of them and those of each type. -/
structure Tallies (s : Summary) (cs : List Constant) : Prop where
  constants : s.constants = cs.length
  ofType : ∀ typeId, s.constantsOf typeId = cs.countP (·.1 == typeId)

theorem constantsOf_addSegment (s : Summary) (segment : Segment) (typeId : UInt64) :
    (s.addSegment segment).constantsOf typeId =
      s.constantsOf typeId + if segment.typeId = typeId then segment.count.toNat else 0 := by
  rw [constantsOf, addSegment]
  by_cases h : segment.typeId = typeId
  · subst h
    simp [Dict.update, constantsOf]
  · simp [Dict.update, Dict.find?_insert_of_ne _ _ (Ne.symm h), h, constantsOf]

theorem length_found {segment : Segment} (h : segment.pairs.damage = none) :
    segment.found.length = segment.count.toNat := by
  rw [Segment.found, List.length_map]
  exact (Segment.counted_readPairs.front _ 0 _).2.2.2 h

/-- **A segment counts for the constants that are found in it.** -/
theorem Tallies.addSegment {s : Summary} {cs : List Constant} (h : s.Tallies cs)
    {segment : Segment} (hpairs : segment.pairs.damage = none) :
    (s.addSegment segment).Tallies (cs ++ segment.found) := by
  have hcount := length_found hpairs
  refine ⟨?_, fun typeId => ?_⟩
  · rw [List.length_append, hcount, ← h.constants]
    rfl
  · have htype : ∀ c ∈ segment.found, c.1 = segment.typeId := by
      intro c hc
      obtain ⟨pair, -, rfl⟩ := List.mem_map.1 hc
      rfl
    rw [constantsOf_addSegment, h.ofType, List.countP_append, ← hcount]
    congr 1
    split
    · rename_i ht
      exact (List.countP_eq_length.2 fun c hc => beq_iff_eq.2 ((htype c hc).trans ht)).symm
    · rename_i ht
      exact (List.countP_eq_zero.2 fun c hc heq =>
        ht ((htype c hc).symm.trans (beq_iff_eq.1 heq))).symm

theorem Tallies.withEntry {s : Summary} {cs : List Constant} (h : s.Tallies cs) {e : Entry}
    (he : e.Nested) : (s.withEntry e).Tallies (cs ++ e.found) := by
  have hheader : (s.addHeader e.header).Tallies cs := ⟨h.constants, h.ofType⟩
  exact foldl_follows hheader fun segment hsegment _ _ h =>
    h.addSegment ((Entry.nested_iff e).1 he |>.2 segment hsegment)

/-- **A summary counts the constants of the walk**, where there is one. -/
theorem tallies_of_walk {chunk : Bytes} {s : Summary} {cs : List Constant}
    (hs : ofChunk chunk = .ok s) (hcs : Entry.walk chunk = .ok cs) : s.Tallies cs := by
  obtain ⟨-, rfl⟩ := ofChunk_eq_ok_iff.1 hs
  obtain ⟨hnested, rfl⟩ := Entry.walk_eq_ok_iff.1 hcs
  rw [← List.nil_append (List.flatMap _ _)]
  refine foldl_follows ⟨rfl, fun _ => rfl⟩ fun e he _ _ h => h.withEntry ?_
  exact (Entry.allOf_iff.1 hnested).2 e he

/-- **The summary counts some entries** of a chunk, those that are continued and those that are
not. -/
structure Enters (bytes : Nat) (s : Summary) (es : List Entry) : Prop where
  bytes : s.bytes = bytes
  entries : s.entries = es.length
  flushpoints : s.flushpoints = es.countP (·.header.flushpoint)
  checkpoints : s.checkpoints = es.countP (!·.header.flushpoint)

theorem Enters.foldl_addSegment {bytes : Nat} {s : Summary} {es : List Entry}
    (h : Enters bytes s es) (segments : List Segment) :
    Enters bytes (segments.foldl Summary.addSegment s) es := by
  induction segments generalizing s with
  | nil => exact h
  | cons segment segments ih => exact ih ⟨h.bytes, h.entries, h.flushpoints, h.checkpoints⟩

theorem Enters.withEntry {bytes : Nat} {s : Summary} {es : List Entry} (h : Enters bytes s es)
    (e : Entry) : Enters bytes (s.withEntry e) (es ++ [e]) := by
  have hheader : Enters bytes (s.addHeader e.header) (es ++ [e]) := by
    refine ⟨h.bytes, ?_, ?_, ?_⟩
    · rw [List.length_append, ← h.entries]
      rfl
    · rw [List.countP_append, ← h.flushpoints, List.countP_singleton]
      rfl
    · rw [List.countP_append, ← h.checkpoints, List.countP_singleton]
      cases hb : e.header.flushpoint <;> simp [addHeader, hb]
  exact hheader.foldl_addSegment _

/-- **A summary counts the entries of its chunk.** -/
theorem enters_of_ofChunk {chunk : Bytes} {s : Summary} (h : ofChunk chunk = .ok s) :
    Enters chunk.length s (Entry.readAll chunk).items := by
  obtain ⟨-, rfl⟩ := ofChunk_eq_ok_iff.1 h
  have hempty : Enters chunk.length ({ bytes := chunk.length } : Summary) [] :=
    ⟨rfl, rfl, rfl, rfl⟩
  have hall := foldl_follows (g := fun e => [e]) hempty
    fun e (_ : e ∈ (Entry.readAll chunk).items) _ _ h => h.withEntry e
  rwa [List.nil_append, List.flatMap_singleton'] at hall

end Summary

/-! ## 6. Tables of constants -/

namespace ConstantTable

def withAll (t : ConstantTable) (cs : List Constant) : ConstantTable :=
  cs.foldl (fun t c => assign c.1 t c.2) t

theorem addSegment_eq_ok_iff {t t' : ConstantTable} {s : Segment} :
    t.addSegment s = .ok t' ↔ s.pairs.damage = none ∧ t' = t.withAll s.found := by
  rw [withAll, Segment.found, List.foldl_map]
  exact Reading.map_eq_ok_iff

theorem addEntry_eq_ok_iff {t t' : ConstantTable} {e : Entry} :
    t.addEntry e = .ok t' ↔ e.Nested ∧ t' = t.withAll e.found := by
  rw [Entry.nested_iff, withAll, Entry.found, List.foldl_flatMap]
  exact Reading.fold_eq_ok_iff (f := addSegment) (g := fun t s => t.withAll s.found)
    (fun _ _ _ => addSegment_eq_ok_iff) e.rebase

/-- **A table can be made where all entries are nested**, and takes their constants in order. -/
theorem ofChunk_eq_ok_iff {chunk : Bytes} {t : ConstantTable} :
    ofChunk chunk = .ok t ↔ Entry.AllOf Entry.Nested chunk ∧
      t = withAll ∅ ((Entry.readAll chunk).items.flatMap Entry.found) := by
  rw [Entry.allOf_iff, withAll, List.foldl_flatMap]
  exact Reading.fold_eq_ok_iff (f := addEntry) (g := fun t e => t.withAll e.found)
    (fun _ _ _ => addEntry_eq_ok_iff) id

/-- **The table lists some constants**: no other types, and no more. -/
structure Lists (t : ConstantTable) (cs : List Constant) : Prop where
  types : ∀ typeId, (∃ key value, t.valueOf? typeId key = some value) ↔ ∃ c ∈ cs, c.1 = typeId
  size : t.size ≤ cs.length

/-- An assignment lists one constant more. -/
theorem Lists.assign {t : ConstantTable} {cs : List Constant} (h : t.Lists cs) (c : Constant) :
    (ConstantTable.assign c.1 t c.2).Lists (cs ++ [c]) := by
  refine ⟨fun typeId => ?_, ?_⟩
  · simp only [valueOf?_assign, List.mem_append, List.mem_singleton, or_and_right, exists_or,
      exists_eq_left, ← h.types]
    constructor
    · rintro ⟨key, value, hv⟩
      split at hv
      · rename_i heq
        exact .inr heq.1
      · exact .inl ⟨key, value, hv⟩
    · rintro (⟨key, value, hv⟩ | rfl)
      · by_cases heq : c.1 = typeId ∧ c.2.1 = key
        · exact ⟨key, c.2.2, if_pos heq⟩
        · exact ⟨key, value, by rw [if_neg heq, hv]⟩
      · exact ⟨c.2.1, c.2.2, if_pos ⟨rfl, rfl⟩⟩
  · rw [List.length_append]
    exact Nat.le_trans Std.TreeMap.size_insert_le (Nat.succ_le_succ h.size)

/-- **A table of some constants lists them.** -/
theorem lists_withAll (cs : List Constant) : (withAll ∅ cs).Lists cs := by
  have hempty : (∅ : ConstantTable).Lists [] := by
    refine ⟨fun typeId => ?_, Nat.le_refl _⟩
    simp [valueOf?]
  have hall := foldl_follows (g := fun c => [c]) hempty fun c (_ : c ∈ cs) _ _ h => h.assign c
  rwa [List.nil_append, List.flatMap_singleton'] at hall

/-! ## 7. The two readers -/

/-- **What a table and a summary of one chunk have in common**: the constants that a walk meets.
The table has them all assigned, and the summary counts them. -/
structure Agrees (chunk : Bytes) (t : ConstantTable) (s : Summary) (cs : List Constant) : Prop where
  walk : Entry.walk chunk = .ok cs
  table : t = withAll ∅ cs
  tallies : s.Tallies cs
  /-- The types of the table are those that the summary counts constants of. -/
  types : ∀ typeId, (∃ key value, t.valueOf? typeId key = some value) ↔ s.constantsOf typeId ≠ 0
  size : t.size ≤ s.constants

/-- A chunk that has a table has a summary. -/
theorem agrees_of_ofChunk {chunk : Bytes} {t : ConstantTable} (h : ofChunk chunk = .ok t) :
    ∃ s cs, Summary.ofChunk chunk = .ok s ∧ Agrees chunk t s cs := by
  obtain ⟨hnested, ht⟩ := ofChunk_eq_ok_iff.1 h
  have hsegmented : Entry.AllOf Entry.Segmented chunk := by
    obtain ⟨hdamage, hes⟩ := Entry.allOf_iff.1 hnested
    refine Entry.allOf_iff.2 ⟨hdamage, fun e he => ?_⟩
    exact e.segments_damage_iff.1 (e.nested_iff.1 (hes e he)).1
  have hs := Summary.ofChunk_eq_ok_iff.2 ⟨hsegmented, rfl⟩
  have hwalk := Entry.walk_eq_ok_iff.2 ⟨hnested, rfl⟩
  have htallies := Summary.tallies_of_walk hs hwalk
  have hlists := lists_withAll ((Entry.readAll chunk).items.flatMap Entry.found)
  rw [← ht] at hlists
  refine ⟨_, _, hs, hwalk, ht, htallies, fun typeId => ?_, ?_⟩
  · rw [hlists.types, htallies.ofType, ← Nat.pos_iff_ne_zero, List.countP_pos_iff]
    simp
  · rw [htallies.constants]
    exact hlists.size

/-- **The readers of a chunk agree, and accept exactly the nested grammar.**  A summary can be made
of entries in which as many segments stand as are announced, a table of constants if moreover as
many pairs stand in each of these; entries are accepted by the grammar if they are read without
damage.  So a chunk that has a table has a summary, which counts just the constants that the table
was made of.  How often either reader looks for a segment or a pair is bounded by the bytes that are
there, whatever number is announced, and where one fails the chunk is reported as corrupt. -/
theorem agrees_with_summary (chunk : Bytes) :
    ((∃ s, Summary.ofChunk chunk = .ok s) ↔ Entry.AllOf Entry.Segmented chunk) ∧
    ((∃ t, ofChunk chunk = .ok t) ↔ Entry.AllOf Entry.Nested chunk) ∧
    (∀ P, Entry.AllOf P chunk ↔ (Entry.readAll chunk).damage = none ∧
      ∀ e ∈ (Entry.readAll chunk).items, P e) ∧
    (∀ t, ofChunk chunk = .ok t →
      ∃ s cs, Summary.ofChunk chunk = .ok s ∧ Agrees chunk t s cs) ∧
    (∀ e ∈ (Entry.readAll chunk).items,
      e.segments.items.length + e.segments.damage.toList.length ≤
        e.payload.length / Segment.headerLength + 1 ∧
      ∀ s ∈ e.segments.items, s.pairs.items.length + s.pairs.damage.toList.length ≤
        s.body.length / Segment.pairHeaderLength + 1) ∧
    (∀ d, Summary.ofChunk chunk = .error d ∨ ofChunk chunk = .error d →
      d.report.kind = .corrupt) := by
  refine ⟨⟨?_, ?_⟩, ⟨?_, ?_⟩, fun P => Entry.allOf_iff, fun t => agrees_of_ofChunk, ?_,
    fun _ _ => rfl⟩
  · rintro ⟨s, hs⟩
    exact (Summary.ofChunk_eq_ok_iff.1 hs).1
  · exact fun hsegmented => ⟨_, Summary.ofChunk_eq_ok_iff.2 ⟨hsegmented, rfl⟩⟩
  · rintro ⟨t, ht⟩
    exact (ofChunk_eq_ok_iff.1 ht).1
  · exact fun hnested => ⟨_, ofChunk_eq_ok_iff.2 ⟨hnested, rfl⟩⟩
  · refine fun e _ => ⟨Segment.counted_readAll.few (by decide) ?_ _ 0 _, fun s _ =>
      Segment.counted_readPairs.few (by decide) ?_ _ 0 _⟩
    · intro s
      rw [Segment.length_encode]
      exact Nat.le_add_right ..
    · intro pair
      rw [Segment.length_encodePair]
      exact Nat.le_add_right ..

/-- One pair, which is announced rightly in the first chunk and as two pairs in the second. -/
theorem agrees_with_summary_overstated :
    let segment (count : UInt32) : Segment := ⟨64, count, Relation.encodePair (1, [7])⟩
    let chunk (count : UInt32) : Bytes :=
      Entry.encode ⟨0, .forPayload 29 7 1 false 1, (segment count).encode⟩
    (∃ t s, ofChunk (chunk 1) = .ok t ∧ Summary.ofChunk (chunk 1) = .ok s ∧
      t.size ≤ s.constants ∧ s.constantsOf 64 = 1) ∧
    (∃ s, Summary.ofChunk (chunk 2) = .ok s) ∧ ¬ ∃ t, ofChunk (chunk 2) = .ok t := by
  intro segment chunk
  have hread (count : UInt32) : Entry.readAll (chunk count) =
      ⟨[⟨0, .forPayload 29 7 1 false 1, (segment count).encode⟩], none⟩ := by
    have hlaid : Entry.Laid 0 [⟨0, .forPayload 29 7 1 false 1, (segment count).encode⟩] := by
      refine ⟨rfl, ⟨?_, fun hnone => ?_⟩, trivial⟩
      · rw [Segment.length_encode]
        rfl
      · cases hnone
    exact hlaid.readAll_eq
  obtain ⟨-, htable, hall, hagrees, -⟩ := agrees_with_summary (chunk 1)
  obtain ⟨hsummary', htable', hall', -⟩ := agrees_with_summary (chunk 2)
  rw [hall, hread] at htable
  rw [hall', hread] at hsummary' htable'
  simp only [true_and, List.forall_mem_singleton, Entry.nested_iff,
    ← Entry.segments_damage_iff] at htable hsummary' htable'
  obtain ⟨t, ht⟩ := htable.2 ⟨by decide, by decide⟩
  obtain ⟨s, cs, hs, h⟩ := hagrees t ht
  refine ⟨⟨t, s, ht, hs, h.size, ?_⟩, hsummary'.2 (by decide), fun h => ?_⟩
  · rw [h.tallies.ofType, (Entry.walk_eq_ok_iff.1 h.walk).2, hread]
    decide
  · exact absurd (htable'.1 h).2 (by decide)

end ConstantTable

end TraceRecorder
