/-
# Where a new file shows

A path leads from directory to directory and to a name in the last one.  A file that is made or
rewritten there stays out of the way of all other paths: directories are directories still, and
other places in them are what they were.  So a path leads where it led, but that the place of the
file is this file now (`Disk.Rewrites`).

No path is cut off, and none can be followed that could not be: a file never takes the place of a
directory.
-/
import TraceRecorder.Proofs.Storage.Directory

namespace TraceRecorder

namespace Disk

variable {d : Disk} {l x D : Location} {name : String}

/-! ## 1. Places in directories -/

/-- **Paths can go on from a location.** -/
def IsDirectory (d : Disk) (l : Location) : Prop :=
  l.isOrigin = true ∨ ∃ entries, d.node? l = some (.directory entries)

/-- **A place in a directory** that is not a directory itself. -/
structure Spot (d : Disk) (l : Location) : Prop where
  named : ∃ D name, l = D.child name ∧ name ≠ ".." ∧ d.IsDirectory D
  plain : ∀ entries, d.node? l ≠ some (.directory entries)

theorem Spot.isOrigin_eq_false (h : d.Spot l) : l.isOrigin = false := by
  obtain ⟨D, name, rfl, up, -⟩ := h.named
  simp [Location.isOrigin, Location.child, up]

/-- **What stands on the way to a directory is one.** -/
theorem exists_directory_above {entries : List (String × Node)}
    (h : d.node? l = some (.directory entries)) (tree : x.fromRoot = l.fromRoot)
    (front : x.names <+: l.names) (origin : x.isOrigin = false) :
    ∃ entries, d.node? x = some (.directory entries) := by
  obtain ⟨rest, names⟩ := front
  have no_origin : l.isOrigin = false := by
    simp only [Location.isOrigin, ← names, List.all_append] at origin ⊢
    rw [origin, Bool.false_and]
  have same_tree : d.tree x = d.tree l := by rw [Disk.tree, Disk.tree, tree]
  rw [node?, no_origin, if_neg Bool.false_ne_true, ← names, Node.find?_append] at h
  obtain ⟨n, found, directory⟩ := Option.bind_eq_some_iff.mp h
  obtain ⟨entries, rfl⟩ := Node.eq_directory_of_find? directory
  exact ⟨entries, by rw [node?, origin, if_neg Bool.false_ne_true, same_tree, found]⟩

/-- The directory above a directory is one. -/
theorem IsDirectory.parent (h : d.IsDirectory l) : d.IsDirectory l.parent := by
  unfold Location.parent
  split
  case isTrue origin =>
    refine .inl ?_
    split
    · exact origin
    · simp only [Location.isOrigin, Location.child, List.all_append] at origin ⊢
      rw [origin]
      rfl
  case isFalse named =>
    obtain ⟨entries, directory⟩ := h.resolve_left named
    by_cases origin : (⟨l.fromRoot, l.names.dropLast⟩ : Location).isOrigin = true
    · exact .inl origin
    · exact .inr (exists_directory_above directory rfl (List.dropLast_prefix l.names)
        (Bool.eq_false_iff.mpr origin))

theorem Spot.not_prefix (h : d.Spot l) (hD : d.IsDirectory D) (tree : l.fromRoot = D.fromRoot) :
    ¬ l.names <+: D.names := by
  intro front
  rcases hD with origin | ⟨entries, directory⟩
  · have above : l.isOrigin = true := by
      obtain ⟨rest, names⟩ := front
      simp only [Location.isOrigin, ← names, List.all_append, Bool.and_eq_true] at origin ⊢
      exact origin.1
    rw [h.isOrigin_eq_false] at above
    cases above
  · obtain ⟨entries, directory⟩ :=
      exists_directory_above directory tree front h.isOrigin_eq_false
    exact h.plain entries directory

/-- **Of two places in directories none leads to the other.** -/
theorem Spot.apart (h : d.Spot l) (hx : d.Spot x) (other : x ≠ l) (tree : l.fromRoot = x.fromRoot) :
    ¬ l.names <+: x.names := by
  obtain ⟨D, name, rfl, -, hD⟩ := hx.named
  intro front
  rcases List.prefix_concat_iff.mp front with same | front
  · refine other ?_
    obtain ⟨fromRoot, names⟩ := l
    cases tree
    cases same
    rfl
  · exact h.not_prefix hD tree front

theorem Spot.node?_setNode (h : d.Spot l) (hx : d.Spot x) (other : x ≠ l) (n : Node) :
    (d.setNode l n).node? x = d.node? x := by
  rw [node?, node?, hx.isOrigin_eq_false, if_neg Bool.false_ne_true, if_neg Bool.false_ne_true,
    tree_setNode]
  split
  case isTrue tree =>
    exact Node.find?_put_of_apart _ _ (h.apart hx other tree.symm) (hx.apart h other.symm tree)
  case isFalse => rfl

theorem Spot.directories (h : d.Spot l) (content : Tape) {entries : List (String × Node)}
    (directory : d.node? x = some (.directory entries)) :
    ∃ entries, (d.setNode l (.file content)).node? x = some (.directory entries) := by
  obtain ⟨D, name, rfl, up, -⟩ := h.named
  exact (writes_setNode up h.plain content).directories x entries directory

/-! ## 2. Where paths lead -/

end Disk

namespace Place

/-- **The place with some bytes as the file at a location.** -/
def withFile (l : Location) (content : Tape) : Place → Place
  | file x old => if x = l then file l content else file x old
  | vacant x => if x = l then file l content else vacant x
  | place => place

def location : Place → Location
  | directory l | file l _ | device l | vacant l => l

@[simp] theorem location_withFile (place : Place) (l : Location) (content : Tape) :
    (place.withFile l content).location = place.location := by
  cases place with
  | directory x | device x => rfl
  | file x old | vacant x =>
    rw [withFile]
    split
    case isTrue here => exact here.symm
    case isFalse => rfl

/-- A place is what is there. -/
def Stands (d : Disk) : Place → Prop
  | directory l => d.IsDirectory l
  | file l content => d.Spot l ∧ d.node? l = some (.file content)
  | device l => d.Spot l ∧ d.node? l = some .device
  | vacant l => d.Spot l ∧ d.node? l = none

end Place

namespace Disk

variable {d : Disk} {l D : Location}

/-- **What a path leads to stands there.** -/
theorem stands_of_walk (hD : d.IsDirectory D) {parts : List String} {place : Place}
    (h : d.walk D parts = .ok place) : place.Stands d := by
  induction parts generalizing D with
  | nil =>
    cases h
    exact hD
  | cons part rest ih =>
    rw [walk] at h
    split_ifs at h with here up short
    · exact ih hD h
    · exact ih hD.parent h
    · have up : part ≠ ".." := by simpa using up
      cases found : d.node? (D.child part) with
      | none =>
        have spot : d.Spot (D.child part) := ⟨⟨D, part, rfl, up, hD⟩, by simp [found]⟩
        cases rest <;> simp [found] at h
        exact h ▸ ⟨spot, found⟩
      | some node =>
        cases node with
        | directory entries =>
          simp only [found] at h
          exact ih (.inr ⟨entries, found⟩) h
        | file content =>
          have spot : d.Spot (D.child part) := ⟨⟨D, part, rfl, up, hD⟩, by simp [found]⟩
          cases rest <;> simp [found] at h
          exact h ▸ ⟨spot, found⟩
        | device =>
          have spot : d.Spot (D.child part) := ⟨⟨D, part, rfl, up, hD⟩, by simp [found]⟩
          cases rest <;> simp [found] at h
          exact h ▸ ⟨spot, found⟩

theorem stands_of_locate {path : String} {place : Place} (h : d.locate path = .ok place) :
    place.Stands d := by
  rw [locate_of_usable (usable_of_locate h)] at h
  exact stands_of_walk (.inl rfl) h

/-- **A file that is made or rewritten** shows at its place, and nowhere else. -/
theorem toOption_walk_setNode (h : d.Spot l) (kept : d.node? l ≠ some .device) (content : Tape)
    (hD : d.IsDirectory D) (parts : List String) :
    ((d.setNode l (.file content)).walk D parts).toOption =
      (d.walk D parts).toOption.map (Place.withFile l content) := by
  induction parts generalizing D with
  | nil => rfl
  | cons part rest ih =>
    rw [walk, walk]
    split_ifs with here up short
    · exact ih hD
    · exact ih hD.parent
    · rfl
    · have up : part ≠ ".." := by simpa using up
      by_cases directory : ∃ entries, d.node? (D.child part) = some (.directory entries)
      · obtain ⟨entries, found⟩ := directory
        obtain ⟨entries', found'⟩ := h.directories content found
        simp only [found, found']
        exact ih (.inr ⟨entries, found⟩)
      · have spot : d.Spot (D.child part) :=
          ⟨⟨D, part, rfl, up, hD⟩, fun entries found => directory ⟨entries, found⟩⟩
        dsimp only
        by_cases here : D.child part = l
        · -- the part leads to the file now, and led to a file or to nothing
          have found' := d.node?_setNode_self l (.file content)
          rw [here, found']
          cases found : d.node? l with
          | none => cases rest <;> simp [Place.withFile, Except.toOption]
          | some node =>
            cases node with
            | directory entries => exact absurd found (h.plain entries)
            | device => exact absurd found kept
            | file old => cases rest <;> simp [Place.withFile, Except.toOption]
        · rw [h.node?_setNode spot here]
          cases found : d.node? (D.child part) with
          | none => cases rest <;> simp [Place.withFile, Except.toOption, here]
          | some node =>
            cases node with
            | directory entries => exact absurd ⟨entries, found⟩ directory
            | device => cases rest <;> simp [Place.withFile, Except.toOption]
            | file old => cases rest <;> simp [Place.withFile, Except.toOption, here]

theorem toOption_locate_setNode (h : d.Spot l) (kept : d.node? l ≠ some .device) (content : Tape)
    (path : String) :
    ((d.setNode l (.file content)).locate path).toOption =
      (d.locate path).toOption.map (Place.withFile l content) := by
  rw [locate, locate]
  split_ifs
  · rfl
  · rfl
  · exact toOption_walk_setNode h kept content (.inl rfl) (Path.parts path)

/-- A path that cannot be followed is not held by anyone. -/
theorem flaw_of_walk {parts : List String} {flaw : FileFlaw} (h : d.walk D parts = .error flaw) :
    flaw = .missing ∨ flaw = .unusable := by
  induction parts generalizing D with
  | nil => cases h
  | cons part rest ih =>
    rw [walk] at h
    split_ifs at h with here up short
    · exact ih h
    · exact ih h
    · cases h
      exact .inr rfl
    · cases found : d.node? (D.child part) with
      | none =>
        cases rest <;> simp [found] at h
        exact .inl h.symm
      | some node =>
        cases node with
        | directory entries => exact ih (by simpa [found] using h)
        | file content | device =>
          cases rest <;> simp [found] at h
          exact .inr h.symm

theorem flaw_of_locate {path : String} {flaw : FileFlaw} (h : d.locate path = .error flaw) :
    flaw = .missing ∨ flaw = .unusable := by
  unfold locate at h
  split_ifs at h
  · cases h
    exact .inl rfl
  · cases h
    exact .inr rfl
  · exact flaw_of_walk h

/-! ## 3. Files that are written -/

/-- **A file has some bytes now**, and no path shows more of a change. -/
structure Rewrites (d : Disk) (l : Location) (content : Tape) (d' : Disk) : Prop where
  locate : ∀ path, (d'.locate path).toOption =
    (d.locate path).toOption.map (Place.withFile l content)
  writers : d'.writers = d.writers
  readers : d'.readers = d.readers

def Takes (l : Location) (place : Place) : Prop := place = .vacant l ∨ ∃ old, place = .file l old

theorem Takes.location {place : Place} (h : Takes l place) : place.location = l := by
  rcases h with rfl | ⟨old, rfl⟩ <;> rfl

theorem rewrites_setNode {path : String} {place : Place} (h : d.locate path = .ok place)
    (takes : Takes l place) (content : Tape) :
    d.Rewrites l content (d.setNode l (.file content)) := by
  have stands := stands_of_locate h
  have spot : d.Spot l ∧ d.node? l ≠ some .device := by
    rcases takes with rfl | ⟨old, rfl⟩
    · exact ⟨stands.1, by simp [stands.2]⟩
    · exact ⟨stands.1, by simp [stands.2]⟩
  refine ⟨toOption_locate_setNode spot.1 spot.2 content, ?_, ?_⟩
  · unfold setNode
    split <;> rfl
  · unfold setNode
    split <;> rfl

theorem content_of_locate {path : String} {content : Tape}
    (h : d.locate path = .ok (.file l content)) : d.content l = content := by
  rw [Disk.content, (stands_of_locate h).2]
  rfl

/-- Nothing is written. -/
theorem Rewrites.refl {path : String} {content : Tape}
    (h : d.locate path = .ok (.file l content)) : d.Rewrites l content d := by
  refine ⟨fun other => ?_, rfl, rfl⟩
  have found := (stands_of_locate h).2
  cases leads : d.locate other with
  | error flaw => rfl
  | ok place =>
    have stands := stands_of_locate leads
    cases place with
    | directory x | device x => rfl
    | file x old =>
      by_cases here : x = l
      · subst here
        obtain rfl : content = old := by simpa [found] using stands.2
        simp [Except.toOption, Place.withFile]
      · simp [Except.toOption, Place.withFile, here]
    | vacant x =>
      have away : x ≠ l := by
        rintro rfl
        cases found.symm.trans stands.2
      simp [Except.toOption, Place.withFile, away]

section

variable {d' : Disk} {content content' : Tape} {path : String} {place : Place}

theorem Rewrites.locate_eq (h : d.Rewrites l content d') (leads : d.locate path = .ok place) :
    d'.locate path = .ok (place.withFile l content) := by
  have same := h.locate path
  rw [leads] at same
  cases leads' : d'.locate path with
  | error flaw => simp [leads', Except.toOption] at same
  | ok place' =>
    simp only [leads', Except.toOption, Option.map_some, Option.some.injEq] at same
    rw [same]

theorem Rewrites.locate_eq_file (h : d.Rewrites l content d') (leads : d.locate path = .ok place)
    (takes : Takes l place) : d'.locate path = .ok (.file l content) := by
  rw [h.locate_eq leads]
  rcases takes with rfl | ⟨old, rfl⟩ <;> simp [Place.withFile]

theorem Rewrites.trans {d'' : Disk} (h : d.Rewrites l content d')
    (h' : d'.Rewrites l content' d'') : d.Rewrites l content' d'' := by
  refine ⟨fun path => ?_, h'.writers.trans h.writers, h'.readers.trans h.readers⟩
  rw [h'.locate, h.locate, Option.map_map]
  congr 1
  funext place
  cases place with
  | directory x | device x => rfl
  | file x old => by_cases here : x = l <;> simp [Place.withFile, here]
  | vacant x => by_cases here : x = l <;> simp [Place.withFile, here]

end

theorem walk_held (d : Disk) (writers readers : List Location) (D : Location)
    (parts : List String) :
    ({ d with writers := writers, readers := readers } : Disk).walk D parts = d.walk D parts := by
  induction parts generalizing D with
  | nil => rfl
  | cons part rest ih =>
    have same : ({ d with writers := writers, readers := readers } : Disk).node? (D.child part) =
        d.node? (D.child part) := rfl
    simp only [walk, ih, same]
    cases d.node? (D.child part) with
    | none => cases rest <;> rfl
    | some node =>
      cases node with
      | directory entries => simp only [ih]
      | file content | device => cases rest <;> rfl

theorem locate_held (d : Disk) (writers readers : List Location) (path : String) :
    ({ d with writers := writers, readers := readers } : Disk).locate path = d.locate path := by
  rw [locate, locate, walk_held]

end Disk

end TraceRecorder
