/-
# Files in one directory

A chunk file has a plain name in a directory that is named by a path, so the path of the file leads
to that directory first (`Path.parts_join`, `Disk.locate_join`).  What is done to the file changes
nothing else that matters here: directories stay directories, and the other files of the directory
keep their bytes (`Disk.Writes`).

* `ChunkFile.answers_create`: a new chunk file is an empty file of the directory;
* `RecordingSession.ends_finishFile`: it gets all that the sink took;
* `Disk.Holds.read_eq`: and whoever reads its path finds that.
-/
import Mathlib.Data.String.Basic
import TraceRecorder.Proofs.Outcome
import TraceRecorder.Workload.Recording

namespace TraceRecorder

open Fallible (Answers Ends)

/-! ## 1. Paths -/

namespace Path

/-- **A plain name**: it is not too long, and leads to a thing of that name in a directory. -/
structure Plain (name : String) : Prop where
  here : isHere name = false
  up : name ≠ ".."
  short : isName name = true
  whole : ∀ c ∈ name.toList, (c == '/') = false

/-- The parts of a directory's path that come before a name in it. -/
def inner (directory : String) : List String :=
  if directory == "" then []
  else if directory.toList.getLast? == some '/' then (parts directory).dropLast
  else parts directory

theorem parts_eq (path : String) :
    parts path = (path.toList.splitOnP (· == '/')).map String.ofList :=
  String.splitToList_of_valid path (· == '/')

theorem isAbsolute_eq_false {name : String} (h : Plain name) : isAbsolute name = false := by
  unfold isAbsolute
  cases hname : name.toList with
  | nil => rfl
  | cons c rest =>
    have hc := h.whole c (by simp [hname])
    simpa using hc

theorem Plain.parts_eq {name : String} (h : Plain name) : parts name = [name] := by
  rw [Path.parts_eq, List.splitOnP_eq_singleton h.whole, List.map_singleton, String.ofList_toList]

theorem parts_slash (front back : String) :
    parts (front ++ "/" ++ back) = parts front ++ parts back := by
  have hslash : (front ++ "/" ++ back).toList = front.toList ++ '/' :: back.toList := by
    simp [String.toList_append]
  rw [parts_eq, parts_eq, parts_eq, hslash, List.splitOnP_append_cons _ _ (by decide),
    List.map_append]

/-- **The path of a plain name leads to its directory first.** -/
theorem parts_join {name : String} (h : Plain name) (directory : String) :
    parts (join directory name) = inner directory ++ [name] := by
  unfold join inner
  rw [isAbsolute_eq_false h, Bool.false_or]
  split
  · exact h.parts_eq
  · split
    · rename_i hend
      obtain ⟨front, hfront⟩ := List.getLast?_eq_some_iff.1 (eq_of_beq hend)
      have hdirectory : directory = String.ofList front ++ "/" ++ "" := by
        apply String.toList_inj.1
        simp [hfront, String.toList_append]
      have hempty : parts "" = [""] := by rw [parts_eq]; rfl
      rw [hdirectory, parts_slash, hempty, List.dropLast_concat, String.append_empty, parts_slash,
        h.parts_eq]
    · rw [parts_slash, h.parts_eq]

theorem origin_join {name : String} (h : Plain name) (directory : String) :
    Location.origin (join directory name) = Location.origin directory := by
  refine congrArg (Location.mk · []) ?_
  unfold join
  rw [isAbsolute_eq_false h, Bool.false_or]
  split
  · rename_i hnone
    rw [eq_of_beq hnone, isAbsolute_eq_false h]
    rfl
  · rename_i hsome
    have hne : directory.toList ≠ [] := fun hnil =>
      hsome (beq_iff_eq.2 (String.toList_inj.1 hnil))
    obtain ⟨c, rest, hcons⟩ := List.exists_cons_of_ne_nil hne
    split <;> simp [isAbsolute, String.toList_append, hcons]

end Path

/-! ## 2. Trees -/

namespace Node

theorem find?_append (n : Node) (front back : List String) :
    n.find? (front ++ back) = (n.find? front).bind (·.find? back) := by
  induction front generalizing n with
  | nil => rfl
  | cons name rest ih =>
    rw [List.cons_append, find?_cons, find?_cons, Option.bind_assoc]
    exact congrArg _ (funext ih)

theorem eq_directory_of_find? {n : Node} {names : List String} {es : List (String × Node)}
    (h : n.find? names = some (directory es)) : ∃ es', n = directory es' := by
  cases n with
  | directory es' => exact ⟨es', rfl⟩
  | file content => cases names <;> cases h
  | device => cases names <;> cases h

theorem find?_put_of_lt (n new : Node) (front : List String) (name : String)
    (rest : List String) :
    ∃ es, (n.put new (front ++ name :: rest)).find? front = some (directory es) := by
  induction front generalizing n with
  | nil => exact ⟨_, rfl⟩
  | cons first front ih =>
    rw [List.cons_append, put_cons, find?_cons, entries_directory, Dict.find?_insert_self]
    exact ih _

/-- **Names that do not lead through what is put** lead to what they led to, or to a directory. -/
theorem find?_put_of_not_prefix (n new : Node) {names other : List String}
    (h : ¬ names <+: other) : (n.put new names).find? other = n.find? other ∨
      ∃ es, (n.put new names).find? other = some (directory es) := by
  by_cases hother : other <+: names
  · obtain ⟨rest, rfl⟩ := hother
    cases rest with
    | nil => exact absurd ⟨[], by rw [List.append_nil, List.append_nil]⟩ h
    | cons name rest => exact .inr (n.find?_put_of_lt new other name rest)
  · exact .inl (n.find?_put_of_apart new h hother)

end Node

/-! ## 3. Where paths lead -/

namespace Disk

variable {d d' : Disk} {l D : Location} {name other : String}

/-- **Where one part of a path leads on** from a directory, if it leads to a directory again. -/
def next? (d : Disk) (l : Location) (part : String) : Option Location :=
  if Path.isHere part then some l
  else if part == ".." then some l.parent
  else if !Path.isName part then none
  else
    match d.node? (l.child part) with
    | some (.directory _) => some (l.child part)
    | _ => none

/-- **A path goes on from directory to directory**, and only its last part may lead to something
else. -/
theorem walk_cons (d : Disk) (l : Location) (part : String) (rest : List String) :
    (∃ l', d.next? l part = some l' ∧ d.walk l (part :: rest) = d.walk l' rest) ∨
      (d.next? l part = none ∧ ∀ place, d.walk l (part :: rest) = .ok place →
        rest = [] ∧ ∀ D, place ≠ .directory D) := by
  rw [next?, walk]
  split
  · exact .inl ⟨l, rfl, rfl⟩
  · split
    · exact .inl ⟨l.parent, rfl, rfl⟩
    · split
      · exact .inr ⟨rfl, fun place h => by cases h⟩
      · cases hnode : d.node? (l.child part) with
        | none =>
          refine .inr ⟨rfl, fun place h => ?_⟩
          cases rest <;> simp [hnode] at h
          simp [← h]
        | some node =>
          cases node with
          | directory entries => exact .inl ⟨l.child part, rfl, by simp [hnode]⟩
          | file content =>
            refine .inr ⟨rfl, fun place h => ?_⟩
            cases rest <;> simp [hnode] at h
            simp [← h]
          | device =>
            refine .inr ⟨rfl, fun place h => ?_⟩
            cases rest <;> simp [hnode] at h
            simp [← h]

theorem walk_append {front : List String} (h : d.walk l front = .ok (.directory D))
    (back : List String) : d.walk l (front ++ back) = d.walk D back := by
  induction front generalizing l with
  | nil =>
    obtain rfl : l = D := by simpa [walk] using h
    rfl
  | cons part rest ih =>
    rcases d.walk_cons l part rest with ⟨l', hnext, hwalk⟩ | ⟨-, hlast⟩
    · rcases d.walk_cons l part (rest ++ back) with ⟨l'', hnext', hwalk'⟩ | ⟨hnone, -⟩
      · obtain rfl := Option.some.inj (hnext.symm.trans hnext')
        exact hwalk'.trans (ih (hwalk ▸ h))
      · cases hnext.symm.trans hnone
    · exact absurd rfl ((hlast _ h).2 D)

theorem exists_of_walk_append {front : List String} {place : Place}
    (h : d.walk l (front ++ [name]) = .ok place) :
    ∃ D, d.walk l front = .ok (.directory D) := by
  induction front generalizing l with
  | nil => exact ⟨l, rfl⟩
  | cons part rest ih =>
    rcases d.walk_cons l part (rest ++ [name]) with ⟨l', hnext, hwalk⟩ | ⟨-, hlast⟩
    · obtain ⟨D, hD⟩ := ih (hwalk ▸ h)
      rcases d.walk_cons l part rest with ⟨l'', hnext', hwalk'⟩ | ⟨hnone, -⟩
      · obtain rfl := Option.some.inj (hnext.symm.trans hnext')
        exact ⟨D, hwalk'.trans hD⟩
      · cases hnext.symm.trans hnone
    · exact absurd (hlast _ h).1 (by simp)

/-- **A plain name leads to the thing of that name.** -/
theorem walk_plain (h : Path.Plain name) (d : Disk) (D : Location) :
    d.walk D [name] = .ok (match d.node? (D.child name) with
      | some (.directory _) => .directory (D.child name)
      | some (.file content) => .file (D.child name) content
      | some .device => .device (D.child name)
      | none => .vacant (D.child name)) := by
  rw [walk, h.here, h.short, if_neg (by simp), if_neg (by simpa using h.up), if_neg (by simp)]
  cases hnode : d.node? (D.child name) with
  | none => simp [hnode]
  | some node => cases node <;> simp [hnode, walk]

/-- **The path of a directory leads to a location**, where it is a directory. -/
def LeadsTo (d : Disk) (directory : String) (D : Location) : Prop :=
  d.walk (Location.origin directory) (Path.inner directory) = .ok (.directory D)

theorem LeadsTo.unique {directory : String} {D' : Location} (h : d.LeadsTo directory D)
    (h' : d.LeadsTo directory D') : D = D' :=
  Place.directory.inj (Except.ok.inj (h.symm.trans h'))

def Usable (path : String) : Prop := path ≠ "" ∧ Path.isUsable path = true

theorem usable_of_locate {path : String} {place : Place} (h : d.locate path = .ok place) :
    Usable path := by
  unfold locate at h
  split_ifs at h with hempty husable
  exact ⟨by simpa using hempty, by simpa using husable⟩

theorem locate_of_usable {path : String} (h : Usable path) :
    d.locate path = d.walk (Location.origin path) (Path.parts path) := by
  rw [locate, if_neg (by simpa using h.1), if_neg (by simp [h.2])]

/-- **A plain name in a directory** is found where the path of the directory leads. -/
theorem locate_join {directory : String} (hn : Path.Plain name)
    (hu : Usable (Path.join directory name)) (hd : d.LeadsTo directory D) :
    d.locate (Path.join directory name) = d.walk D [name] := by
  rw [locate_of_usable hu, Path.parts_join hn, Path.origin_join hn, walk_append hd]

theorem exists_leadsTo {directory : String} {place : Place} (hn : Path.Plain name)
    (h : d.locate (Path.join directory name) = .ok place) : ∃ D, d.LeadsTo directory D := by
  rw [locate_of_usable (usable_of_locate h), Path.parts_join hn, Path.origin_join hn] at h
  exact exists_of_walk_append h

/-! ## 4. What changes with a file -/

/-- **A file of a directory has some bytes now.**  Directories are directories still, and other
names lead to what they led to. -/
structure Writes (d : Disk) (D : Location) (name : String) (content : Tape) (d' : Disk) :
    Prop where
  file : d'.node? (D.child name) = some (.file content)
  directories : ∀ l entries, d.node? l = some (.directory entries) →
    ∃ entries', d'.node? l = some (.directory entries')
  others : ∀ other, other ≠ name → other ≠ ".." →
    d'.node? (D.child other) = d.node? (D.child other)

theorem Writes.held {content : Tape} (h : d.Writes D name content d') (writers : List Location) :
    d.Writes D name content { d' with writers := writers } := ⟨h.file, h.directories, h.others⟩

theorem node?_child (h : name ≠ "..") (d : Disk) (D : Location) :
    d.node? (D.child name) = (d.tree D).find? (D.names ++ [name]) := by
  have horigin : (D.child name).isOrigin = false := by
    simp [Location.isOrigin, Location.child, h]
  rw [node?, horigin, if_neg Bool.false_ne_true]
  rfl

theorem tree_setNode (d : Disk) (l l' : Location) (n : Node) :
    (d.setNode l n).tree l' =
      if l'.fromRoot = l.fromRoot then (d.tree l').put n l.names else d.tree l' := by
  cases hl : l.fromRoot <;> cases hl' : l'.fromRoot <;> simp [setNode, tree, hl, hl']

/-- **A file is set** where there is none, or another one. -/
theorem writes_setNode (hn : name ≠ "..")
    (hfree : ∀ entries, d.node? (D.child name) ≠ some (.directory entries)) (content : Tape) :
    d.Writes D name content (d.setNode (D.child name) (.file content)) where
  file := d.node?_setNode_self _ _
  directories l entries he := by
    rw [node?, tree_setNode]
    by_cases hroot : l.fromRoot = (D.child name).fromRoot
    · have htree : d.tree l = d.tree D := by rw [tree, tree, hroot]; rfl
      -- what leads through the file leads to no directory now, nor to where paths begin
      have hapart : ¬ D.names ++ [name] <+: l.names := by
        rintro ⟨rest, hrest⟩
        have horigin : l.isOrigin = false := by simp [Location.isOrigin, ← hrest, hn]
        rw [node?, horigin, if_neg Bool.false_ne_true, ← hrest, htree, Node.find?_append] at he
        obtain ⟨m, hm, hdirectory⟩ := Option.bind_eq_some_iff.1 he
        obtain ⟨es, rfl⟩ := Node.eq_directory_of_find? hdirectory
        exact hfree es ((node?_child hn d D).trans hm)
      rw [if_pos hroot]
      rw [node?] at he
      rcases Node.find?_put_of_not_prefix (d.tree l) (.file content) hapart with hsame | ⟨es, hes⟩
      · refine ⟨entries, ?_⟩
        rw [← he]
        simp only [Location.child, hsame]
      · refine ⟨es, ?_⟩
        simp only [Location.child, hes]
        split <;> rfl
    · rw [if_neg hroot]
      exact ⟨entries, he⟩
  others other hne hup := by
    have hlength : (D.names ++ [name]).length = (D.names ++ [other]).length := by simp
    rw [node?_child hup, node?_child hup, tree_setNode, if_pos (by rfl)]
    refine Node.find?_put_of_apart _ _ (fun hp => hne ?_) fun hp => hne ?_
    · have heq : D.names ++ [name] = D.names ++ [other] := hp.eq_of_length hlength
      simpa using heq.symm
    · have heq : D.names ++ [other] = D.names ++ [name] := hp.eq_of_length hlength.symm
      simpa using heq

theorem Writes.next? {content : Tape} (h : d.Writes D name content d') {l l' : Location}
    {part : String} (hn : d.next? l part = some l') : d'.next? l part = some l' := by
  unfold Disk.next? at hn ⊢
  split_ifs at hn ⊢
  · exact hn
  · exact hn
  · split at hn
    · rename_i entries hnode
      obtain ⟨entries', hnode'⟩ := h.directories _ _ hnode
      rwa [hnode']
    · cases hn

/-- **The path of the directory leads there still.** -/
theorem Writes.leadsTo {content : Tape} (h : d.Writes D name content d') {directory : String}
    (hd : d.LeadsTo directory D) : d'.LeadsTo directory D := by
  unfold LeadsTo at hd ⊢
  generalize Location.origin directory = l at hd ⊢
  generalize Path.inner directory = front at hd ⊢
  induction front generalizing l with
  | nil => exact hd
  | cons part rest ih =>
    rcases d.walk_cons l part rest with ⟨l', hnext, hwalk⟩ | ⟨-, hlast⟩
    · rcases d'.walk_cons l part rest with ⟨l'', hnext', hwalk'⟩ | ⟨hnone, -⟩
      · obtain rfl := Option.some.inj ((h.next? hnext).symm.trans hnext')
        exact hwalk'.trans (ih _ (hwalk ▸ hd))
      · cases (h.next? hnext).symm.trans hnone
    · exact absurd rfl ((hlast _ hd).2 D)

/-! ## 5. Chunk files -/

/-- **A file of a directory has some bytes**, and the path to it can be followed. -/
structure Holds (d : Disk) (directory : String) (D : Location) (name : String) (content : Tape) :
    Prop where
  plain : Path.Plain name
  usable : Usable (Path.join directory name)
  leads : d.LeadsTo directory D
  file : d.node? (D.child name) = some (.file content)

namespace Holds

variable {directory : String} {content content' : Tape}

/-- **Whoever reads the path finds the bytes.** -/
theorem read_eq (h : d.Holds directory D name content) :
    Fallible.runOn (Disk.read (Path.join directory name)) d = (.ok content, d) := by
  have hlocate : d.locate (Path.join directory name) = .ok (.file (D.child name) content) := by
    rw [locate_join h.plain h.usable h.leads, walk_plain h.plain, h.file]
  simp [Disk.read, Disk.find, hlocate]

theorem rewritten (h : d.Holds directory D name content) (hw : d.Writes D name content' d') :
    d'.Holds directory D name content' := ⟨h.plain, h.usable, hw.leadsTo h.leads, hw.file⟩

/-- **Another file of the directory** has its bytes still. -/
theorem kept (h : d.Holds directory D name content) (hw : d.Writes D other content' d')
    (hne : name ≠ other) : d'.Holds directory D name content :=
  ⟨h.plain, h.usable, hw.leadsTo h.leads, (hw.others name hne h.plain.up).trans h.file⟩

end Holds

end Disk

open Disk

namespace ChunkFile

/-- The file of a chunk to which nothing was appended yet. -/
def fresh (directory : String) (D : Location) (name : String) : ChunkFile :=
  { path := Path.join directory name, location := D.child name }

/-- **A new chunk file**: an empty file of its directory. -/
structure Begins (d : Disk) (directory name : String) (f : ChunkFile) (d' : Disk) (D : Location) :
    Prop where
  fresh : f = .fresh directory D name
  leads : d.LeadsTo directory D
  writes : d.Writes D name .empty d'
  holds : d'.Holds directory D name .empty

variable {name directory : String} {D : Location} {d : Disk}

theorem answers_hold (hn : Path.Plain name) (hu : Usable (Path.join directory name))
    (hD : d.LeadsTo directory D)
    (hfree : ∀ entries, d.node? (D.child name) ≠ some (.directory entries)) :
    Answers (create.hold (Path.join directory name) (D.child name)) d fun f d' =>
      ∃ D, Begins d directory name f d' D := by
  have hw := (writes_setNode hn.up hfree .empty).held (D.child name :: d.writers)
  refine Answers.after (Fallible.runOn_modify _ d) (Answers.pure ?_)
  exact ⟨D, rfl, hD, hw, hn, hu, hw.leadsTo hD, hw.file⟩

/-- **A new chunk file is an empty file of its directory**, if it can be had. -/
theorem answers_create (hn : Path.Plain name) (directory : String) (d : Disk) :
    Answers (create (Path.join directory name)) d fun f d' =>
      ∃ D, Begins d directory name f d' D := by
  have hfail : ∀ flaw, Answers
      (Disk.failAt (Path.join directory name) flaw : DiskAction ChunkFile) d fun f d' =>
        ∃ D, Begins d directory name f d' D := fun flaw => Answers.throw _
  unfold create
  cases hlocate : d.locate (Path.join directory name) with
  | error flaw =>
    have hfind : Fallible.runOn (Disk.find (Path.join directory name)).attempt d =
        (.ok (.error (.inFile (Path.join directory name) (.file flaw))), d) := by
      simp [Disk.find, hlocate, Disk.failAt]
    exact Answers.after hfind (hfail _)
  | ok place =>
    have hu := usable_of_locate hlocate
    obtain ⟨D, hD⟩ := exists_leadsTo hn hlocate
    have hfind : Fallible.runOn (Disk.find (Path.join directory name)).attempt d =
        (.ok (.ok place), d) := by simp [Disk.find, hlocate]
    refine Answers.after hfind ?_
    rw [locate_join hn hu hD, walk_plain hn] at hlocate
    cases hnode : d.node? (D.child name) with
    | none =>
      obtain rfl : .vacant (D.child name) = place := by simpa [hnode] using hlocate
      exact answers_hold hn hu hD (by simp [hnode])
    | some node =>
      cases node with
      | directory entries =>
        obtain rfl : .directory (D.child name) = place := by simpa [hnode] using hlocate
        exact hfail _
      | device =>
        obtain rfl : .device (D.child name) = place := by simpa [hnode] using hlocate
        exact Answers.after (Fallible.runOn_get d) (hfail _)
      | file content =>
        obtain rfl : .file (D.child name) content = place := by simpa [hnode] using hlocate
        refine Answers.after (Fallible.runOn_get d) ?_
        split
        · exact hfail _
        · exact answers_hold hn hu hD (by simp [hnode])

/-- **Bytes are put into a file that has none.** -/
theorem ends_put (h : d.Holds directory D name .empty) {f : ChunkFile}
    (hl : f.location = D.child name) (ho : f.offset = 0) (content : Tape) :
    Ends (f.put content) d fun answer d' => d.Writes D name content d' ∧
      answer = .ok { f with offset := content.length } := by
  have hnone : d.content f.location = .empty := by rw [Disk.content, hl, h.file]; rfl
  unfold put
  split
  · rename_i hlength
    have hempty : content = .empty := by
      apply Tape.eq_of_bytes_eq
      rwa [Tape.bytes_empty, ← List.length_eq_zero_iff, Tape.length_bytes]
    refine Ends.of_run (Fallible.runOn_pure _ _) ⟨?_, ?_⟩
    · rw [hempty]
      exact ⟨h.file, fun l entries he => ⟨entries, he⟩, fun _ _ _ => rfl⟩
    · rw [hlength, ← ho]
  · have hsplice : Tape.empty.splice 0 content = content := by
      apply Tape.eq_of_bytes_eq
      simp [Bytes.splice]
    refine Ends.after (Fallible.runOn_modify _ d) (Ends.of_run (Fallible.runOn_pure _ _) ⟨?_, ?_⟩)
    · rw [hnone, ho, hl, hsplice]
      exact writes_setNode h.plain.up (by simp [h.file]) content
    · rw [ho, Nat.zero_add]

/-- **A file to which nothing was appended takes some bytes**, which wait or reach it at once. -/
theorem ends_append_fresh (h : d.Holds directory D name .empty) (content : Tape) :
    Ends ((fresh directory D name).append content) d fun answer d' => ∃ f, answer = .ok f ∧
      f.location = D.child name ∧
      ((f.waiting = content ∧ f.offset = 0 ∧ d' = d) ∨
        (f.waiting = .empty ∧ d.Writes D name content d')) := by
  let counted : ChunkFile := { fresh directory D name with committed := 0 + content.length }
  have hrest : Ends (if content.length < blockLength then
        pure { counted with waiting := counted.waiting.join content }
      else counted.put content) d fun answer d' => ∃ f, answer = .ok f ∧
        f.location = D.child name ∧
        ((f.waiting = content ∧ f.offset = 0 ∧ d' = d) ∨
          (f.waiting = .empty ∧ d.Writes D name content d')) := by
    split
    · have hjoin : Tape.empty.join content = content := Tape.eq_of_bytes_eq (by simp)
      exact Ends.of_run (Fallible.runOn_pure _ _) ⟨_, rfl, rfl, .inl ⟨hjoin, rfl, rfl⟩⟩
    · refine (ends_put (f := counted) h rfl rfl content).mono ?_
      rintro answer d' ⟨hw, rfl⟩
      exact ⟨_, rfl, rfl, .inr ⟨rfl, hw⟩⟩
  -- nothing waits yet, so it does not matter whether that is sent on first
  unfold append
  dsimp only
  split
  · exact Ends.after (a := fresh directory D name) rfl hrest
  · exact Ends.after (a := fresh directory D name) rfl hrest

end ChunkFile

/-- **What a sink took goes to the file of its chunk.** -/
theorem RecordingSession.ends_finishFile {name directory : String} {D : Location} {d : Disk}
    (h : d.Holds directory D name .empty) (content : Tape) :
    Ends (RecordingSession.finishFile (.fresh directory D name) content) d fun answer d' =>
      answer = .ok () ∧ d.Writes D name content d' := by
  refine (ChunkFile.ends_append_fresh h content).bind ?_ fun fault d₁ ⟨_, heq, _⟩ => by cases heq
  rintro _ d₁ ⟨f, heq, hl, hcases⟩
  obtain rfl := Except.ok.inj heq
  unfold ChunkFile.close ChunkFile.flush
  rw [bind_assoc]
  rcases hcases with ⟨hwaiting, ho, rfl⟩ | ⟨hwaiting, hw⟩
  · rw [hwaiting]
    refine (ChunkFile.ends_put h hl ho content).bind ?_ fun fault d₂ ⟨_, heq⟩ => by cases heq
    rintro f' d₂ ⟨hw, -⟩
    exact Ends.of_run (Fallible.runOn_modify _ _) ⟨rfl, hw.held _⟩
  · rw [hwaiting]
    exact Ends.of_run (Fallible.runOn_modify _ _) ⟨rfl, hw.held _⟩

end TraceRecorder
