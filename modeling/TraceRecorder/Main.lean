/-
# The program

The program takes a picture of what its request looks at on the real disk, carries the request out
on the picture, and puts what has changed back.  All decisions are made on the picture.
-/
import Std.Time.DateTime.Timestamp
import TraceRecorder.CommandLine.Outcome

namespace TraceRecorder

namespace Disk

/-- The disk with something at a path, where there was nothing. -/
def place (d : Disk) (path : String) (n : Node) : Disk :=
  match d.locate path with
  | .ok (.vacant l) => d.setNode l n
  | _ => d

/-- The paths on the way to a path, and that path itself. -/
def leading (path : String) : List String :=
  let parts := Path.parts path
  (List.range parts.length).map fun n => "/".intercalate (parts.take (n + 1))

/-- Who holds the file at a path. -/
def observeHolders (d : Disk) (path : String) : IO Disk := do
  match d.locate path with
  | .ok (.file l _) =>
    let file ← IO.FS.Handle.mk path .read
    if ← file.tryLock false then
      file.unlock
      if ← file.tryLock true then
        file.unlock
        pure d
      else pure { d with readers := l :: d.readers }
    else pure { d with writers := l :: d.writers }
  | _ => pure d

/-- The picture with what is at a path.  What cannot be read is as good as a directory. -/
def observe (d : Disk) (path : String) : IO Disk := do
  if path == "" then pure d
  else
    try
      let content ← IO.FS.readBinFile path
      observeHolders (d.place path (.file ⟨content⟩)) path
    catch
      | .noFileOrDirectory .. => pure d
      | _ => pure (d.place path .empty)

/-- **What a node has and an older one at the same location has not is made on the real disk.** -/
partial def realizeNode (l : Location) (old : Option Node) (new : Node) : IO Unit := do
  match old, new with
  | some (.file before), .file content =>
    if before != content then IO.FS.writeBinFile l.path content.packed
  | _, .file content => IO.FS.writeBinFile l.path content.packed
  | _, .device => pure ()
  | old, .directory entries =>
    if old.isNone then IO.FS.createDirAll l.path
    for (name, n) in entries do
      realizeNode (l.child name) (old.bind fun o => Dict.find? o.entries name) n

/-- What a picture has and an older one has not is made on the real disk. -/
def realize (old new : Disk) : IO Unit := do
  realizeNode ⟨true, []⟩ (some old.root) new.root
  realizeNode ⟨false, []⟩ (some old.working) new.working

end Disk

namespace CommandLine

/-- The files that a request looks at. -/
def Request.files : Request → List String
  | record plan =>
    plan.config.toList ++ (List.range plan.chunks).map fun n => plan.chunkPath (n + 1)
  | inspect path _ => [path]
  | _ => []

/-- The exit code of a program that should have been killed. -/
def killedCode : Nat := 134

/-- The program.  The result is its exit code. -/
def execute (words : List String) : IO UInt32 := do
  let started ← IO.monoMsNow
  let now ← Std.Time.Timestamp.now
  let files := ((Request.read words).toOption.map Request.files).getD []
  let old ← (files.flatMap Disk.leading).foldlM Disk.observe ({} : Disk)
  -- What the real machine lacks it finds out by itself.
  let nanoseconds := UInt64.ofNat now.toNanosecondsSinceUnixEpoch.val.toNat
  let (answer, new) := run words .unbounded nanoseconds old
  Disk.realize old new
  let outcome := answer.outcome ((← IO.monoMsNow) - started)
  IO.print outcome.stdout
  IO.eprint outcome.stderr
  pure (UInt32.ofNat (outcome.code.getD killedCode))

end CommandLine

end TraceRecorder

def main (words : List String) : IO UInt32 := TraceRecorder.CommandLine.execute words
