import PackageTrial.CommandLine.Session

/-!
# The program

The command line on a real directory. The directory is read as it is when the program starts, the
session runs on that picture of it, and what the session has written is written in the end. No
program can be started from the picture, so a trial gets as far as configuring.
-/

namespace PackageTrial

/-- The variables that a session may look at. -/
def sessionVariables : List String :=
  ["PATH", "LD_LIBRARY_PATH", "DYLD_LIBRARY_PATH", Configuration.fileVariable,
   CommandLine.languageVariable, CommandLine.referenceVariable]

/-- The environment of the program, as far as a session may look at it. -/
def sessionEnvironment : IO Snapshot := do
  let pairs ← sessionVariables.filterMapM fun name => do
    return (← IO.getEnv name).map fun value => (RawText.ofString name, RawText.ofString value)
  return .ofPairs pairs

/-- What is in a directory. Files that are larger than any that a session reads are cut short. -/
partial def readEntries (place : Location) (dir : IO.FS.DirEntry) :
    IO (List (Location × Entry)) := do
  let here := RawText.ofString dir.fileName :: place
  if ← dir.path.isDir then
    let below ← (← dir.path.readDir).toList.mapM (readEntries here)
    return (here, .directory) :: below.flatten
  let metadata ← dir.path.metadata
  if metadata.type == .file then
    let file ← IO.FS.Handle.mk dir.path .read
    let content ← file.read (Configuration.maxFileSize + 1).toUSize
    return [(here, .file content false)]
  return []

/-- The names that lead from the root to a directory. -/
def locationOf (dir : String) : Location :=
  ((Path.ofString dir).components.filterMap fun c =>
    match c with
    | .name bytes => some bytes
    | _ => none).reverse

/-- The working directory. -/
def readWorkspace : IO Workspace := do
  let dir ← IO.currentDir
  let place := locationOf dir.toString
  let below ← (← dir.readDir).toList.mapM (readEntries place)
  let above := (List.range place.length).map fun n => (place.drop n, Entry.directory)
  return ⟨below.flatten ++ above, place⟩

/-- Writes what a session has added to a workspace, the oldest first. -/
def writeChanges (before after : Workspace) : IO Unit := do
  let added := after.entries.take (after.entries.length - before.entries.length)
  for (place, entry) in added.reverse do
    let path := (Workspace.pathOf place).display
    match entry with
    | .directory => IO.FS.createDirAll path
    | .file content _ => IO.FS.writeBinFile path content

end PackageTrial

open PackageTrial in
/-- Runs a session with the program's arguments. -/
def main (args : List String) : IO UInt32 := do
  let workspace ← readWorkspace
  let machine : Machine := ⟨workspace, ← sessionEnvironment, [], [], [], []⟩
  let (reply, machine) := (CommandLine.run (args.map RawText.ofString)).run machine
  writeChanges workspace machine.workspace
  IO.print reply.stdout
  IO.eprint reply.stderr
  return reply.exit.toUInt32
