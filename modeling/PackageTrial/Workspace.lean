import PackageTrial.Path

/-!
# Workspaces

A workspace is a tree of directories and files together with the directory in which one works. A
path is followed piece by piece (`Workspace.follow`): every piece but the last has to lead to a
directory, `.` stays and `..` goes up. Reading never changes a workspace; `put` changes one place
and no other (`at?_put`).

Only directories and regular files are in the tree, and each of them has one name. Left out are
symbolic and hard links, through which a file is read and written under several names, special
files, and all permissions but that to execute a file.
-/

namespace PackageTrial

/-- Why the file system refuses. -/
inductive Fault
  /-- There is nothing at the place. -/
  | missing
  | denied
  /-- There is something at the place already. -/
  | occupied
  | notDirectory
  | isDirectory
  | nameTooLong
  /-- The path holds a NUL byte. -/
  | nulInPath
  deriving DecidableEq

/-- The message for people. -/
def Fault.message : Fault → String
  | .missing => "No such file or directory (os error 2)"
  | .denied => "Permission denied (os error 13)"
  | .occupied => "File exists (os error 17)"
  | .notDirectory => "Not a directory (os error 20)"
  | .isDirectory => "Is a directory (os error 21)"
  | .nameTooLong => "File name too long (os error 36)"
  | .nulInPath => "file name contained an unexpected NUL byte"

/-- A place in the tree: the names from it up to the root. -/
abbrev Location := List RawText

/-- Contents are compared byte by byte. -/
instance decidableEqBytes : DecidableEq ByteArray := ByteArray.instDecidableEq

/-- What is at a place. -/
inductive Entry
  | directory
  | file (content : ByteArray) (executable : Bool)
  deriving DecidableEq

instance : Inhabited Entry := ⟨.directory⟩

/-- A tree of directories and regular files, and the directory in which one works. -/
structure Workspace where
  /-- What is where; of two entries for one place the first counts. -/
  entries : List (Location × Entry)
  workingDir : Location
  deriving Inhabited

namespace Workspace

/-! ## Places -/

/-- The longest name of a file. -/
def maxNameLength : Nat := 255

/-- Paths are shorter than this. -/
def pathBound : Nat := 4096

/-- What is at a place. The root is always a directory. -/
def at? (w : Workspace) (place : Location) : Option Entry :=
  if place = [] then some .directory
  else (w.entries.find? (·.1 = place)).map (·.2)

/-- Puts an entry at a place. -/
def put (w : Workspace) (place : Location) (entry : Entry) : Workspace :=
  { w with entries := (place, entry) :: w.entries }

theorem at?_put (w : Workspace) {place : Location} (h : place ≠ []) (entry : Entry)
    (q : Location) :
    (w.put place entry).at? q = if q = place then some entry else w.at? q := by
  by_cases hq : q = place
  · subst hq
    simp [at?, put, h]
  · have : place ≠ q := fun e => hq e.symm
    by_cases hr : q = []
    · simp [at?, hr, Ne.symm h]
    · simp [at?, put, hq, hr, this]

/-- The place to which the pieces of a path lead from another place. -/
def follow (w : Workspace) : Location → List RawText → Except Fault Location
  | place, [] => .ok place
  | place, piece :: rest =>
    match w.at? place with
    | none => .error .missing
    | some (.file _ _) => .error .notDirectory
    | some .directory =>
      match Path.step? piece with
      | none => w.follow place rest
      | some (.name name) =>
        if maxNameLength < name.length then .error .nameTooLong else w.follow (name :: place) rest
      | some _ => w.follow place.tail rest

/-- The place at which a path starts. -/
def start (w : Workspace) (path : Path) : Location :=
  if path.isAbsolute then [] else w.workingDir

/-- Accepts the text of a path. -/
def checkPath (path : Path) : Except Fault Unit :=
  if path.raw.hasNul then .error .nulInPath
  else if path.raw = [] then .error .missing
  else if pathBound ≤ path.raw.length then .error .nameTooLong
  else .ok ()

/-- The place that a path names, whether or not there is something. -/
def locate (w : Workspace) (path : Path) : Except Fault Location := do
  checkPath path
  w.follow (w.start path) (Text.pieces Path.separator path.raw)

/-! ## Looking -/

/-- What a path leads to. -/
def find (w : Workspace) (path : Path) : Except Fault Entry := do
  match w.at? (← w.locate path) with
  | some entry => return entry
  | none => throw .missing

/-- The path leads somewhere. -/
def has (w : Workspace) (path : Path) : Bool :=
  match w.find path with
  | .ok _ => true
  | .error _ => false

/-- The path leads to a file. -/
def isFile (w : Workspace) (path : Path) : Bool :=
  match w.find path with
  | .ok (.file _ _) => true
  | _ => false

/-- The content of the file to which a path leads. -/
def read (w : Workspace) (path : Path) : Except Fault ByteArray := do
  match ← w.find path with
  | .file content _ => return content
  | .directory => throw .isDirectory

/-- The names in a directory, each once and in byte order. -/
def names (w : Workspace) (place : Location) : List RawText :=
  let children := w.entries.filterMap fun e =>
    match e.1 with
    | name :: above => if above = place then some name else none
    | [] => none
  (children.mergeSort fun a b => !RawText.before b a).eraseDups

/-- The absolute path of a place. -/
def pathOf (place : Location) : Path :=
  place.reverse.foldl (fun path name => path.join ⟨name⟩) ⟨[Path.separator]⟩

/-- The absolute path of the directory in which one works. -/
def workingPath (w : Workspace) : Path := pathOf w.workingDir

/-! ## Changing -/

/-- Makes the directories that the pieces of a path lead through, where they are missing. What was
made before a refusal stays. -/
def makeDirsFrom (w : Workspace) (place : Location) : List RawText → Except Fault Unit × Workspace
  | [] =>
    match w.at? place with
    | some (.file _ _) => (.error .occupied, w)
    | _ => (.ok (), w)
  | piece :: rest =>
    match Path.step? piece with
    | none => w.makeDirsFrom place rest
    | some step =>
      match w.at? place with
      | some (.file _ _) => (.error .notDirectory, w)
      | _ =>
        match step with
        | .name name =>
          if maxNameLength < name.length then (.error .nameTooLong, w)
          else
            let next := name :: place
            let made := if (w.at? next).isSome then w else w.put next .directory
            made.makeDirsFrom next rest
        | _ => w.makeDirsFrom place.tail rest

/-- Makes a directory and those above it, where they are missing. -/
def makeDirs (path : Path) : ExceptT Fault (StateM Workspace) Unit := fun w =>
  match checkPath path with
  | .error .missing => (.ok (), w)
  | .error fault => (.error fault, w)
  | .ok () => w.makeDirsFrom (w.start path) (Text.pieces Path.separator path.raw)

/-- Writes a file, in place of an earlier content. A file that was there stays as executable as it
was. -/
def write (path : Path) (content : ByteArray) (executable : Bool) :
    ExceptT Fault (StateM Workspace) Unit := do
  let w ← get
  let place ← (w.locate path : ExceptT Fault (StateM Workspace) Location)
  match w.at? place with
  | some .directory => throw .isDirectory
  | some (.file _ executable) => set (w.put place (.file content executable))
  | none => set (w.put place (.file content executable))

/-- Writes a file of text. -/
def writeText (path : Path) (text : String) : ExceptT Fault (StateM Workspace) Unit :=
  write path text.toUTF8 false

/-- Puts a file at a path and makes the directories above it; a path that ends in a separator is a
directory. -/
def plant (path : Path) (content : ByteArray) (executable : Bool) :
    ExceptT Fault (StateM Workspace) Unit := do
  if path.raw.getLast? = some Path.separator then makeDirs path
  else
    makeDirs (path.parent.getD Path.blank)
    write path content executable

/-- The workspace with more files, as far as there is place for them. -/
def planted (w : Workspace) (files : List (Path × ByteArray)) : Workspace :=
  files.foldl (fun w f => ((plant f.1 f.2 false).run.run w).2) w

end Workspace

end PackageTrial
