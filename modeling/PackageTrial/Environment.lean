import PackageTrial.Dictionary
import PackageTrial.Path

/-!
# Environment overlays

An overlay is a list of edits to environment variables: set, unset, and put a directory at the
front or the back of a path list. It is resolved against a snapshot of the environment and changes
only what a child process sees. The edits apply in order; a directory that is already in the list,
as a place and not only as a text, is not put there again.
-/

namespace PackageTrial

/-! ## Snapshots -/

/-- An environment: bindings and removals of variables, the latest first. -/
structure Snapshot where
  bindings : List (RawText × Option RawText)
  deriving DecidableEq, Inhabited

namespace Snapshot

/-- No variable is set. -/
def empty : Snapshot := ⟨[]⟩

/-- The variable bound to a value, or removed. -/
def update (s : Snapshot) (key : RawText) (value : Option RawText) : Snapshot :=
  ⟨(key, value) :: s.bindings⟩

/-- The snapshot of a list of variables; of two with one name the later one counts. -/
def ofPairs (pairs : List (RawText × RawText)) : Snapshot :=
  pairs.foldl (fun s p => s.update p.1 (some p.2)) empty

/-- The value of the variable of a raw name. -/
def find? (s : Snapshot) (key : RawText) : Option RawText :=
  ((s.bindings.find? (·.1 = key)).map (·.2)).join

/-- The value of a variable. -/
def get? (s : Snapshot) (key : String) : Option RawText :=
  s.find? (RawText.ofString key)

/-- The value of a variable, when it is a text. -/
def text? (s : Snapshot) (key : String) : Option String :=
  (s.get? key).bind RawText.text?

/-- The equals sign. -/
def equalsSign : UInt8 := 0x3D

/-- The variables that are set, in the byte order of their names. -/
def bound (s : Snapshot) : List (RawText × RawText) :=
  let latest := s.bindings.eraseDupsBy fun a b => a.1 == b.1
  (latest.filterMap fun (name, value) => value.map (name, ·)).mergeSort
    fun a b => !RawText.before b.1 a.1

/-- The environment as a child process finds it. A variable is handed over as one text, in which
the first equals sign ends the name. -/
def received (s : Snapshot) : Snapshot :=
  ofPairs (s.bound.filterMap fun (name, value) =>
    Text.cutFirst equalsSign (name ++ equalsSign :: value))

end Snapshot

/-! ## Edits -/

/-- An edit of one variable. -/
inductive Edit
  | set (key value : String)
  | unset (key : String)
  /-- Puts a directory in front of a path list. -/
  | prepend (key : String) (path : Path)
  /-- Puts a directory at the end of a path list. -/
  | append (key : String) (path : Path)
  deriving DecidableEq

/-- The variable that the edit is about. -/
def Edit.key : Edit → String
  | .set key _ | .unset key | .prepend key _ | .append key _ => key

/-- What becomes of an edited variable. -/
inductive Binding
  | set (value : RawText)
  | removed
  deriving DecidableEq

/-- The value of the variable afterwards, if it has one. -/
def Binding.value? : Binding → Option RawText
  | .set value => some value
  | .removed => none

/-- The environment in which every listed variable is set or removed. -/
def Snapshot.amend (s : Snapshot) (changes : Dictionary Binding) : Snapshot :=
  changes.entries.foldl (fun s e => s.update (RawText.ofString e.1) e.2.value?) s

/-! ## Path lists -/

namespace PathList

/-- The separator `:` of path lists. -/
def separator : UInt8 := 0x3A

/-- The directories that a value lists; empty entries count for nothing. -/
def entries (value : RawText) : List RawText :=
  (Text.pieces separator value).filter (· ≠ [])

/-- The list contains the place. -/
def contains (list : List RawText) (path : Path) : Bool :=
  list.any fun entry => (Path.mk entry).samePlace path

/-- The value that lists the entries. An entry that holds the separator cannot be listed and is left
out. -/
def value (list : List RawText) : RawText :=
  Text.rejoin separator (list.filter fun entry => !entry.contains separator)

end PathList

/-! ## Overlays -/

/-- Edits in the order in which they apply. -/
structure Overlay where
  edits : List Edit
  deriving DecidableEq, Inhabited

namespace Overlay

/-- The overlay without edits. -/
def empty : Overlay := ⟨[]⟩

/-- One more edit. -/
def push (o : Overlay) (edit : Edit) : Overlay := ⟨o.edits ++ [edit]⟩

/-- The edits of one overlay, then those of another. -/
def extend (o other : Overlay) : Overlay := ⟨o.edits ++ other.edits⟩

/-- There is nothing to edit. -/
def isEmpty (o : Overlay) : Bool := o.edits.isEmpty

/-- The value of a variable before an edit: what earlier edits made of it, else the snapshot's. -/
def current (done : Dictionary Binding) (base : Snapshot) (key : String) : Option RawText :=
  match done.get? key with
  | some binding => binding.value?
  | none => base.get? key

/-- The entries of a path list before an edit. -/
def currentEntries (done : Dictionary Binding) (base : Snapshot) (key : String) : List RawText :=
  ((current done base key).map PathList.entries).getD []

/-- What an edit makes of its variable. -/
def outcome (done : Dictionary Binding) (base : Snapshot) : Edit → Binding
  | .set _ value => .set (RawText.ofString value)
  | .unset _ => .removed
  | .prepend key path =>
    let list := currentEntries done base key
    .set (PathList.value (if PathList.contains list path then list else path.raw :: list))
  | .append key path =>
    let list := currentEntries done base key
    .set (PathList.value (if PathList.contains list path then list else list ++ [path.raw]))

/-- Applies one edit to what the earlier ones made. -/
def step (base : Snapshot) (done : Dictionary Binding) (edit : Edit) : Dictionary Binding :=
  done.insert edit.key (outcome done base edit)

/-- What becomes of every edited variable; others do not appear. -/
def resolve (o : Overlay) (base : Snapshot) : Dictionary Binding :=
  o.edits.foldl (step base) Dictionary.empty

/-- The environment with every edited variable set or removed. -/
def applied (o : Overlay) (base : Snapshot) : Snapshot :=
  base.amend (o.resolve base)

/-- One line for each edited variable: its value, or that it is unset. -/
def render (o : Overlay) (base : Snapshot) : String :=
  String.join ((o.resolve base).entries.map fun e =>
    match e.2 with
    | .set value => e.1 ++ "=" ++ value.display ++ "\n"
    | .removed => "# unset " ++ e.1 ++ "\n")

end Overlay

end PackageTrial
