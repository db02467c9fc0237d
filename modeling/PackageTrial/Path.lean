import PackageTrial.Text.Cut
import PackageTrial.Text.Raw

/-!
# Paths

A path is raw text whose parts are separated by `/`. What a path names is told by its components:
repeated separators and `.` disappear, except a `.` at the very front. Two paths are the same place
when their components agree (`Path.samePlace`), while the text stays as it was written. Extending
(`Path.join`) replaces the path when the extension is absolute.
-/

namespace PackageTrial

/-- A path as it is written. -/
structure Path where
  raw : RawText
  deriving DecidableEq, Inhabited

namespace Path

/-- The separator `/`. -/
def separator : UInt8 := 0x2F

/-- The byte of `.`. -/
def dot : UInt8 := 0x2E

/-- The path written as a text. -/
def ofString (s : String) : Path := ⟨RawText.ofString s⟩

/-- The path as text for people. -/
def display (p : Path) : String := p.raw.display

/-- The path written as a text, when it is one. -/
def text? (p : Path) : Option String := p.raw.text?

/-- The path of no text at all. -/
def blank : Path := ⟨[]⟩

/-- A path that starts at the root. -/
def isAbsolute (p : Path) : Bool :=
  p.raw.head? == some separator

/-- One step of a path. -/
inductive Component
  /-- The root. -/
  | root
  /-- `.` at the front. -/
  | here
  /-- `..`. -/
  | up
  /-- Any other name. -/
  | name (bytes : RawText)
  deriving DecidableEq

/-- The text of a component. -/
def Component.raw : Component → RawText
  | .root => [separator]
  | .here => [dot]
  | .up => [dot, dot]
  | .name bytes => bytes

/-- The step that a piece between separators stands for; empty pieces and `.` stand for none. -/
def step? (piece : RawText) : Option Component :=
  if piece = [] ∨ piece = [dot] then none
  else if piece = [dot, dot] then some .up
  else some (.name piece)

/-- The components of a path. -/
def components (p : Path) : List Component :=
  let steps := Text.pieces separator p.raw
  let front := match steps with
    | first :: _ => if p.isAbsolute then [.root] else if first = [dot] then [.here] else []
    | [] => []
  front ++ steps.filterMap step?

/-- The two paths lead through the same components. -/
def samePlace (p q : Path) : Bool :=
  decide (p.components = q.components)

/-- The path extended by another: an absolute extension stands alone, any other is appended, with a
separator in between unless the path is blank or ends in one. -/
def join (base extension : Path) : Path :=
  if extension.isAbsolute then extension
  else if base.raw = [] ∨ base.raw.getLast? = some separator then ⟨base.raw ++ extension.raw⟩
  else ⟨base.raw ++ separator :: extension.raw⟩

/-- The path extended by a text. -/
def child (base : Path) (name : String) : Path :=
  base.join (ofString name)

/-- Drops the trailing pieces that stand for no step. -/
def tidyEnd (pieces : List RawText) : List RawText :=
  (pieces.reverse.dropWhile fun p => (step? p).isNone).reverse

/-- The path without its last component and without what separated it; none for the root and for a
path without components. -/
def parent (p : Path) : Option Path :=
  match Text.pieces separator p.raw with
  | [] => none
  | first :: rest =>
    let steps := tidyEnd rest
    if steps = [] then if first = [] then none else some blank
    else match tidyEnd steps.dropLast with
      | [] => some ⟨if p.isAbsolute then [separator] else first⟩
      | above => some ⟨Text.rejoin separator (first :: above)⟩

/-- The absolute form of a path seen from a working directory. Leading `.` and repeated separators
go; two leading separators and a trailing one stay, since the system may give them a meaning. -/
def absoluteFrom (workingDir p : Path) : Path :=
  let twoSlashes := p.raw.take 2 = [separator, separator] ∧ p.raw[2]? ≠ some separator
  let start := if ¬ p.isAbsolute then workingDir
    else if twoSlashes then ⟨[separator, separator]⟩ else blank
  let steps := p.components.filter fun c => c ≠ .here ∧ ¬ (c = .root ∧ twoSlashes)
  let whole := steps.foldl (fun acc c => acc.join ⟨c.raw⟩) start
  if p.raw.getLast? = some separator then whole.join blank else whole

end Path

end PackageTrial
