import PackageTrial.Path

/-!
# Quoted arguments

Arguments in quotes as CMake reads them: a backslash takes the next character literally, and a
quote or a dollar sign without one would mean something. So these three characters get a backslash
before them.
-/

namespace PackageTrial.CMake

/-- The characters that stand for a character inside quotes. -/
def quotedChar (c : Char) : List Char :=
  if c = '\\' ∨ c = '\x22' ∨ c = '$' then ['\\', c] else [c]

/-- The text as it stands inside quotes. -/
def quoted (s : String) : String :=
  String.ofList (s.toList.flatMap quotedChar)

/-- The text with slashes in place of backslashes. -/
def slashed (s : String) : String :=
  String.ofList (s.toList.map fun c => if c = '\\' then '/' else c)

/-- A path as it stands inside quotes. -/
def quotedPath (p : Path) : String :=
  quoted (slashed p.display)

/-- A list of paths as it stands inside quotes. -/
def quotedPaths (paths : List Path) : String :=
  ";".intercalate (paths.map quotedPath)

/-- The text in quotes. -/
def inQuotes (inside : String) : String :=
  "\x22" ++ inside ++ "\x22"

end PackageTrial.CMake
