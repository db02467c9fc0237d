import PackageTrial.Text.Cut

/-!
# Templates

A template is a text with named places in braces. `fill` puts values into them in one pass: what
has been put in is never looked at again, a name without a value stays as it is written, and so
does everything after a brace that is never closed.
-/

namespace PackageTrial.Template

/-- The values for names; the first value of a name counts. -/
abbrev Arguments := List (String × String)

/-- What stands for a name in braces. -/
def replacement (args : Arguments) (name : List Char) : List Char :=
  match args.find? (·.1.toList = name) with
  | some arg => arg.2.toList
  | none => '\x7b' :: name ++ ['\x7d']

/-- Puts values into a template. -/
def fillChars (args : Arguments) : List Char → List Char
  | [] => []
  | c :: rest =>
    if c = '\x7b' then
      match _h : Text.cutFirst '\x7d' rest with
      | none => c :: rest
      | some (name, tail) => replacement args name ++ fillChars args tail
    else c :: fillChars args rest
termination_by template => template.length
decreasing_by
  · have := Text.eq_of_cutFirst _h
    simp only [this, List.length_cons, List.length_append]
    omega
  · simp

/-- Puts values into a template. -/
def fill (template : String) (args : Arguments) : String :=
  String.ofList (fillChars args template.toList)

end PackageTrial.Template
