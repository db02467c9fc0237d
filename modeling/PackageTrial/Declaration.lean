import PackageTrial.Reference

/-!
# Declared dependencies

A declaration is a reference together with the role in which it is consumed. Only the role
`requires` reaches the consumers of the package.
-/

namespace PackageTrial

/-- How a dependency is consumed. -/
inductive Role
  /-- At build and run time, and by the consumers of the package. -/
  | requires
  /-- By the test alone. -/
  | testRequires
  deriving DecidableEq, Inhabited

namespace Role

/-- The role's name. -/
def label : Role → String
  | .requires => "requires"
  | .testRequires => "test_requires"

/-- The role reaches the consumers of the package. -/
def propagates (r : Role) : Bool :=
  r = .requires

/-- Every role. -/
def all : List Role := [.requires, .testRequires]

end Role

/-- A reference and its role. -/
structure Declaration where
  reference : Reference
  role : Role
  deriving DecidableEq, Inhabited

namespace Declaration

/-- A regular dependency. -/
def requires (reference : Reference) : Declaration := ⟨reference, .requires⟩

/-- A dependency of the test alone. -/
def testRequires (reference : Reference) : Declaration := ⟨reference, .testRequires⟩

end Declaration

end PackageTrial
