import PackageTrial.Text.Blank

/-!
# Locales

The languages in which the program speaks to people. The first choice of a locale stands.
-/

namespace PackageTrial

/-- A language. -/
inductive Locale
  | english
  | catalan
  deriving DecidableEq, Inhabited

namespace Locale

/-- The language's tag. -/
def label : Locale → String
  | .english => "en"
  | .catalan => "ca"

/-- Every language, as it is presented. -/
def all : List Locale := [.english, .catalan]

/-- A character that ends the language in a longer tag. -/
def endsLanguage (c : Char) : Bool :=
  c == '-' || c == '_' || c == '.'

/-- Reads a tag in any ASCII case; what follows the language does not matter. -/
def parse? (value : String) : Option Locale :=
  let language := (Text.lower (Text.trim value)).toList.takeWhile (!endsLanguage ·)
  all.find? (·.label.toList = language)

end Locale

/-- The locale that was chosen, if one was. -/
abbrev LocaleChoice := Option Locale

namespace LocaleChoice

/-- Chooses a locale, unless one was chosen before. -/
def choose (choice : LocaleChoice) (locale : Locale) : LocaleChoice :=
  some (choice.getD locale)

/-- The locale in use. -/
def current (choice : LocaleChoice) : Locale :=
  choice.getD .english

end LocaleChoice

end PackageTrial
