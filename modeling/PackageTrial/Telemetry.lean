import PackageTrial.Trial

/-!
# Events for observers

The structured events under which the progress of a trial is logged: one for each notice.
-/

namespace PackageTrial

/-- How much an event matters. -/
inductive Level
  | info
  | warning
  deriving DecidableEq

/-- The level's name. -/
def Level.label : Level → String
  | .info => "INFO"
  | .warning => "WARN"

/-- An event: its level, what it says, and one more field. -/
structure LogEvent where
  level : Level
  message : String
  field : String
  value : String
  deriving DecidableEq

/-- The fields of an event. -/
def LogEvent.fields (e : LogEvent) : List (String × String) :=
  [("message", e.message), (e.field, e.value)]

/-- The event of a notice. -/
def Notice.event : Notice → LogEvent
  | .stage entered => ⟨.info, "stage complete", "stage", entered.label⟩
  | .skip verdict => ⟨.warning, "skipping test binary execution", "capability", verdict.label⟩
  | .execute program => ⟨.info, "executing test binary", "program", program.display⟩

end PackageTrial
