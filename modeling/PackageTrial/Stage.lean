/-!
# Stages of a trial

A trial moves along one line that forks once: after the build it either runs the binary or skips
it. `Progress.advance` accepts a step along the line and refuses every other one, leaving the
history as it was.
-/

namespace PackageTrial

/-- A stage of a trial. -/
inductive Stage
  | start
  | dependenciesDeclared
  | layoutComputed
  | configured
  | built
  | executed
  | skippedExecution
  | done
  deriving DecidableEq, Inhabited

namespace Stage

/-- Every stage, in order. -/
def all : List Stage :=
  [.start, .dependenciesDeclared, .layoutComputed, .configured, .built, .executed,
   .skippedExecution, .done]

/-- The stage's name. -/
def label : Stage → String
  | .start => "start"
  | .dependenciesDeclared => "dependencies_declared"
  | .layoutComputed => "layout_computed"
  | .configured => "configured"
  | .built => "built"
  | .executed => "executed"
  | .skippedExecution => "skipped_execution"
  | .done => "done"

/-- The stage of a name. -/
def ofLabel? (label : String) : Option Stage :=
  all.find? (·.label = label)

/-- The second stage may directly follow the first. -/
def allows : Stage → Stage → Bool
  | .start, .dependenciesDeclared => true
  | .dependenciesDeclared, .layoutComputed => true
  | .layoutComputed, .configured => true
  | .configured, .built => true
  | .built, .executed | .built, .skippedExecution => true
  | .executed, .done | .skippedExecution, .done => true
  | _, _ => false

end Stage

/-- A step that the line of stages does not have. -/
structure StageError where
  current : Stage
  requested : Stage
  deriving DecidableEq, Inhabited

/-- The message for people. -/
def StageError.message (e : StageError) : String :=
  "illegal stage transition " ++ e.current.label ++ " -> " ++ e.requested.label

/-- The stages visited so far: the first, and the later ones in order. -/
structure Progress where
  visited : List Stage
  deriving DecidableEq

namespace Progress

/-- Nothing but the start. -/
def initial : Progress := ⟨[.start]⟩

instance : Inhabited Progress := ⟨initial⟩

/-- The stage reached. -/
def current (p : Progress) : Stage :=
  p.visited.getLast?.getD .start

/-- Moves to the next stage. -/
def advance (p : Progress) (next : Stage) : Except StageError Progress :=
  if p.current.allows next then .ok ⟨p.visited ++ [next]⟩
  else .error ⟨p.current, next⟩

end Progress

end PackageTrial
