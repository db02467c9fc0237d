import PackageTrial.Trial

/-!
# Rehearsed trials

A script fixes what every collaborator answers. A rehearsal runs a trial by a script and records
what was asked of whom, in order. Since a trial asks each question at most once, every trial is the
rehearsal of some script.
-/

namespace PackageTrial

/-- What every collaborator answers. -/
structure Script where
  resolve : List Declaration → Settings → Except ResolveError Graph
  configure : Job → Except ToolError Unit
  build : Job → Except ToolError Unit
  /-- The regular files that there are after the build. -/
  isFile : Path → Bool
  execute : Invocation → Except ToolError Status

/-- Something that a trial asked or told. -/
inductive Event
  | resolve (declarations : List Declaration) (settings : Settings)
  | configure (job : Job)
  | build (job : Job)
  | execute (invocation : Invocation)
  | notice (notice : Notice)

namespace Script

/-- Records an event and gives an answer. -/
def answer {α : Type} (event : Event) (value : α) : StateM (List Event) α := do
  modify (· ++ [event])
  return value

/-- The collaborators who play by a script. -/
def collaborators (s : Script) : Collaborators (StateM (List Event)) where
  resolve declarations settings :=
    answer (.resolve declarations settings) (s.resolve declarations settings)
  configure job := answer (.configure job) (s.configure job)
  build job := answer (.build job) (s.build job)
  isFile path := return s.isFile path
  execute invocation := answer (.execute invocation) (s.execute invocation)
  notify notice := answer (.notice notice) ()

/-- A trial by a script: its end, and the events on the way. -/
def rehearse (s : Script) (plan : Plan) (context : Context) :
    Except TrialError Report × List Event :=
  (Trial.run s.collaborators plan context).run.run []

end Script

end PackageTrial
