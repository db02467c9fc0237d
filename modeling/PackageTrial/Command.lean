import PackageTrial.Trial
import PackageTrial.Workspace

/-!
# Commands

A child process as it is described before it starts: program, arguments, directory, and what
becomes of environment variables. Variables that are not mentioned are inherited, and nothing
changes the parent's own.
-/

namespace PackageTrial

/-- A child process that is not started yet. -/
structure Command where
  program : RawText
  args : List RawText
  /-- The directory in which it runs; the parent's when none is given. -/
  workingDir : Option Path
  /-- What becomes of environment variables. -/
  changes : Dictionary Binding

namespace Command

/-- The environment of the child, from the parent's. -/
def environment (c : Command) (inherited : Snapshot) : Snapshot :=
  inherited.amend c.changes

/-- The command of a tool. -/
def tool (program : RawText) (args : List RawText) (workingDir : Option Path) (overlay : Overlay)
    (base : Snapshot) : Command :=
  ⟨program, args, workingDir, overlay.resolve base⟩

/-- What is shown of a text that no system takes. -/
def concealed : RawText := RawText.ofString "<string-with-nul>"

/-- A text as a command shows it. -/
def shown (text : RawText) : RawText :=
  if text.hasNul then concealed else text

/-- The command as it can be looked at: of the program, the arguments and the directory, those with
a NUL byte are not shown. -/
def visible (c : Command) : Command :=
  { c with
    program := shown c.program
    args := c.args.map shown
    workingDir := c.workingDir.map fun dir => ⟨shown dir.raw⟩ }

/-- A NUL byte stands somewhere in the command. -/
def hasNul (c : Command) : Bool :=
  c.program.hasNul || c.args.any RawText.hasNul || c.workingDir.any (·.raw.hasNul) ||
    c.changes.entries.any fun (key, binding) =>
      (RawText.ofString key).hasNul || binding.value?.any RawText.hasNul

end Command

/-- The command of an invocation: the binary, after the emulator's command line when there is
one. -/
def Invocation.command (i : Invocation) : Except ToolError Command :=
  let changes := i.environment.resolve i.base
  match i.emulator with
  | none => .ok ⟨i.program.raw, [], some i.workingDir, changes⟩
  | some [] => .error (.spawn i.program.display "emulator command is empty")
  | some (program :: args) =>
    .ok ⟨RawText.ofString program, args.map RawText.ofString ++ [i.program.raw],
      some i.workingDir, changes⟩

/-- Why a child process does not start. -/
inductive StartFault
  | nulInData
  | refused (fault : Fault)
  deriving DecidableEq

/-- The message for people. -/
def StartFault.message : StartFault → String
  | .nulInData => "nul byte found in provided data"
  | .refused fault => fault.message

/-- What a tool's process has come to, for a program known by the given name. -/
def ToolError.ofStart (program : String) (started : Except StartFault Status) :
    Except ToolError Status :=
  started.mapError fun fault => .spawn program fault.message

/-- What a tool has come to: it has to report success. -/
def ToolError.ofTool (program : String) (started : Except StartFault Status) :
    Except ToolError Unit := do
  let status ← ToolError.ofStart program started
  if status.success then return else throw (.failed program status)

end PackageTrial
