import PackageTrial.Command

/-!
# Machines

A machine on which commands can be tried: a workspace, the environment of the parent process, and
programs that do something simple and known. `Machine.start` starts a command as a system does: it
enters the directory, looks for the program and runs it, or says why it cannot. What programs note
and print is kept.
-/

namespace PackageTrial

/-- What a program does. -/
inductive Program
  /-- Notes its directory, its arguments and variables, and ends. The flag tells whether a variable
  that is not set is marked as such. -/
  | notes (watched : List (String × Bool)) (ending : Status)
  /-- Logs its arguments and ends, one way when asked to build and another way otherwise. When it
  builds, it first puts a program at the given path. -/
  | builder (product : Option Path) (image : ByteArray) (configured built : Status)
  /-- Ends. -/
  | ends (status : Status)
  /-- Prints its arguments. -/
  | prints
  /-- Runs a program with more variables. -/
  | environment
  /-- Runs a script. -/
  | shell

/-- A machine. -/
structure Machine where
  workspace : Workspace
  /-- The environment of the parent process. -/
  ambient : Snapshot
  /-- What the executable images do. -/
  programs : List (ByteArray × Program)
  /-- What builders have logged, line by line. -/
  log : List RawText
  /-- What programs have noted, line by line. -/
  noted : List RawText
  /-- What programs have printed. -/
  printed : RawText

/-- The status of a process that leaves with a code, of which eight bits count. -/
def Status.leaving (code : Int) : Status :=
  .exited (Int32.ofInt (code % 256))

namespace Machine

/-- What an executable image does. -/
def programOf? (m : Machine) (image : ByteArray) : Option Program :=
  (m.programs.find? (·.1 = image)).map (·.2)

/-! ## Finding programs -/

/-- The image at a path, which has to be executable. -/
def imageAt (w : Workspace) (path : Path) : Except Fault ByteArray := do
  match ← w.find path with
  | .file image true => return image
  | .file _ false | .directory => throw .denied

/-- The path of a name in a directory of the search path; the empty directory is the working one. -/
def inDirectory (dir name : RawText) : Path :=
  if dir = [] then ⟨name⟩ else ⟨dir ++ Path.separator :: name⟩

/-- The directories of a search path. One that is too long for a path stands for the working
directory, and for nothing at the end. -/
def searched : List RawText → List RawText
  | [] => []
  | [dir] => if dir.length < Workspace.pathBound then [dir] else []
  | dir :: rest => (if dir.length < Workspace.pathBound then dir else []) :: searched rest

/-- The first image of a name in a list of directories. When there is none, the latest refusal
counts, but a file that must not be executed counts above all. -/
def searchImage (w : Workspace) (name : RawText) (refusal : Fault) :
    List RawText → Except Fault ByteArray
  | [] => .error refusal
  | dir :: rest =>
    match imageAt w (inDirectory dir name) with
    | .ok image => .ok image
    | .error fault =>
      if fault ∈ [Fault.missing, .notDirectory, .denied] then
        searchImage w name (if refusal = .denied then refusal else fault) rest
      else .error fault

/-- Where programs are looked for when no variable says so. -/
def defaultSearch : RawText := RawText.ofString "/bin:/usr/bin"

/-- The image of a program: a name without separators is looked for. Of a name that is too long, no
more is used than shows that it is. -/
def findImage (w : Workspace) (environment : Snapshot) (program : RawText) :
    Except Fault ByteArray :=
  if program = [] then .error .missing
  else if program.contains Path.separator then imageAt w ⟨program⟩
  else
    let search := (environment.get? "PATH").getD defaultSearch
    searchImage w (program.take (Workspace.maxNameLength + 1)) .missing
      (searched (Text.pieces PathList.separator search))

/-! ## Running programs -/

/-- Words with a space between neighbours. -/
def words (ws : List RawText) : RawText :=
  Text.rejoin 0x20 ws

/-- The line in which a variable is noted. -/
def variableLine (environment : Snapshot) (name : String) (markUnset : Bool) : RawText :=
  RawText.ofString (name ++ "=") ++
    (environment.get? name).getD (RawText.ofString (if markUnset then "<unset>" else ""))

/-- The lines of a text. -/
def linesOf (text : RawText) : List RawText :=
  Text.pieces 0x0A text

/-- What a program notes. -/
def noteLines (w : Workspace) (environment : Snapshot) (args : List RawText)
    (watched : List (String × Bool)) : List RawText :=
  [RawText.ofString "cwd=" ++ w.workingPath.raw, RawText.ofString "args=" ++ words args] ++
    watched.map fun (name, markUnset) => variableLine environment name markUnset

/-- The status with which a command of the shell leaves, for the few that it knows. -/
def shellStatus (text : RawText) : Status :=
  match Text.pieces 0x20 text with
  | [name, code] =>
    if name = RawText.ofString "exit" then .leaving (((RawText.display code).toNat?).getD 2)
    else .leaving 127
  | [name] =>
    if name = RawText.ofString "exit" ∨ name = RawText.ofString "true" ∨
      name = RawText.ofString ":" then .leaving 0
    else if name = RawText.ofString "false" then .leaving 1
    else .leaving 127
  | _ => .leaving 127

/-- The arguments after leading options. -/
def dropOptions : List RawText → List RawText
  | arg :: rest => if arg.head? = some 0x2D then dropOptions rest else arg :: rest
  | [] => []

/-- Splits leading assignments of variables from a command line. -/
def takeAssignments (environment : Snapshot) : List RawText → Snapshot × List RawText
  | arg :: rest =>
    match Text.cutFirst Snapshot.equalsSign arg with
    | some (name, value) =>
      if name = [] then (environment, arg :: rest)
      else takeAssignments (environment.update name (some value)) rest
    | none => (environment, arg :: rest)
  | [] => (environment, [])

/-- Puts an executable at a path, as far as that is possible. -/
def install (m : Machine) (path : Path) (image : ByteArray) : Machine :=
  { m with workspace := ((Workspace.plant path image true).run.run m.workspace).2 }

/-- Runs an image in a directory. Programs run other programs up to the given depth. -/
def run (depth : Nat) (m : Machine) (workingDir : Location) (environment : Snapshot)
    (image : ByteArray) (args : List RawText) : Status × Machine :=
  match depth with
  | 0 => (.leaving 126, m)
  | depth + 1 =>
    let here : Workspace := { m.workspace with workingDir }
    match m.programOf? image with
    | none => (.leaving 126, m)
    | some (.ends status) => (status, m)
    | some .prints => (.leaving 0, { m with printed := m.printed ++ words args ++ [0x0A] })
    | some (.notes watched ending) =>
      let lines := (noteLines here environment args watched).flatMap linesOf
      (ending, { m with noted := m.noted ++ lines })
    | some (.builder product made configured built) =>
      let logged := { m with log := m.log ++ linesOf (words args) }
      if args.head? = some (RawText.ofString "--build") then
        match product with
        | some path => (built, logged.install path made)
        | none => (built, logged)
      else (configured, logged)
    | some .environment =>
      match takeAssignments environment args with
      | (_, []) => (.leaving 0, m)
      | (environment, program :: args) =>
        match findImage here environment program with
        | .ok image => run depth m workingDir environment image args
        | .error .missing => (.leaving 127, m)
        | .error _ => (.leaving 126, m)
    | some .shell =>
      if args.head? = some (RawText.ofString "-c") then
        (shellStatus ((args[1]?).getD []), m)
      else
        match dropOptions args with
        | [] => (.leaving 0, m)
        | script :: args =>
          match here.read ⟨script⟩ with
          | .ok image => run depth m workingDir environment image args
          | .error _ => (.leaving 2, m)

/-- How deep programs run other programs. -/
def maxDepth : Nat := 64

/-- The directory in which a command runs. -/
def enter (w : Workspace) (dir : Option Path) : Except Fault Location :=
  match dir with
  | none => .ok w.workingDir
  | some path => do
    match ← w.find path with
    | .directory => w.locate path
    | .file _ _ => throw .notDirectory

/-- Starts a command and waits for its end. -/
def start (command : Command) : StateM Machine (Except StartFault Status) := fun m =>
  if command.hasNul then (.error .nulInData, m)
  else
    match enter m.workspace command.workingDir with
    | .error fault => (.error (.refused fault), m)
    | .ok dir =>
      let environment := command.environment m.ambient
      match findImage { m.workspace with workingDir := dir } environment command.program with
      | .error fault => (.error (.refused fault), m)
      | .ok image =>
        let (status, m) := run maxDepth m dir environment.received image command.args
        (.ok status, m)

/-- Does something to the workspace of a machine. -/
def onWorkspace {α : Type} (action : StateM Workspace α) : StateM Machine α := fun m =>
  let (a, workspace) := action.run m.workspace
  (a, { m with workspace })

end Machine

end PackageTrial
