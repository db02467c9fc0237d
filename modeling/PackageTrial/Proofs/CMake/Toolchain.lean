import PackageTrial.Proofs.CMake.Script

/-!
# What the toolchain says

The commands that a job's toolchain is meant to give (`toolchainCommands`), told without quotes and
escapes. The text of the toolchain is read as these commands and nothing else, whatever characters
the settings and paths hold (`tokens_toolchain`), since no text breaks out of its quotes.
-/

namespace PackageTrial.CMake

/-! ## Commands -/

/-- The build type, where it is known. -/
def buildTypeCommands (target : Settings) (multiConfig : Bool) : List Command :=
  if multiConfig then []
  else
    [⟨"set", [.word "CMAKE_BUILD_TYPE", .quoted target.buildType.name, .word "CACHE",
      .word "STRING", .quoted "pkgcheck build type", .word "FORCE"]⟩]

/-- The compiler. -/
def compilerCommands (c : Compiler) : List Command :=
  [.set "PKGCHECK_COMPILER" c.name] ++
    c.version.toList.map (.set "PKGCHECK_COMPILER_VERSION") ++
    c.libcxx.toList.map (.set "PKGCHECK_COMPILER_LIBCXX")

/-- The target system, where it is not the host's. -/
def crossCommands (context : Context) : List Command :=
  if context.isCrossBuilding then
    [.set "CMAKE_SYSTEM_NAME" context.target.os.systemName,
      .set "CMAKE_SYSTEM_PROCESSOR" context.target.arch.processor] ++
      if context.target.arch.isMicrocontroller then
        [⟨"set", [.word "CMAKE_TRY_COMPILE_TARGET_TYPE", .word "STATIC_LIBRARY"]⟩]
      else []
  else []

/-- A directory added to a list variable, told with slashes. -/
def addCommand (place list : String) (dir : Path) : Command :=
  ⟨"list", [.word place, .word list, .quoted (pathText dir)]⟩

/-- The directories in which packages are looked for. -/
def searchCommands (job : Job) : List Command :=
  [addCommand "PREPEND" "CMAKE_PREFIX_PATH" job.layout.generatorsDir] ++
    job.graph.packages.map fun p => addCommand "APPEND" "CMAKE_FIND_ROOT_PATH" p.root

/-- What the toolchain of a job is to say. -/
def toolchainCommands (job : Job) (multiConfig : Bool) : List Command :=
  let target := job.context.target
  buildTypeCommands target multiConfig ++
    [.set "PKGCHECK_TESTED_REFERENCE" job.tested.text] ++ compilerCommands target.compiler ++
    crossCommands job.context ++ searchCommands job ++
    [⟨"set", [.word "CMAKE_FIND_PACKAGE_PREFER_CONFIG", .word "ON"]⟩]

/-! ## Lines -/

theorem tells_buildType (target : Settings) (multiConfig : Bool) :
    Tells (buildTypeLines target multiConfig) (buildTypeCommands target multiConfig) := by
  unfold buildTypeLines buildTypeCommands
  split
  · exact .nil
  · have hplain : quoted target.buildType.name = target.buildType.name := by
      cases target.buildType <;> decide
    have hlabel : quoted "pkgcheck build type" = "pkgcheck build type" := by decide
    have hwords : ∀ w ∈ ["set", "CMAKE_BUILD_TYPE", "CACHE", "STRING", "FORCE"], IsWord w := by
      decide
    refine .ofWritten (by exact hwords) ?_
    simp [Command.written, Argument.written, hplain, hlabel, ← String.toList_inj]

theorem tells_compiler (c : Compiler) : Tells (compilerLines c) (compilerCommands c) := by
  unfold compilerLines compilerCommands
  rw [Option.toList_map, Option.toList_map]
  exact ((Tells.setText (by decide) _).append (.map (.setText (by decide)) _)).append
    (.map (.setText (by decide)) _)

theorem tells_cross (context : Context) : Tells (crossLines context) (crossCommands context) := by
  unfold crossLines crossCommands
  split
  · refine ((Tells.setText (by decide) _).append (.setText (by decide) _)).append ?_
    split
    · exact .ofWritten (by decide) (by decide)
    · exact .nil
  · exact .nil

theorem tells_search (job : Job) : Tells (searchLines job) (searchCommands job) := by
  have hprefix : ∀ w ∈ ["list", "PREPEND", "CMAKE_PREFIX_PATH"], IsWord w := by decide
  have hroot : ∀ w ∈ ["list", "APPEND", "CMAKE_FIND_ROOT_PATH"], IsWord w := by decide
  have hgenerators : Tells
      ["list(PREPEND CMAKE_PREFIX_PATH " ++ inQuotes (quotedPath job.layout.generatorsDir) ++ ")"]
      [addCommand "PREPEND" "CMAKE_PREFIX_PATH" job.layout.generatorsDir] := by
    refine .ofWritten (by exact hprefix) ?_
    simp [Command.written, Argument.written, addCommand, quotedPath_eq, ← String.toList_inj]
  refine hgenerators.append (.map (fun p => .ofWritten (by exact hroot) ?_) _)
  simp [Command.written, Argument.written, addCommand, quotedPath_eq, ← String.toList_inj]

theorem tells_preference : Tells ["set(CMAKE_FIND_PACKAGE_PREFER_CONFIG ON)"]
    [⟨"set", [.word "CMAKE_FIND_PACKAGE_PREFER_CONFIG", .word "ON"]⟩] :=
  .ofWritten (by decide) (by decide)

theorem tokens_toolchain (job : Job) (multiConfig : Bool) :
    tokens (toolchain job multiConfig).toList =
      some ((toolchainCommands job multiConfig).flatMap Command.tokens) := by
  have hbuildType := Tells.header.append (tells_buildType job.context.target multiConfig)
  have htested : Tells [setText "PKGCHECK_TESTED_REFERENCE" job.tested.text]
      [.set "PKGCHECK_TESTED_REFERENCE" job.tested.text] := .setText (by decide) _
  have hcompiler := (hbuildType.append htested).append (tells_compiler job.context.target.compiler)
  have hsearch := (hcompiler.append (tells_cross job.context)).append (tells_search job)
  exact (hsearch.append tells_preference).tokens_eq

/-- **Nothing breaks out of its quotes.** Whatever follows it, a quoted text is scanned up to the
quote behind it and says the text; it refers to no variable, and a backslash takes in it only the
characters that mean something without one. So the toolchain of every job is read as the commands
that it is meant to give. -/
theorem quotes_unbroken :
    (∀ value after : String, ∃ marks,
      scanArgument (inQuotes (quoted value) ++ after).toList = some (marks, after.toList) ∧
        marks.map Mark.char = value.toList ∧ .plain '$' ∉ marks ∧
        ∀ c, .escaped c ∈ marks → c = '\\' ∨ c = '\x22' ∨ c = '$') ∧
    ∀ (job : Job) (multiConfig : Bool), tokens (toolchain job multiConfig).toList =
      some ((toolchainCommands job multiConfig).flatMap Command.tokens) := by
  refine ⟨fun value after => ⟨value.toList.map Mark.ofChar, ?_, ?_, ?_, ?_⟩, tokens_toolchain⟩
  · simpa [inQuotes, scanArgument] using scanQuoted_quoted value after.toList
  · simp [Function.comp_def]
  · simp [Mark.ofChar_ne_plain_dollar]
  · intro c hc
    obtain ⟨d, -, hd⟩ := List.mem_map.1 hc
    exact Mark.special_of_ofChar hd

end PackageTrial.CMake
