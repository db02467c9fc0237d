import PackageTrial.Proofs.CMake.Script
import PackageTrial.Proofs.Path.Components
import PackageTrial.Proofs.Reference.Rules

/-!
# What package files say

The commands that the file of a package is meant to give (`packageCommands`), and that it is read as
(`tokens_packageConfig`). The directories of a package are listed in one argument each, where a
semicolon separates them. A directory that holds a semicolon itself falls apart there, so a list is
read back exactly when none does (`directories_read_back`, `include_directory_split`).
-/

namespace PackageTrial

/-- The path is a text that is not empty and holds no backslash. -/
def Path.IsPlain (d : Path) : Prop :=
  ∃ s : String, s ≠ "" ∧ '\\' ∉ s.toList ∧ d = .ofString s

theorem Path.isPlain_iff {d : Path} :
    d.IsPlain ↔ d.display ≠ "" ∧ '\\' ∉ d.display.toList ∧ Path.ofString d.display = d := by
  constructor
  · rintro ⟨s, hne, hback, rfl⟩
    rw [Path.display_ofString]
    exact ⟨hne, hback, rfl⟩
  · rintro ⟨hne, hback, hsame⟩
    exact ⟨d.display, hne, hback, hsame.symm⟩

namespace CMake

/-! ## Commands -/

/-- A list of directories as one value, told with slashes. -/
def joined (dirs : List Path) : String :=
  ";".intercalate (dirs.map pathText)

/-- The target of a package. -/
def targetName (p : Package) : String :=
  p.reference.name ++ "::" ++ p.reference.name

/-- The lists of directories that a package's target gets, under the names of their properties. -/
def directoryLists (p : Package) : List (String × List Path) :=
  [("INTERFACE_INCLUDE_DIRECTORIES", p.includeDirs), ("INTERFACE_LINK_DIRECTORIES", p.libDirs)]

/-- The properties of a package's target. -/
def properties (p : Package) : List (String × String) :=
  (directoryLists p).map (fun (key, dirs) => (key, joined dirs)) ++
    [("INTERFACE_LINK_LIBRARIES", ";".intercalate p.libs)]

/-- What the file of a package is to say. -/
def packageCommands (p : Package) : List Command :=
  [⟨"if", [.word "NOT", .word "TARGET", .word (targetName p)]⟩,
    ⟨"add_library", [.word (targetName p), .word "INTERFACE", .word "IMPORTED"]⟩,
    ⟨"set_target_properties", .word (targetName p) :: .word "PROPERTIES" ::
      (properties p).flatMap fun (key, value) => [.word key, .quoted value]⟩,
    ⟨"endif", []⟩,
    ⟨"set", [.word (p.reference.name ++ "_FOUND"), .word "TRUE"]⟩,
    .set (p.reference.name ++ "_VERSION") p.reference.version]

/-! ## Values -/

theorem quoted_append (s t : String) : quoted (s ++ t) = quoted s ++ quoted t := by
  simp [quoted]

theorem quoted_intercalate (ss : List String) :
    quoted (";".intercalate ss) = ";".intercalate (ss.map quoted) := by
  induction ss with
  | nil => rfl
  | cons s ss ih =>
    cases ss with
    | nil => simp
    | cons t ss =>
      have hsemicolon : quoted ";" = ";" := by decide
      rw [String.intercalate_cons_cons, quoted_append, quoted_append, ih, hsemicolon]
      simp only [List.map_cons, String.intercalate_cons_cons]

theorem quotedPaths_eq (dirs : List Path) : quotedPaths dirs = quoted (joined dirs) := by
  rw [joined, quoted_intercalate, List.map_map, quotedPaths]
  exact congrArg _ (List.map_congr_left fun d _ => quotedPath_eq d)

/-! ## Lines -/

theorem isWord_of_isName {s : String} (h : Reference.isName s = true) : IsWord s := by
  have hrule := Reference.isName_iff.1 h
  have hall : Reference.nameAlphabet.all isBare = true := by decide
  refine ⟨?_, List.all_eq_true.2 fun c hc => List.all_eq_true.1 hall c (hrule.chars c hc)⟩
  rintro rfl
  exact absurd hrule.size.1 (by decide)

theorem IsWord.append {v w : String} (hv : IsWord v) (hw : w.toList.all isBare = true) :
    IsWord (v ++ w) := by
  refine ⟨fun h => hv.1 (String.append_eq_empty_iff.1 h).1, ?_⟩
  rw [String.toList_append, List.all_append, hv.2, hw]
  rfl

/-- A property on a line of its own. -/
theorem Reads.property {key : String} (hkey : IsWord key) (value : String) {text : List Char}
    {ts : List Token} (h : Reads text ts) :
    Reads ('\n' :: ("    ".toList ++
        (key.toList ++ ' ' :: ((inQuotes (CMake.quoted value)).toList ++ text))))
      (.word key :: .quoted value :: ts) := by
  have hpair := Reads.word hkey (by decide) ((Reads.quoted value h).space (c := ' ') (by decide))
  have hmargin : "    ".toList.all isSpace = true := by decide
  simpa [inQuotes] using (hpair.blanks hmargin).space (c := '\n') (by decide)

/-- The command that gives a target its properties, a line for each of them. -/
theorem tells_properties {p : Package} (htarget : IsWord (targetName p)) :
    Tells ["  set_target_properties(" ++ targetName p ++ " PROPERTIES",
        "    INTERFACE_INCLUDE_DIRECTORIES " ++ inQuotes (quotedPaths p.includeDirs),
        "    INTERFACE_LINK_DIRECTORIES " ++ inQuotes (quotedPaths p.libDirs),
        "    INTERFACE_LINK_LIBRARIES " ++ inQuotes (";".intercalate (p.libs.map quoted)) ++ ")"]
      [⟨"set_target_properties", .word (targetName p) :: .word "PROPERTIES" ::
        (properties p).flatMap fun (key, value) => [.word key, .quoted value]⟩] := by
  have hcall : IsWord "set_target_properties" ∧ IsWord "PROPERTIES" ∧
      IsWord "INTERFACE_INCLUDE_DIRECTORIES" ∧ IsWord "INTERFACE_LINK_DIRECTORIES" ∧
      IsWord "INTERFACE_LINK_LIBRARIES" := by decide
  obtain ⟨hcall, hproperties, hinclude, hlink, hlibs⟩ := hcall
  have hend := (Reads.nil.space (c := '\n') (by decide)).closing
  have hlists := ((hend.property hlibs (";".intercalate p.libs)).property hlink
    (joined p.libDirs)).property hinclude (joined p.includeDirs)
  have hhead := Reads.word hcall (by decide) (Reads.word htarget (by decide)
    ((Reads.word hproperties (by decide) hlists).space (c := ' ') (by decide))).opening
  have hmargin : "  ".toList.all isSpace = true := by decide
  simpa [Tells, toList_lines, Command.tokens, properties, directoryLists, Argument.token,
    quotedPaths_eq, quoted_intercalate] using hhead.blanks hmargin

theorem tells_guard {target : String} (htarget : IsWord target) :
    Tells ["if(NOT TARGET " ++ target ++ ")"]
      [⟨"if", [.word "NOT", .word "TARGET", .word target]⟩] := by
  refine .ofWritten ?_ (by simp [Command.written, Argument.written, ← String.toList_inj])
  have hwords : IsWord "if" ∧ IsWord "NOT" ∧ IsWord "TARGET" := by decide
  simpa [Command.words, Argument.word?, htarget] using hwords

theorem tells_library {target : String} (htarget : IsWord target) :
    Tells ["  add_library(" ++ target ++ " INTERFACE IMPORTED)"]
      [⟨"add_library", [.word target, .word "INTERFACE", .word "IMPORTED"]⟩] := by
  have hmargin : "  ".toList.all isSpace = true := by decide
  refine .line ?_ hmargin (by simp [Command.written, Argument.written, ← String.toList_inj])
  have hwords : IsWord "add_library" ∧ IsWord "INTERFACE" ∧ IsWord "IMPORTED" := by decide
  simpa [Command.words, Argument.word?, htarget] using hwords

theorem tells_found {name : String} (hname : IsWord name) :
    Tells ["set(" ++ name ++ "_FOUND TRUE)"]
      [⟨"set", [.word (name ++ "_FOUND"), .word "TRUE"]⟩] := by
  refine .ofWritten ?_ (by simp [Command.written, Argument.written, ← String.toList_inj])
  have hwords : IsWord "set" ∧ IsWord "TRUE" := by decide
  simpa [Command.words, Argument.word?, hname.append (w := "_FOUND") (by decide)] using hwords

/-- The file of a package is read as the commands that it is to give. -/
theorem tokens_packageConfig {p : Package} (hp : p.reference.WellFormed) :
    tokens (packageConfig p).toList = some ((packageCommands p).flatMap Command.tokens) := by
  have hname := isWord_of_isName hp.name
  have htarget : IsWord (targetName p) := (hname.append (by decide)).append hname.2
  have hopen := (Tells.header.append (tells_guard htarget)).append (tells_library htarget)
  have hclose : Tells ["endif()"] [⟨"endif", []⟩] := .ofWritten (by decide) (by decide)
  have hversion := Tells.setText (hname.append (w := "_VERSION") (by decide)) p.reference.version
  have hbody := (hopen.append (tells_properties htarget)).append hclose
  exact ((hbody.append (tells_found hname)).append hversion).tokens_eq

/-! ## Lists -/

/-- The items of a list. A semicolon separates two of them, unless a backslash stands before it. -/
def splitItems : List Char → List (List Char)
  | [] => [[]]
  | '\\' :: ';' :: rest => (splitItems rest).modifyHead (';' :: ·)
  | ';' :: rest => [] :: splitItems rest
  | c :: rest => (splitItems rest).modifyHead (c :: ·)

/-- The items of a list; the empty text is the list without any. -/
def listItems (value : String) : List String :=
  if value = "" then [] else (splitItems value.toList).map String.ofList

/-- The quoted argument that stands behind a word. -/
def valueOf? (key : String) : List Token → Option String
  | .word w :: .quoted value :: ts => if w = key then some value else valueOf? key ts
  | _ :: ts => valueOf? key ts
  | [] => none

/-- The directories that a script lists under the name of a property. -/
def directories? (key script : String) : Option (List Path) := do
  let value ← valueOf? key (← tokens script.toList)
  return (listItems value).map .ofString

/-- The paths that a directory falls into where it holds a semicolon. -/
def cutAtSemicolons (dir : Path) : List Path :=
  (Text.pieces ';' dir.display.toList).map fun piece => .ofString (String.ofList piece)

theorem splitItems_eq_pieces {s : List Char} (h : '\\' ∉ s) :
    splitItems s = Text.pieces ';' s := by
  rw [Text.pieces_eq_splitOn]
  fun_induction splitItems s with
  | case1 => rw [List.splitOn_nil]
  | case2 rest => exact absurd List.mem_cons_self h
  | case3 rest ih =>
    rw [List.splitOn_cons_eq_if_modifyHead, ih (List.not_mem_of_not_mem_cons h),
      if_pos (beq_self_eq_true _)]
  | case4 c rest _ hc ih =>
    rw [List.splitOn_cons_eq_if_modifyHead, ih (List.not_mem_of_not_mem_cons h),
      if_neg (by simpa using hc)]

theorem toList_joined (dirs : List Path) :
    (joined dirs).toList = Text.rejoin ';' (dirs.map fun d => (pathText d).toList) := by
  rw [joined, Text.rejoin_eq_intercalate, String.toList_intercalate, List.map_map]
  rfl

theorem backslash_not_mem_joined (dirs : List Path) : '\\' ∉ (joined dirs).toList := by
  rw [toList_joined]
  intro hmem
  rcases Text.mem_rejoin hmem with hsep | ⟨piece, hpiece, hmem⟩
  · exact absurd hsep (by decide)
  · obtain ⟨d, -, rfl⟩ := List.mem_map.1 hpiece
    exact backslash_not_mem_pathText d hmem

/-- A list of directories is read as what the directories fall into. -/
theorem listItems_joined {dirs : List Path} (h : ∀ d ∈ dirs, d.IsPlain) :
    (listItems (joined dirs)).map Path.ofString = dirs.flatMap cutAtSemicolons := by
  cases dirs with
  | nil => rfl
  | cons d ds =>
    have hlist : (joined (d :: ds)).toList =
        Text.rejoin ';' ((d :: ds).map fun e => e.display.toList) := by
      rw [toList_joined]
      refine congrArg _ (List.map_congr_left fun e he => ?_)
      rw [pathText_eq_display (Path.isPlain_iff.1 (h e he)).2.1]
    have hne : joined (d :: ds) ≠ "" := by
      have hd := (Path.isPlain_iff.1 (h d List.mem_cons_self)).1
      rw [Ne, ← String.toList_eq_nil_iff, hlist]
      exact Text.rejoin_cons_ne_nil (mt String.toList_eq_nil_iff.1 hd) _
    rw [listItems, if_neg hne, splitItems_eq_pieces (backslash_not_mem_joined _), hlist,
      Text.pieces_rejoin_eq_flatMap (by simp), List.map_map, List.map_flatMap, List.flatMap_map]
    rfl

theorem valueOf?_packageConfig {p : Package} {key value : String}
    (h : (key, value) ∈ properties p) :
    valueOf? key ((packageCommands p).flatMap Command.tokens) = some value := by
  simp only [properties, directoryLists, List.map_cons, List.map_nil, List.cons_append,
    List.nil_append, List.mem_cons, Prod.mk.injEq, List.not_mem_nil, or_false] at h
  rcases h with ⟨rfl, rfl⟩ | ⟨rfl, rfl⟩ | ⟨rfl, rfl⟩ <;>
    simp [packageCommands, Command.tokens, Argument.token, properties, directoryLists, valueOf?]

/-- A directory that stays in one piece holds no semicolon, and the other way round. -/
theorem flatMap_cutAtSemicolons_eq_self_iff {dirs : List Path} (h : ∀ d ∈ dirs, d.IsPlain) :
    dirs.flatMap cutAtSemicolons = dirs ↔ ∀ d ∈ dirs, ';' ∉ d.display.toList := by
  constructor
  · intro hsame d hd
    rw [← hsame] at hd
    obtain ⟨e, -, hd⟩ := List.mem_flatMap.1 hd
    obtain ⟨piece, hpiece, rfl⟩ := List.mem_map.1 hd
    rw [Path.display_ofString, String.toList_ofList]
    exact Text.not_mem_of_mem_pieces hpiece
  · intro hnone
    have hone : ∀ d ∈ dirs, cutAtSemicolons d = [d] := fun d hd => by
      rw [cutAtSemicolons, Text.pieces_eq_singleton (hnone d hd), List.map_singleton,
        String.ofList_toList, (Path.isPlain_iff.1 (h d hd)).2.2]
    rw [List.flatMap_congr hone, List.flatMap_singleton']

section ReadBack

variable {p : Package} {key : String} {dirs : List Path}

theorem directories?_packageConfig (hp : p.reference.WellFormed)
    (hkey : (key, dirs) ∈ directoryLists p) (hdirs : ∀ d ∈ dirs, d.IsPlain) :
    directories? key (packageConfig p) = some (dirs.flatMap cutAtSemicolons) := by
  have hmem : (key, joined dirs) ∈ properties p :=
    List.mem_append_left _ (List.mem_map.2 ⟨_, hkey, rfl⟩)
  rw [directories?, tokens_packageConfig hp, Option.bind_eq_bind, Option.bind_some,
    valueOf?_packageConfig hmem, Option.bind_eq_bind, Option.bind_some, listItems_joined hdirs]
  rfl

/-- **A list of directories is read back exactly when none of them holds a semicolon.** CMake reads
the file of a package as a list of what its directories fall into at their semicolons, so it gives
the directories themselves, in order, if and only if there is nowhere to fall apart. -/
theorem directories_read_back (hp : p.reference.WellFormed)
    (hkey : (key, dirs) ∈ directoryLists p) (hdirs : ∀ d ∈ dirs, d.IsPlain) :
    directories? key (packageConfig p) = some (dirs.flatMap cutAtSemicolons) ∧
      (directories? key (packageConfig p) = some dirs ↔
        ∀ d ∈ dirs, ';' ∉ d.display.toList) := by
  have hread := directories?_packageConfig hp hkey hdirs
  refine ⟨hread, ?_⟩
  rw [hread, Option.some_inj, flatMap_cutAtSemicolons_eq_self_iff hdirs]

end ReadBack

/-- A package whose headers lie in a directory with a semicolon in its name. -/
def semicolonPackage : Package where
  reference := ⟨"libhal", "4.1.0", none, none⟩
  role := .requires
  root := .ofString "/pkgs/libhal/4.1.0"
  includeDirs := [.ofString "/pkgs/libhal/4.1.0/inc;api"]
  libDirs := [.ofString "/pkgs/libhal/4.1.0/lib"]
  binDirs := []
  libs := ["hal"]

theorem wellFormed_semicolonPackage : semicolonPackage.reference.WellFormed := by
  decide

theorem library_directory_read_back :
    semicolonPackage.reference.WellFormed ∧
      ("INTERFACE_LINK_DIRECTORIES", [.ofString "/pkgs/libhal/4.1.0/lib"]) ∈
        directoryLists semicolonPackage ∧
      directories? "INTERFACE_LINK_DIRECTORIES" (packageConfig semicolonPackage) =
        some [.ofString "/pkgs/libhal/4.1.0/lib"] := by
  have hkey : ("INTERFACE_LINK_DIRECTORIES", [.ofString "/pkgs/libhal/4.1.0/lib"]) ∈
      directoryLists semicolonPackage := List.mem_cons_of_mem _ List.mem_cons_self
  have hdirs : ∀ d ∈ [Path.ofString "/pkgs/libhal/4.1.0/lib"], d.IsPlain :=
    List.forall_mem_singleton.2 ⟨_, by decide, by decide, rfl⟩
  refine ⟨wellFormed_semicolonPackage, hkey, ?_⟩
  refine (directories_read_back wellFormed_semicolonPackage hkey hdirs).2.2 ?_
  simp

/-- The headers are looked for in two directories, and in neither where they lie. With a backslash
before the semicolon, the argument would have listed the one directory. -/
theorem include_directory_split :
    (∀ d ∈ semicolonPackage.includeDirs, d.IsPlain) ∧
      directories? "INTERFACE_INCLUDE_DIRECTORIES" (packageConfig semicolonPackage) =
        some [.ofString "/pkgs/libhal/4.1.0/inc", .ofString "api"] ∧
      directories? "INTERFACE_INCLUDE_DIRECTORIES" (packageConfig semicolonPackage) ≠
        some semicolonPackage.includeDirs ∧
      (scanArgument (inQuotes "/pkgs/libhal/4.1.0/inc\\;api").toList).map
          (fun (marks, _) => listItems (String.ofList (marks.flatMap Mark.text))) =
        some ["/pkgs/libhal/4.1.0/inc;api"] := by
  have hdirs : ∀ d ∈ semicolonPackage.includeDirs, d.IsPlain :=
    List.forall_mem_singleton.2 ⟨_, by decide, by decide, rfl⟩
  have hcut : semicolonPackage.includeDirs.flatMap cutAtSemicolons =
      [.ofString "/pkgs/libhal/4.1.0/inc", .ofString "api"] := by
    rw [semicolonPackage, List.flatMap_singleton, cutAtSemicolons, Path.display_ofString]
    decide
  have hread := directories?_packageConfig wellFormed_semicolonPackage List.mem_cons_self hdirs
  rw [hread, hcut]
  exact ⟨hdirs, rfl, by decide, by decide⟩

end CMake

end PackageTrial
