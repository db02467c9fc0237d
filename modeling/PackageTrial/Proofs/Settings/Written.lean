import PackageTrial.Configuration.Basic
import PackageTrial.Proofs.Settings.Reachable
import PackageTrial.Serialization.Decode
import PackageTrial.Serialization.Encode

/-!
# Settings that are written out

Settings are written in two ways: as the assignments of a section of a configuration
(`Settings.toSection`), and as a record (`Settings.toJson`). Both are read back as the same settings
(`Settings.survive_writing`), and the assignments give them whatever the settings were before: a
value is taken for itself where it was trimmed (`splitAssignment_assignmentText`), a platform is
read again from its spelling, and the compiler is chosen before what belongs to it.
-/

namespace PackageTrial

theorem BuildType.parse?_name (t : BuildType) : parse? t.name = some t := by
  cases t <;> decide +kernel

theorem BuildType.isValue_name (t : BuildType) : IsValue t.name := by
  cases t <;> decide +kernel

namespace Settings

/-! ## Assignments -/

theorem isValue_of_mem_keys : ∀ key ∈ keys, IsValue key ∧ '=' ∉ key.toList := by
  decide +kernel

theorem splitAssignment_assignmentText {key value : String} (hkey : key ∈ keys)
    (hvalue : IsValue value) : splitAssignment (assignmentText key value) = .ok (key, value) := by
  obtain ⟨hname, hsep⟩ := isValue_of_mem_keys key hkey
  have hcut : Text.cut '=' (assignmentText key value) = some (key, value) :=
    Text.cut_eq_some_iff.2 ⟨by simp [assignmentText], hsep⟩
  simp [splitAssignment, hcut, hname.trim_eq, hname.ne_empty, hvalue.trim_eq, hvalue.ne_empty]

theorem assignAll_text_cons {t t' : Settings} {key value : String} (hkey : key ∈ keys)
    (hvalue : IsValue value) (h : Puts t value key t') (rest : List String) :
    t.assignAll (assignmentText key value :: rest) = t'.assignAll rest := by
  have hassign := assign_eq_ok_iff.2 ⟨key, value, splitAssignment_assignmentText hkey hvalue, h⟩
  simp [assignAll, assignUpTo, hassign]

/-- A value that need not be given is assigned when it is; `put` tells what comes of either. -/
theorem assignAll_optional {key : String} {value : Option String} (hkey : key ∈ keys)
    (hvalue : ∀ v ∈ value, IsValue v) (put : Option String → Settings)
    (h : ∀ v, Puts (put none) v key (put (some v))) (rest : List String) :
    (put none).assignAll ((value.map (assignmentText key)).toList ++ rest) =
      (put value).assignAll rest := by
  cases value with
  | none => rfl
  | some v => exact assignAll_text_cons hkey (hvalue v rfl) (h v) rest

/-- The section of a configuration that asks for the settings. -/
def toSection (s : Settings) : SettingsSection :=
  ⟨some s.os.name, some s.arch.name, some s.compiler.name, s.compiler.version, s.compiler.libcxx,
    some s.buildType.name⟩

theorem assignments_toSection (s : Settings) :
    s.toSection.assignments =
      assignmentText "os" s.os.name :: assignmentText "arch" s.arch.name ::
      assignmentText "compiler" s.compiler.name ::
      ((s.compiler.version.map (assignmentText "compiler.version")).toList ++
      ((s.compiler.libcxx.map (assignmentText "compiler.libcxx")).toList ++
      [assignmentText "build_type" s.buildType.name])) := by
  cases hversion : s.compiler.version <;> cases hlibcxx : s.compiler.libcxx <;>
    simp [SettingsSection.assignments, toSection, hversion, hlibcxx]

theorem assignAll_toSection {s : Settings} (hs : s.Spelled) (t : Settings) :
    t.assignAll s.toSection.assignments = .ok s := by
  have hos : Puts t s.os.name "os" ⟨s.os, t.arch, t.compiler, t.buildType⟩ := by
    have h : Puts t s.os.name "os" _ := .os
    rwa [Os.spells.parse_name hs.os] at h
  have harch (u : Settings) :
      Puts u s.arch.name "arch" ⟨u.os, s.arch, u.compiler, u.buildType⟩ := by
    have h : Puts u s.arch.name "arch" _ := .arch
    rwa [Arch.spells.parse_name hs.arch] at h
  have hbuildType (u : Settings) :
      Puts u s.buildType.name "build_type" ⟨u.os, u.arch, u.compiler, s.buildType⟩ :=
    .buildType s.buildType.parse?_name
  rw [assignments_toSection,
    assignAll_text_cons (by decide) (Os.spells.isValue_name hs.os) hos,
    assignAll_text_cons (by decide) (Arch.spells.isValue_name hs.arch) (harch _),
    assignAll_text_cons (by decide) hs.compiler .compiler]
  -- The compiler is chosen now, so the version and the library start from nothing, whatever `t`
  -- had.
  have hversion := assignAll_optional (by decide) hs.version
    (fun version => ⟨s.os, s.arch, ⟨s.compiler.name, version, none⟩, t.buildType⟩)
    (fun _ => .version)
  have hlibcxx := assignAll_optional (by decide) hs.libcxx
    (fun libcxx => ⟨s.os, s.arch, ⟨s.compiler.name, s.compiler.version, libcxx⟩, t.buildType⟩)
    (fun _ => .libcxx)
  simp only [Compiler.named, hversion, hlibcxx]
  rw [assignAll_text_cons (by decide) s.buildType.isValue_name (hbuildType _), assignAll_nil]

end Settings

/-! ## Records -/

section Records

open Decoding

theorem Os.decode_name {os : Os} (h : IsRead parse os) : decode (.string os.name) = .ok os := by
  simp [decode, string, (spells.isValue_name h).isBlankText_eq_false, spells.parse_name h, bind,
    Except.bind, pure, Except.pure]

theorem Arch.decode_name {arch : Arch} (h : IsRead parse arch) :
    decode (.string arch.name) = .ok arch := by
  simp [decode, string, (spells.isValue_name h).isBlankText_eq_false, spells.parse_name h, bind,
    Except.bind, pure, Except.pure]

theorem BuildType.decode_name (t : BuildType) : decode (.string t.name) = .ok t := by
  simp [decode, string, t.parse?_name, bind, Except.bind, pure, Except.pure]

theorem Compiler.decode_toJson (c : Compiler) : decode c.toJson = .ok c := by
  obtain ⟨name, version, libcxx⟩ := c
  cases version <;> cases libcxx <;> rfl

theorem Settings.decode_toJson {s : Settings} (hs : s.Spelled) : decode s.toJson = .ok s := by
  simp [decode, toJson, record, checkGiven, Member.check, Member.get, Os.decode_name hs.os,
    Arch.decode_name hs.arch, s.compiler.decode_toJson, s.buildType.decode_name, bind, Except.bind,
    pure, Except.pure]

end Records

/-! ## Both -/

namespace Settings

/-- Settings that are read back from what is written of them. -/
structure Survives (s : Settings) : Prop where
  /-- Whatever the settings were before, the assignments of their section give these. -/
  assigned (t : Settings) : t.assignAll s.toSection.assignments = .ok s
  decoded : decode s.toJson = .ok s

/-- **Settings survive being written out**, and so does every platform that can be read. -/
theorem survive_writing : (∀ s : Settings, s.Reachable → s.Survives) ∧
    (∀ value, Os.parse (Os.parse value).name = Os.parse value) ∧
    ∀ value, Arch.parse (Arch.parse value).name = Arch.parse value :=
  ⟨fun _ hs => ⟨assignAll_toSection hs.spelled, decode_toJson hs.spelled⟩,
    Os.spells.parse_name_parse, Arch.spells.parse_name_parse⟩

/-- Firmware for a system of another name, built by a compiler with blanks and `=` in its name. -/
def unusual : Settings :=
  ⟨.other "rtos=7", .cortexM "m4f", ⟨"gcc -x = c++", some "13 . 2", none⟩, .minSizeRel⟩

theorem unusual_reachable : unusual.Reachable :=
  .of_assignAll [" os = RTOS=7 ", "arch=\tCortex-M4F", "compiler= gcc -x = c++ ",
    "compiler.version=13 . 2", "build_type=minsizerel"] (by decide +kernel)

theorem unusual_survives : unusual.Reachable ∧ unusual.Survives :=
  ⟨unusual_reachable, survive_writing.1 unusual unusual_reachable⟩

end Settings

end PackageTrial
