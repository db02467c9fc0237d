import PackageTrial.Proofs.Capability
import PackageTrial.Proofs.Configuration.Sufficient

/-!
# Emulators of a configuration

A configuration lists emulators under any spelling of an architecture, and the verdict looks for
them under the canonical one. Of several spellings of one architecture the last counts
(`Configuration.emulatorFor_eq_some_iff`), so every emulator is found exactly when the spellings of
one architecture name one command (`Configuration.serves_of_validate`). Validation looks at each
entry alone and lets others pass (`Configuration.twice_loses_emulator`).
-/

namespace PackageTrial

namespace ExecutionSection

/-- The command is listed for the architecture, and none is under a later key. -/
def ListsLast (s : ExecutionSection) (arch : Arch) (command : List String) : Prop :=
  ∃ before key after, s.emulators.entries = before ++ (key, command) :: after ∧
    Arch.parse key = arch ∧ ∀ e ∈ after, Arch.parse e.1 ≠ arch

theorem listsLast_iff {s : ExecutionSection} {arch : Arch} {command : List String} :
    s.ListsLast arch command ↔
      ∃ key, s.emulators.entries.reverse.find? (Arch.parse ·.1 = arch) = some (key, command) := by
  constructor
  · rintro ⟨before, key, after, hentries, hkey, hafter⟩
    exact ⟨key, List.find?_eq_some_iff_append.2 ⟨by simpa using hkey, after.reverse, before.reverse,
      by simp [hentries], by simpa using hafter⟩⟩
  · rintro ⟨key, hfound⟩
    obtain ⟨hkey, after, before, hreverse, hafter⟩ := List.find?_eq_some_iff_append.1 hfound
    have hentries := congrArg List.reverse hreverse
    rw [List.reverse_reverse, List.reverse_append, List.reverse_cons, List.append_assoc] at hentries
    exact ⟨before.reverse, key, after.reverse, hentries, by simpa using hkey, by simpa using hafter⟩

/-- An architecture that is listed at all is listed last by one of its entries. -/
theorem exists_listsLast {s : ExecutionSection} {e : String × List String}
    (he : e ∈ s.emulators.entries) : ∃ e' ∈ s.emulators.entries,
      Arch.parse e'.1 = Arch.parse e.1 ∧ s.ListsLast (Arch.parse e.1) e'.2 := by
  have hsome : (s.emulators.entries.reverse.find? (Arch.parse ·.1 = Arch.parse e.1)).isSome := by
    rw [List.find?_isSome]
    exact ⟨e, List.mem_reverse.2 he, by simp⟩
  obtain ⟨e', hfound⟩ := Option.isSome_iff_exists.1 hsome
  have hsame := List.find?_some hfound
  exact ⟨e', List.mem_reverse.1 (List.mem_of_find?_eq_some hfound), by simpa using hsame,
    listsLast_iff.2 ⟨e'.1, hfound⟩⟩

end ExecutionSection

namespace Configuration

variable {c : Configuration}

theorem get?_overrides (value : String) :
    c.overrides.emulators.get? (Arch.parse value).name =
      (c.execution.emulators.entries.reverse.find? (Arch.parse ·.1 = Arch.parse value)).map (·.2) := by
  have hsame (e : String × List String) :
      (Arch.parse e.1).name = (Arch.parse value).name ↔ Arch.parse e.1 = Arch.parse value :=
    Arch.spells.injOn_name.eq_iff ⟨e.1, rfl⟩ ⟨value, rfl⟩
  rw [overrides, Dictionary.get?_ofList, ← List.map_reverse, List.find?_map, Option.map_map]
  simp only [Function.comp_def, hsame]

/-- **The last entry of an architecture counts**, since no command is so empty as to count as
absent. -/
theorem emulatorFor_eq_some_iff (h : c.execution.validate = .ok ()) {value : String}
    {command : List String} : c.overrides.emulatorFor (Arch.parse value).name = some command ↔
      c.execution.ListsLast (Arch.parse value) command := by
  rw [Overrides.emulatorFor_eq_some_iff, get?_overrides, Option.map_eq_some_iff,
    ExecutionSection.listsLast_iff]
  constructor
  · rintro ⟨⟨⟨key, command⟩, hfound, rfl⟩, -⟩
    exact ⟨key, hfound⟩
  · rintro ⟨key, hfound⟩
    have hmem := List.mem_reverse.1 (List.mem_of_find?_eq_some hfound)
    exact ⟨⟨(key, command), hfound, rfl⟩, ExecutionSection.validate_sound h _ hmem⟩

/-- What a configuration does with the emulators that it lists. -/
structure Serves (c : Configuration) : Prop where
  /-- For every spelling of an architecture the last entry of the architecture is found. -/
  last (value : String) (command : List String) :
    c.overrides.emulatorFor (Arch.parse value).name = some command ↔
      c.execution.ListsLast (Arch.parse value) command
  /-- No emulator is lost exactly when the entries of one architecture have one command. -/
  every : (∀ e ∈ c.execution.emulators.entries,
      c.overrides.emulatorFor (Arch.parse e.1).name = some e.2) ↔
    ∀ e ∈ c.execution.emulators.entries, ∀ e' ∈ c.execution.emulators.entries,
      Arch.parse e.1 = Arch.parse e'.1 → e.2 = e'.2

/-- **What becomes of the emulators of a valid configuration.** -/
theorem serves_of_validate (h : c.validate = .ok ()) : c.Serves := by
  obtain ⟨-, -, -, -, -, hexecution⟩ := validate_eq_ok_iff.1 h
  refine ⟨fun value command => emulatorFor_eq_some_iff hexecution, fun hall e he e' he' hsame => ?_,
    fun hone e he => ?_⟩
  · have hfound := hall e he
    rw [hsame, hall e' he'] at hfound
    exact (Option.some.inj hfound).symm
  · obtain ⟨e', he', hsame, hlast⟩ := ExecutionSection.exists_listsLast he
    rw [hone e he e' he' hsame.symm]
    exact (emulatorFor_eq_some_iff hexecution).2 hlast

/-- Two processors, each with an emulator, one of them under another name than the canonical. -/
def emulating : Configuration :=
  { Configuration.default (.ofString "/work/project") with
    execution := ⟨none, .ofList [("ARM64", ["qemu-aarch64"]),
      ("armv7hf", ["qemu-arm", "-L", "/usr/arm-linux-gnueabihf"])]⟩ }

theorem emulating_serves : emulating.validate = .ok () ∧ emulating.Serves ∧
    emulating.overrides.emulatorFor (Arch.parse "aarch64").name = some ["qemu-aarch64"] := by
  have hvalid : emulating.validate = .ok () := by decide +kernel
  exact ⟨hvalid, serves_of_validate hvalid, by decide +kernel⟩

/-- One processor under two names, with an emulator for each. -/
def twice : Configuration :=
  { Configuration.default (.ofString "/work/project") with
    execution := ⟨none, .ofList [("amd64", ["qemu-x86_64"]), ("x86_64", ["box64"])]⟩ }

/-- The configuration is valid, and one of its emulators is never found. -/
theorem twice_loses_emulator : twice.validate = .ok () ∧
    ("amd64", ["qemu-x86_64"]) ∈ twice.execution.emulators.entries ∧
    twice.overrides.emulatorFor (Arch.parse "amd64").name ≠ some ["qemu-x86_64"] ∧
    twice.overrides.emulatorFor (Arch.parse "amd64").name = some ["box64"] :=
  ⟨by decide +kernel, by decide +kernel, by decide +kernel, by decide +kernel⟩

end Configuration

end PackageTrial
