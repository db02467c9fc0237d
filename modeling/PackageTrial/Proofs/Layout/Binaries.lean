import PackageTrial.Proofs.Layout.Containment

/-!
# Binaries beside generated files

What entries of one directory hold is apart when their names differ: neither path leads to the other
or below it (`Path.apart_of_entries`). A build tree for several build types keeps its binaries one
directory deeper than the generated files; any other keeps them next to the directory of the
generated files, where nothing but the names tells the two apart. So the binary is apart from all
that is generated, except where it is named like that directory in a tree for one build type and
its file gets no suffix (`binary_below_generators_iff`): then the two are one path
(`binary_meets_generators`).
-/

namespace PackageTrial

namespace Path

/-- The path leads to a directory or below it. -/
def AtOrBelow (p dir : Path) : Prop :=
  dir.components <+: p.components

instance (p dir : Path) : Decidable (p.AtOrBelow dir) :=
  inferInstanceAs (Decidable (dir.components <+: p.components))

/-- Neither path leads to the other or below it. -/
def Apart (p q : Path) : Prop :=
  ¬ p.AtOrBelow q ∧ ¬ q.AtOrBelow p

instance (p q : Path) : Decidable (p.Apart q) :=
  inferInstanceAs (Decidable (¬ p.AtOrBelow q ∧ ¬ q.AtOrBelow p))

theorem atOrBelow_refl (p : Path) : p.AtOrBelow p :=
  List.prefix_refl _

theorem not_atOrBelow_of_components {p q : Path} {front back back' : List Component}
    {c d : Component} (hp : p.components = front ++ c :: back)
    (hq : q.components = front ++ d :: back') (hne : c ≠ d) : ¬ p.AtOrBelow q := by
  rw [AtOrBelow, hp, hq, List.prefix_append_right_inj, List.cons_prefix_cons]
  exact fun h => hne h.1.symm

/-- Paths that part at some component stay apart. -/
theorem apart_of_components {p q : Path} {front back back' : List Component} {c d : Component}
    (hp : p.components = front ++ c :: back) (hq : q.components = front ++ d :: back')
    (hne : c ≠ d) : p.Apart q :=
  ⟨not_atOrBelow_of_components hp hq hne, not_atOrBelow_of_components hq hp hne.symm⟩

/-- What entries of one directory hold is apart when their names differ. -/
theorem apart_of_entries {a b : String} (ha : IsEntryName a) (hb : IsEntryName b) (hne : a ≠ b)
    (base : Path) {p q : Path} (hp : p.AtOrBelow (base.child a)) (hq : q.AtOrBelow (base.child b)) :
    p.Apart q := by
  obtain ⟨back, hp⟩ := hp
  obtain ⟨back', hq⟩ := hq
  rw [components_child ha, List.append_assoc, List.singleton_append] at hp
  rw [components_child hb, List.append_assoc, List.singleton_append] at hq
  exact apart_of_components hp.symm hq.symm fun e =>
    hne (RawText.ofString_injective (Component.name.inj e))

/-- What is apart from a directory is apart from all that it holds. -/
theorem Apart.of_atOrBelow {p dir q : Path} (h : p.Apart dir) (hq : q.AtOrBelow dir) :
    p.Apart q := by
  refine ⟨fun hp => h.1 (hq.trans hp), fun hp => ?_⟩
  exact (List.prefix_or_prefix_of_prefix hq hp).elim h.1 h.2

theorem atOrBelow_child {name : String} (h : IsEntryName name) (base : Path) :
    (base.child name).AtOrBelow base := by
  rw [AtOrBelow, components_child h]
  exact List.prefix_append _ _

theorem apart_child_iff {a b : String} (ha : IsEntryName a) (hb : IsEntryName b) (base : Path) :
    (base.child a).Apart (base.child b) ↔ a ≠ b := by
  constructor
  · rintro h rfl
    exact h.1 (atOrBelow_refl _)
  · exact fun hne => apart_of_entries ha hb hne base (atOrBelow_refl _) (atOrBelow_refl _)

end Path

namespace Layout

open PackageTrial.Path (IsEntryName)

theorem isEntryName_generators : IsEntryName "generators" :=
  ⟨by decide, by decide, by decide, by decide⟩

theorem buildType_ne_generators (b : BuildType) : b.name ≠ "generators" := by
  cases b <;> decide

/-- A binary's file has the name of the directory of generated files only without a suffix. -/
theorem executable_eq_generators_iff {name : String} {os : Os} :
    name ++ os.executableSuffix = "generators" ↔ name = "generators" ∧ os ≠ .windows := by
  rcases eq_or_ne os .windows with rfl | hos
  · refine iff_of_false (fun h => ?_) (fun h => h.2 rfl)
    have hdot : '.' ∈ (name ++ Os.windows.executableSuffix).toList := by
      simp [Os.executableSuffix]
    rw [h] at hdot
    exact absurd hdot (by decide)
  · have hsuffix : os.executableSuffix = "" := by
      cases os <;> first | rfl | exact absurd rfl hos
    rw [hsuffix, String.append_empty, and_iff_left hos]

section

variable {o : LayoutOptions} {s target : Settings} {l : Layout} {name : String} {path : Path}
  (hlayout : compute o s = .ok l) (hpath : l.binaryPath name target = .ok path)
include hlayout hpath

/-- Where a tree serves every build type, the binary is below the directory of its build type, next
to the generated files. -/
theorem apart_of_multiConfig (hmulti : o.multiConfig = true) : path.Apart l.generatorsDir := by
  obtain ⟨hname, rfl⟩ := binaryPath_eq_ok_iff.1 hpath
  have hbinary := isEntryName_executable (isEntryName_of_checkBinaryName hname) target.os
  have hlies := contained_of_compute hlayout
  rw [primaryBinDir, hlies.bin_dirs, if_pos hmulti, List.headD_cons, hlies.generators_dir]
  exact Path.apart_of_entries (isEntryName_buildType s.buildType) isEntryName_generators
    (buildType_ne_generators s.buildType) l.buildDir (Path.atOrBelow_child hbinary _)
    (Path.atOrBelow_refl _)

/-- Where a tree serves one build type, the binary is an entry of the build directory, as the
directory of the generated files is. -/
theorem entry_of_singleConfig (hsingle : o.multiConfig = false) :
    IsEntryName (name ++ target.os.executableSuffix) ∧
      path = l.buildDir.child (name ++ target.os.executableSuffix) := by
  obtain ⟨hname, rfl⟩ := binaryPath_eq_ok_iff.1 hpath
  have hlies := contained_of_compute hlayout
  rw [primaryBinDir, hlies.bin_dirs, if_neg (by simp [hsingle]), List.headD_cons]
  exact ⟨isEntryName_executable (isEntryName_of_checkBinaryName hname) target.os, rfl⟩

/-- The binary is apart from the directory of the generated files, or is that directory. -/
theorem apart_or_collides : path.Apart l.generatorsDir ∧
      ¬ (o.multiConfig = false ∧ name = "generators" ∧ target.os ≠ .windows) ∨
    path = l.generatorsDir ∧
      o.multiConfig = false ∧ name = "generators" ∧ target.os ≠ .windows := by
  cases hmulti : o.multiConfig with
  | true => exact .inl ⟨apart_of_multiConfig hlayout hpath hmulti, by simp⟩
  | false =>
    obtain ⟨hbinary, rfl⟩ := entry_of_singleConfig hlayout hpath hmulti
    rw [(contained_of_compute hlayout).generators_dir, ← executable_eq_generators_iff]
    by_cases hname : name ++ target.os.executableSuffix = "generators"
    · exact .inr ⟨by rw [hname], rfl, hname⟩
    · exact .inl ⟨(Path.apart_child_iff hbinary isEntryName_generators _).2 hname, by simp [hname]⟩

end

/-- **The binary and the generated files.** The path of a binary leads into the directory of the
generated files in one case only: the binary is named like that directory, its file gets no suffix
and the tree serves one build type. Then the two are one path; otherwise the binary is apart from
everything that is generated. -/
theorem binary_below_generators_iff {o : LayoutOptions} {s target : Settings} {l : Layout}
    {name : String} {path : Path} (hlayout : compute o s = .ok l)
    (hpath : l.binaryPath name target = .ok path) :
    (path.AtOrBelow l.generatorsDir ↔
      o.multiConfig = false ∧ name = "generators" ∧ target.os ≠ .windows) ∧
    (path.AtOrBelow l.generatorsDir → path = l.generatorsDir) ∧
    (¬ path.AtOrBelow l.generatorsDir → ∀ file : Path, file.AtOrBelow l.generatorsDir →
      path.Apart file) := by
  rcases apart_or_collides hlayout hpath with ⟨hapart, hnone⟩ | ⟨rfl, hcollides⟩
  · have hout := hapart.1
    exact ⟨iff_of_false hout hnone, fun h => absurd h hout, fun _ _ => hapart.of_atOrBelow⟩
  · have hbelow := Path.atOrBelow_refl l.generatorsDir
    exact ⟨iff_of_true hbelow hcollides, fun _ => rfl, fun h => absurd hbelow h⟩

/-! ### The binary named for the directory -/

namespace Sample

/-- A project with one build tree for every build type, or with one for each. -/
def project (multiConfig : Bool) : LayoutOptions :=
  ⟨.ofString "/work/project", .ofString "/work/project", multiConfig, []⟩

/-- A release build for the usual processor. -/
def released (os : Os) : Settings := Settings.native ⟨os, .x86x64⟩

/-- The directories of a release build in a tree of its own. -/
def releaseLayout : Layout :=
  let dir := Path.ofString "/work/project/build/Release"
  ⟨.ofString "/work/project", dir, dir.child "generators", [dir]⟩

end Sample

open Sample

/-- A suffix keeps the binary apart from the toolchain file. -/
theorem suffixed_binary_apart :
    compute (project false) (released .windows) = .ok releaseLayout ∧
      releaseLayout.binaryPath "generators" (released .windows) =
        .ok (.ofString "/work/project/build/Release/generators.exe") ∧
      (Path.ofString "/work/project/build/Release/generators.exe").Apart
        (releaseLayout.generatorsDir.child "pkgcheck_toolchain.cmake") := by
  have hlayout : compute (project false) (released .windows) = .ok releaseLayout := by
    decide +kernel
  have hpath : releaseLayout.binaryPath "generators" (released .windows) =
      .ok (.ofString "/work/project/build/Release/generators.exe") := by
    decide +kernel
  obtain ⟨hiff, -, hapart⟩ := binary_below_generators_iff hlayout hpath
  have hout := fun h => (hiff.1 h).2.2 rfl
  exact ⟨hlayout, hpath, hapart hout _ (by decide +kernel)⟩

/-- Without a suffix the binary takes the place of the directory. -/
theorem binary_meets_generators :
    ∃ l path, compute (project false) (released .linux) = .ok l ∧
      l.binaryPath "generators" (released .linux) = .ok path ∧ path.AtOrBelow l.generatorsDir :=
  ⟨releaseLayout, releaseLayout.generatorsDir, by decide +kernel, by decide +kernel,
    Path.atOrBelow_refl _⟩

end Layout

end PackageTrial
