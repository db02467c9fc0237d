import PackageTrial.Proofs.Layout.Folders
import PackageTrial.Proofs.Settings.Reachable

/-!
# Directories of different settings

The directory of binaries lies in a folder that is named for the listed settings
(`components_primaryBinDir`), so two builds have one directory exactly when they have one build type
and one name of the folder (`samePlace_iff`). The name joins the values by dashes and does not tell
a dash that joins from one that stands in a value: without dashes in the values it tells all of them
apart, up to letter case (`shares_directory_iff`); with them it does not
(`gcc_shares_directory`).
-/

namespace PackageTrial

theorem BuildType.name_injective : Function.Injective BuildType.name := by
  intro a b h
  cases a <;> cases b <;> first | rfl | simp [name] at h

namespace Layout

open Settings
open PackageTrial.Path (IsEntryName)

theorem folderStep_injective : Function.Injective folderStep := by
  intro a b h
  unfold folderStep at h
  split_ifs at h with ha hb hb
  · rw [ha, hb]
  · exact RawText.ofString_injective (by simpa using h)

theorem isEntryName_of_compute {o : LayoutOptions} {s : Settings} {l : Layout}
    (h : compute o s = .ok l) :
    ∀ p ∈ contributions s (listed o.buildFolderVars), IsEntryName p :=
  isEntryName_of_mem_contributions (compute_eq_ok_iff.1 h).1

theorem components_primaryBinDir {o : LayoutOptions} {s : Settings} {l : Layout}
    (h : compute o s = .ok l) :
    l.primaryBinDir.components = o.outputRoot.components ++
      [.name (RawText.ofString buildDirName)] ++ folderStep (folderText s o.buildFolderVars) ++
        [.name (RawText.ofString s.buildType.name)] := by
  obtain ⟨hfit, rfl⟩ := compute_eq_ok_iff.1 h
  rw [← components_folderDir hfit, ← Path.components_child (isEntryName_buildType _)]
  rfl

/-! ## Directories -/

/-- Two builds have their binaries in one place exactly when they have one build type and one name
of the folder. -/
theorem samePlace_iff {o : LayoutOptions} {s t : Settings} {l k : Layout}
    (hl : compute o s = .ok l) (hk : compute o t = .ok k) :
    l.primaryBinDir.samePlace k.primaryBinDir ↔ s.buildType = t.buildType ∧
      folderText s o.buildFolderVars = folderText t o.buildFolderVars := by
  rw [Path.samePlace, decide_eq_true_iff]
  constructor
  · rw [components_primaryBinDir hl, components_primaryBinDir hk]
    intro h
    obtain ⟨hfolder, htype⟩ := List.append_inj' h rfl
    simp only [List.cons.injEq, Path.Component.name.injEq, and_true] at htype
    exact ⟨BuildType.name_injective (RawText.ofString_injective htype),
      folderStep_injective (List.append_cancel_left hfolder)⟩
  · rintro ⟨htype, hfolder⟩
    rw [components_primaryBinDir hl, components_primaryBinDir hk, htype, hfolder]

/-! ## Values without dashes -/

theorem splitOn_intercalate {parts : List String} (hne : parts ≠ [])
    (h : ∀ p ∈ parts, '-' ∉ p.toList) :
    ("-".intercalate parts).toList.splitOn '-' = parts.map String.toList := by
  rw [String.toList_intercalate]
  exact List.splitOn_intercalate '-' (by simpa using h) (by simpa using hne)

theorem eq_of_intercalate_eq {ps qs : List String}
    (hps : ∀ p ∈ ps, IsEntryName p ∧ '-' ∉ p.toList)
    (hqs : ∀ q ∈ qs, IsEntryName q ∧ '-' ∉ q.toList)
    (h : "-".intercalate ps = "-".intercalate qs) : ps = qs := by
  rcases eq_or_ne ps [] with rfl | hp <;> rcases eq_or_ne qs [] with rfl | hq
  · rfl
  · exact absurd h.symm (isEntryName_intercalate hq fun q hq => (hqs q hq).1).ne_empty
  · exact absurd h (isEntryName_intercalate hp fun p hp => (hps p hp).1).ne_empty
  · have hmap : ps.map String.toList = qs.map String.toList := by
      rw [← splitOn_intercalate hp fun p hp => (hps p hp).2, h,
        splitOn_intercalate hq fun q hq => (hqs q hq).2]
    exact List.map_injective_iff.2 (fun _ _ => String.toList_inj.1) hmap

theorem dash_not_mem_contributions {s : Settings} {vars : List Variable}
    (h : ∀ v ∈ vars, '-' ∉ (s.value v).toList) : ∀ p ∈ contributions s vars, '-' ∉ p.toList := by
  intro p hp
  obtain ⟨v, hv, rfl⟩ := List.mem_map.1 hp
  rw [Text.mem_toList_lower_iff (by decide)]
  exact h v (List.mem_of_mem_filter hv)

/-- Where no variable has a value on the left alone, equal contributions are those of equal
values. -/
theorem values_of_contributions_eq {s t : Settings} {vars : List Variable}
    (h : contributions s vars = contributions t vars)
    (hle : ∀ v, s.value v ≠ "" → t.value v ≠ "") :
    ∀ v ∈ vars, Text.lower (s.value v) = Text.lower (t.value v) := by
  -- There are as many values on both sides, so they are those of the same variables.
  have hsub : (vars.filter (s.value · ≠ "")).Sublist (vars.filter (t.value · ≠ "")) :=
    List.monotone_filter_right vars (by simpa using hle)
  have hlen := congrArg List.length h
  simp only [contributions, List.length_map] at hlen
  have hfilter := hsub.eq_of_length hlen
  rw [contributions, contributions, hfilter, List.map_inj_left] at h
  intro v hv
  by_cases hempty : t.value v = ""
  · have : s.value v = "" := by
      by_contra hne
      exact hle v hne hempty
    rw [this, hempty]
  · exact h v (List.mem_filter.2 ⟨hv, by simpa using hempty⟩)

theorem contributions_eq_iff {s t : Settings} (hs : s.Reachable) (ht : t.Reachable)
    {vars : List Variable} :
    contributions s vars = contributions t vars ↔
      ∀ v ∈ vars, Text.lower (s.value v) = Text.lower (t.value v) := by
  constructor
  · intro h
    -- Only the compiler's version may be missing, on one of the two sides.
    by_cases hversion : t.value .compilerVersion = ""
    · have hle : ∀ v, t.value v ≠ "" → s.value v ≠ "" := fun v hv =>
        hs.value_ne_empty fun e => hv (e ▸ hversion)
      exact fun v hv => (values_of_contributions_eq h.symm hle v hv).symm
    · have hle : ∀ v, s.value v ≠ "" → t.value v ≠ "" := fun v _ => by
        rcases eq_or_ne v .compilerVersion with rfl | hv
        · exact hversion
        · exact ht.value_ne_empty hv
      exact values_of_contributions_eq h hle
  · intro h
    have hfilter : vars.filter (s.value · ≠ "") = vars.filter (t.value · ≠ "") := by
      refine List.filter_congr fun v hv => ?_
      rw [decide_eq_decide, ← Text.lower_eq_empty_iff.ne, h v hv, Text.lower_eq_empty_iff.ne]
    rw [contributions, contributions, hfilter]
    exact List.map_congr_left fun v hv => h v (List.mem_of_mem_filter hv)

/-- **When builds share their directory**: exactly when they have one build type and their values,
joined by dashes, make one name. If no value holds a dash itself, that is when the values are equal
up to letter case. -/
theorem shares_directory_iff {o : LayoutOptions} {s t : Settings} {l k : Layout}
    (hs : s.Reachable) (ht : t.Reachable) (hl : compute o s = .ok l) (hk : compute o t = .ok k) :
    (l.primaryBinDir.samePlace k.primaryBinDir ↔ s.buildType = t.buildType ∧
      folderText s o.buildFolderVars = folderText t o.buildFolderVars) ∧
    ((∀ v ∈ listed o.buildFolderVars, '-' ∉ (s.value v).toList ∧ '-' ∉ (t.value v).toList) →
      (l.primaryBinDir.samePlace k.primaryBinDir ↔ s.buildType = t.buildType ∧
        ∀ v ∈ listed o.buildFolderVars, Text.lower (s.value v) = Text.lower (t.value v))) := by
  refine ⟨samePlace_iff hl hk, fun hdash => ?_⟩
  have hsdash := fun v hv => (hdash v hv).1
  have htdash := fun v hv => (hdash v hv).2
  rw [samePlace_iff hl hk, ← contributions_eq_iff hs ht, folderText, folderText]
  refine and_congr_right fun _ => ⟨eq_of_intercalate_eq ?_ ?_, congrArg _⟩
  · exact fun p hp => ⟨isEntryName_of_compute hl p hp, dash_not_mem_contributions hsdash p hp⟩
  · exact fun p hp => ⟨isEntryName_of_compute hk p hp, dash_not_mem_contributions htdash p hp⟩

/-! ## Two versions of one compiler -/

namespace Sample

/-- A project whose folders are named for the compiler and its version. -/
def options : LayoutOptions :=
  ⟨.ofString "/work/project", .ofString "/work/project", false,
    ["settings.compiler", "settings.compiler.version"]⟩

/-- The directories of a build in a folder. -/
def layoutIn (folder : String) : Layout :=
  let dir := Path.ofString ("/work/project/build/" ++ folder ++ "/Release")
  ⟨.ofString "/work/project", dir, dir.child generatorsDirName, [dir]⟩

/-- A build for the host with a compiler of a version. -/
def build (compiler : String) (version : Option String) : Settings :=
  ⟨.linux, .x86x64, ⟨compiler, version, none⟩, .release⟩

theorem gcc13_reachable : (build "gcc" (some "13.2")).Reachable :=
  .of_assignAll ["compiler.version=13.2"] (by decide +kernel)

theorem gcc14_reachable : (build "gcc" (some "14.1")).Reachable :=
  .of_assignAll ["compiler.version=14.1"] (by decide +kernel)

theorem suffixed_reachable : (build "gcc-13.2" none).Reachable :=
  .of_assignAll ["compiler=gcc-13.2"] (by decide +kernel)

end Sample

open Sample

/-- Two versions of one compiler have directories of their own. -/
theorem gcc_versions_apart :
    ¬ (layoutIn "gcc-13.2").primaryBinDir.samePlace (layoutIn "gcc-14.1").primaryBinDir := by
  have hl : compute options (build "gcc" (some "13.2")) = .ok (layoutIn "gcc-13.2") := by
    decide +kernel
  have hk : compute options (build "gcc" (some "14.1")) = .ok (layoutIn "gcc-14.1") := by
    decide +kernel
  rw [(shares_directory_iff gcc13_reachable gcc14_reachable hl hk).2 (by decide +kernel)]
  decide +kernel

/-- The version of a compiler and a dash in another's name make one directory of two. -/
theorem gcc_shares_directory :
    (build "gcc" (some "13.2")).Reachable ∧ (build "gcc-13.2" none).Reachable ∧
      (∃ v ∈ listed options.buildFolderVars,
        (build "gcc" (some "13.2")).value v ≠ (build "gcc-13.2" none).value v) ∧
      ∃ l k, compute options (build "gcc" (some "13.2")) = .ok l ∧
        compute options (build "gcc-13.2" none) = .ok k ∧
        l.primaryBinDir.samePlace k.primaryBinDir :=
  ⟨gcc13_reachable, suffixed_reachable, ⟨.compiler, by decide +kernel, by decide +kernel⟩,
    layoutIn "gcc-13.2", layoutIn "gcc-13.2", by decide +kernel, by decide +kernel,
    by decide +kernel⟩

end Layout

end PackageTrial
