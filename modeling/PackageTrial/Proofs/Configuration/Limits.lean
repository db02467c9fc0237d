import PackageTrial.Proofs.Configuration.Sufficient
import PackageTrial.Proofs.Path.Components
import PackageTrial.Proofs.Text.Display

/-!
# Limits of paths

The values of a configuration that are paths (`Configuration.pathValues`) are limited in length, as
a whole and by component. What validation measures is the value without the blanks around it, while
the value is used as it was given. So the limits hold but for these blanks
(`Configuration.bounded_of_validate`): a value without blanks around it keeps them, and one that is
padded may exceed them by as much as it is padded (`Configuration.padded_exceeds_limits`).
-/

namespace PackageTrial

/-! ## Bounded paths -/

/-- How many bytes the blanks around a text have. -/
def Text.padding (s : String) : Nat := s.utf8ByteSize - (trim s).utf8ByteSize

namespace Path

/-- The path is within the limits, but for some bytes more. -/
structure Bounded (slack : Nat) (p : Path) : Prop where
  total : p.raw.length ≤ Validation.maxPathLength + slack
  component : ∀ c ∈ p.components, c.raw.length ≤ Validation.maxComponentLength + slack

theorem raw_of_step? {piece : RawText} {c : Component} (h : step? piece = some c) :
    c.raw = piece := by
  unfold step? at h
  split_ifs at h with hnone hup <;> cases h
  · exact hup.symm
  · rfl

theorem length_le_of_step?_eq_none {piece : RawText} (h : step? piece = none) :
    piece.length ≤ 1 := by
  unfold step? at h
  split_ifs at h with hnone hup
  rcases hnone with rfl | rfl
  · exact Nat.zero_le 1
  · exact Nat.le_refl 1

theorem length_raw_of_mem_lead {p : Path} {first : RawText} {c : Component}
    (h : c ∈ p.lead first) : c.raw.length = 1 := by
  unfold lead at h
  split_ifs at h
  · rw [List.mem_singleton.1 h]
    rfl
  · rw [List.mem_singleton.1 h]
    rfl
  · cases h

/-- A bound on components is one on the pieces between separators. -/
theorem component_le_iff {p : Path} {n : Nat} (hn : 1 ≤ n) :
    (∀ c ∈ p.components, c.raw.length ≤ n) ↔ ∀ q ∈ Text.pieces separator p.raw, q.length ≤ n := by
  obtain ⟨first, rest, hpieces⟩ := List.exists_cons_of_ne_nil (Text.pieces_ne_nil separator p.raw)
  rw [components_of_pieces hpieces]
  constructor
  · intro h q hq
    cases hstep : step? q with
    | none => exact (length_le_of_step?_eq_none hstep).trans hn
    | some c =>
      rw [← raw_of_step? hstep]
      exact h c (List.mem_append_right _ (List.mem_filterMap.2 ⟨q, hq, hstep⟩))
  · intro h c hc
    rcases List.mem_append.1 hc with hc | hc
    · exact (length_raw_of_mem_lead hc).le.trans hn
    · obtain ⟨q, hq, hstep⟩ := List.mem_filterMap.1 hc
      rw [raw_of_step? hstep]
      exact h q hq

theorem separator_not_mem_of_isBlankText {s : String} (h : Text.isBlankText s = true) :
    separator ∉ RawText.ofString s := by
  rw [separator_mem_ofString_iff]
  intro hmem
  exact absurd (List.all_eq_true.1 h _ hmem) (by decide)

/-- In bytes, a text is what is trimmed between what is padding, which holds no separator. -/
theorem exists_padding (s : String) : ∃ front back : RawText,
    RawText.ofString s = front ++ RawText.ofString (Text.trim s) ++ back ∧
      separator ∉ front ∧ separator ∉ back ∧ Text.padding s = front.length + back.length := by
  obtain ⟨front, back, hsplit, hfront, hback⟩ := Text.exists_trim s
  have hbytes : RawText.ofString s = RawText.ofString front ++
      RawText.ofString (Text.trim s) ++ RawText.ofString back := by
    conv_lhs => rw [hsplit]
    rw [RawText.ofString_append, RawText.ofString_append]
  refine ⟨_, _, hbytes, separator_not_mem_of_isBlankText hfront,
    separator_not_mem_of_isBlankText hback, ?_⟩
  have hlength := congrArg List.length hbytes
  simp only [List.length_append, RawText.length_ofString] at hlength
  rw [Text.padding, RawText.length_ofString, RawText.length_ofString]
  omega

/-- Blanks around a path take it as far out of the limits as there are bytes of them. -/
theorem bounded_of_trim {p : Path} (h : (ofString (Text.trim p.display)).Bounded 0) :
    p.Bounded (Text.padding p.display) := by
  obtain ⟨front, back, hbytes, hfront, hback, hpadding⟩ := exists_padding p.display
  constructor
  · -- What is displayed of a path is no shorter than the path.
    have hdisplay : p.raw.length ≤ (RawText.ofString p.display).length :=
      RawText.length_le_display p.raw
    have htotal := h.total
    rw [raw_ofString, Nat.add_zero] at htotal
    rw [hbytes, List.length_append, List.length_append] at hdisplay
    omega
  · have hone : 1 ≤ Validation.maxComponentLength := by decide
    have htrimmed := (component_le_iff hone).1 h.component
    rw [raw_ofString] at htrimmed
    refine (component_le_iff (hone.trans (Nat.le_add_right _ _))).2 fun q hq => ?_
    obtain ⟨shown, hshown, hle⟩ := RawText.exists_piece_display (by decide) hq
    change shown ∈ Text.pieces separator (RawText.ofString p.display) at hshown
    rw [hbytes] at hshown
    obtain ⟨trimmed, hmem, hle'⟩ := Text.exists_piece_between hfront hback hshown
    have hbound := htrimmed trimmed hmem
    omega

end Path

/-! ## Validated paths -/

namespace Validation

theorem checkPath_eq_ok_iff {field : PathField} {text : String} :
    checkPath field text = .ok () ↔ pathFault? text = none := by
  unfold checkPath
  split <;> simp_all

theorem pathFault?_trim (text : String) : pathFault? (Text.trim text) = pathFault? text := by
  rw [pathFault?, pathFault?, Text.trim_trim]

theorem of_pathFault?_eq_none {text : String} (h : pathFault? text = none) :
    Text.trim text ≠ "" ∧ (Path.ofString (Text.trim text)).Bounded 0 := by
  unfold pathFault? at h
  dsimp only at h
  split_ifs at h with hempty hlong hshort
  refine ⟨hempty, ?_, fun c hc => ?_⟩
  · rw [Path.raw_ofString, RawText.length_ofString, Nat.add_zero]
    exact Nat.not_lt.1 hlong
  have hc := List.all_eq_true.1 hshort c hc
  exact (RawText.length_le_display c.raw).trans (of_decide_eq_true hc)

end Validation

namespace Configuration

/-- The values of a configuration that are paths, as they are given: the directories of the
project, of builds and of packages, the command of the build tool and the programs of emulators. -/
def pathValues (c : Configuration) : List Path :=
  c.test.sourceDir :: c.layout.outputDir.toList ++ c.repository.root.toList ++
    [.ofString c.build.cmake] ++
      c.execution.emulators.entries.filterMap fun e => e.2.head?.map .ofString

theorem sourceDir_mem_pathValues (c : Configuration) : c.test.sourceDir ∈ c.pathValues := by
  simp [pathValues]

/-- Validation measures every value that is a path. -/
theorem pathFault?_of_mem_pathValues {c : Configuration} (h : c.validate = .ok ()) :
    ∀ p ∈ c.pathValues, Validation.pathFault? p.display = none := by
  obtain ⟨htest, hlayout, hbuild, hrepository, -, hexecution⟩ := validate_eq_ok_iff.1 h
  intro p hp
  simp only [pathValues, List.mem_cons, List.mem_append, List.not_mem_nil, or_false,
    Option.mem_toList, List.mem_filterMap] at hp
  rcases hp with (((rfl | hp) | hp) | rfl) | ⟨e, he, hprogram⟩
  · simp only [TestSection.validate, Outcome.bind_eq_ok_iff] at htest
    obtain ⟨-, -, ⟨⟩, hpath, -⟩ := htest
    exact Validation.checkPath_eq_ok_iff.1 hpath
  · simp only [LayoutSection.validate, Option.mem_def.1 hp, Outcome.bind_eq_ok_iff] at hlayout
    obtain ⟨⟨⟩, hpath, -⟩ := hlayout
    exact Validation.checkPath_eq_ok_iff.1 hpath
  · simp only [RepositorySection.validate, Option.mem_def.1 hp] at hrepository
    exact Validation.checkPath_eq_ok_iff.1 hrepository
  · simp only [BuildSection.validate, Outcome.bind_eq_ok_iff] at hbuild
    obtain ⟨⟨⟩, hpath, -⟩ := hbuild
    rw [Path.display_ofString]
    exact Validation.checkPath_eq_ok_iff.1 hpath
  · simp only [ExecutionSection.validate, Outcome.bind_eq_ok_iff, Outcome.forM_eq_ok_iff]
      at hexecution
    obtain ⟨-, -, hexecution⟩ := hexecution
    obtain ⟨program, hhead, rfl⟩ := Option.map_eq_some_iff.1 hprogram
    obtain ⟨arguments, hcommand⟩ := List.head?_eq_some_iff.1 hhead
    have hchecked := hexecution e he
    simp only [ExecutionSection.checkEmulator, hcommand, Outcome.bind_eq_ok_iff] at hchecked
    obtain ⟨-, -, ⟨⟩, hpath, -⟩ := hchecked
    rw [Path.display_ofString]
    exact Validation.checkPath_eq_ok_iff.1 hpath

/-- **The limits of paths hold but for the blanks around a value.** Every value of a valid
configuration that is a path is, without the blanks around it, a path within the limits; so the
value as it is used exceeds them by no more bytes than these blanks have. -/
theorem bounded_of_validate {c : Configuration} (h : c.validate = .ok ()) : ∀ p ∈ c.pathValues,
    Text.trim p.display ≠ "" ∧ (Path.ofString (Text.trim p.display)).Bounded 0 ∧
      p.Bounded (Text.padding p.display) := by
  intro p hp
  obtain ⟨hne, hbounded⟩ := Validation.of_pathFault?_eq_none (pathFault?_of_mem_pathValues h p hp)
  exact ⟨hne, hbounded, Path.bounded_of_trim hbounded⟩

/-- A configuration that gives every path there is, some of them between blanks. -/
def spread : Configuration :=
  { Configuration.default (.ofString "/work/app") with
    test := { TestSection.default with sourceDir := .ofString "consumer " }
    layout := ⟨some (.ofString "\t../out  "), false, []⟩
    build := ⟨"cmake3", none, none⟩
    repository := ⟨some (.ofString "/srv/packages")⟩
    execution := ⟨none, .ofList [("armv8", [" qemu-aarch64", "-L", "/usr/aarch64-linux-gnu"])]⟩ }

theorem spread_bounded : spread.validate = .ok () ∧
    (∀ p ∈ spread.pathValues, Text.trim p.display ≠ "" ∧
      (Path.ofString (Text.trim p.display)).Bounded 0 ∧ p.Bounded (Text.padding p.display)) ∧
    spread.pathValues.map (Text.padding ·.display) = [1, 3, 0, 0, 1] := by
  have hvalid : spread.validate = .ok () := by decide +kernel
  exact ⟨hvalid, bounded_of_validate hvalid, by decide +kernel⟩

/-- A project in the directory of the configuration, with blanks after the `.` for it. -/
def padded (blanks : Nat) : Configuration :=
  { Configuration.default (.ofString "/work/app") with
    test := { TestSection.default with
      sourceDir := .ofString ("." ++ .ofList (List.replicate blanks ' ')) } }

theorem raw_padded (blanks : Nat) :
    (padded blanks).test.sourceDir.raw = Path.dot :: List.replicate blanks 0x20 := by
  have hencoded : (List.replicate blanks ' ').flatMap String.utf8EncodeChar =
      List.replicate blanks 0x20 := by
    induction blanks with
    | zero => rfl
    | succ n ih =>
      rw [List.replicate_succ, List.flatMap_cons, ih]
      rfl
  have hdot : RawText.ofString "." = [Path.dot] := by decide
  rw [padded, Path.raw_ofString, RawText.ofString_append, hdot, RawText.ofString_eq_flatMap,
    String.toList_ofList, hencoded]
  rfl

theorem pieces_padded (blanks : Nat) : Text.pieces Path.separator
    (padded blanks).test.sourceDir.raw = [(padded blanks).test.sourceDir.raw] := by
  rw [raw_padded]
  refine Text.pieces_eq_singleton ?_
  rw [List.mem_cons, List.mem_replicate]
  rintro (h | ⟨-, h⟩) <;> exact absurd h (by decide)

theorem validate_padded (blanks : Nat) : (padded blanks).validate = .ok () := by
  have hblank : Text.isBlankText (.ofList (List.replicate blanks ' ')) = true := by
    rw [Text.isBlankText, String.toList_ofList, List.all_eq_true]
    intro c hc
    rw [(List.mem_replicate.1 hc).2]
    decide
  have hdot : ".".toList = ['.'] := by decide
  have htrim : Text.trim ("" ++ "." ++ .ofList (List.replicate blanks ' ')) = "." := by
    refine Text.trim_between rfl hblank fun c hc => ?_
    rw [hdot, List.mem_singleton] at hc
    rw [hc]
    decide
  rw [String.empty_append] at htrim
  have hpath : Validation.checkPath .sourceDir (padded blanks).test.sourceDir.display = .ok () := by
    rw [padded, Path.display_ofString, Validation.checkPath_eq_ok_iff, ← Validation.pathFault?_trim,
      htrim]
    decide +kernel
  have hvalid : (Configuration.default (.ofString "/work/app")).validate = .ok () := by
    decide +kernel
  have hplain : Validation.checkPath .sourceDir TestSection.default.sourceDir.display = .ok () := by
    decide +kernel
  rw [validate, TestSection.validate, Configuration.default, hplain] at hvalid
  rw [validate, TestSection.validate, hpath]
  exact hvalid

/-- The configuration is valid, and the directory of its project is beyond either limit. -/
theorem padded_exceeds_limits : (padded 4096).validate = .ok () ∧
    (padded 4096).test.sourceDir ∈ (padded 4096).pathValues ∧
    Validation.maxPathLength < (padded 4096).test.sourceDir.raw.length ∧
    ∃ c ∈ (padded 4096).test.sourceDir.components,
      Validation.maxComponentLength < c.raw.length := by
  have hlength : (padded 4096).test.sourceDir.raw.length = 4096 + 1 := by
    rw [raw_padded, List.length_cons, List.length_replicate]
  refine ⟨validate_padded 4096, sourceDir_mem_pathValues _, by rw [hlength]; decide, ?_⟩
  by_contra! hshort
  rw [Path.component_le_iff (by decide), pieces_padded] at hshort
  have hle := hshort _ (List.mem_singleton_self _)
  rw [hlength] at hle
  exact absurd hle (by decide)

end Configuration

end PackageTrial
