import PackageTrial.Configuration.Loading
import PackageTrial.Proofs.Outcome
import PackageTrial.Proofs.Path.Components

/-!
# Where a loaded configuration comes from

`Configuration.Origin` tells, for a file that may be named, where a configuration can come from:
from that file or, where none is named, from the usual one; and the defaults stand in for the usual
file alone, when it is missing. What is loaded has such an origin and is valid, and nothing else
keeps a configuration from being loaded but the path of its file (`Configuration.load_eq_ok_iff`).

The file is named by the argument, else by the variable (`Configuration.named?`). A variable whose
value is no text names nothing, as if it were not set, and so the defaults may be loaded although
the variable asks for a file (`Configuration.unreadable_loads_defaults`).
-/

namespace PackageTrial.Configuration

/-- The file that the argument names, or else the variable. -/
def named? (argument : Option Path) (variableValue : Option RawText) : Option Path :=
  argument.or ((variableValue.bind RawText.text?).map .ofString)

/-- The file that is named, or else the usual one. -/
def fileOf (named : Option Path) : Path := named.getD (.ofString defaultFile)

/-- What a configuration may come from when the given file is named, or none. -/
inductive Origin (named : Option Path) (w : Workspace) : Configuration → Prop
  /-- No file is named and the usual one is missing, so everything has its default. -/
  | defaults (unnamed : named = none) (missing : w.has (.ofString defaultFile) = false) :
      Origin named w (.default (directoryOf w (.ofString defaultFile)))
  /-- The file is there, is not too large and holds text, and the text is a configuration. -/
  | file {bytes : ByteArray} {content : String} {c : Configuration}
      (held : w.read (fileOf named) = .ok bytes) (small : bytes.size ≤ maxFileSize)
      (text : String.fromUTF8? bytes = some content)
      (parsed : parse content (directoryOf w (fileOf named)) = .ok c) : Origin named w c

theorem contentOf_eq_ok_iff {bytes : ByteArray} {content : String} :
    contentOf bytes = .ok content ↔
      bytes.size ≤ maxFileSize ∧ String.fromUTF8? bytes = some content := by
  unfold contentOf
  split_ifs with hlarge
  · simp [Nat.not_le.2 hlarge]
  · split <;> simp_all

theorem validated_eq_ok_iff {c c' : Configuration} :
    validated c = .ok c' ↔ c.validate = .ok () ∧ c = c' := by
  simp only [validated, Outcome.bind_eq_ok_iff, Outcome.mapError_eq_ok_iff, Unique.exists_iff]
  exact and_congr_right fun _ => ⟨Except.ok.inj, congrArg Except.ok⟩

theorem directoryOf_defaultFile (w : Workspace) :
    directoryOf w (.ofString defaultFile) = Path.absoluteFrom w.workingPath (.ofString ".") := by
  have hparent : (Path.ofString defaultFile).parent = some Path.blank := by decide +kernel
  simp only [directoryOf, hparent, if_true]

theorem has_of_read {w : Workspace} {path : Path} {bytes : ByteArray}
    (h : w.read path = .ok bytes) : w.has path = true := by
  obtain ⟨entry, hfind, -⟩ := Outcome.bind_eq_ok_iff.1 h
  rw [Workspace.has, hfind]

section Load

variable {argument : Option Path} {variableValue : Option RawText} {w : Workspace}

/-- A name in the variable that is too long is refused as any other path that is. -/
theorem load_eq : load argument variableValue w = (do
    checkFile (fileOf (named? argument variableValue))
    if named? argument variableValue = none ∧ w.has (.ofString defaultFile) = false then
      validated (.default (directoryOf w (.ofString defaultFile)))
    else
      let bytes ← (w.read (fileOf (named? argument variableValue))).mapError .io
      let content ← contentOf bytes
      validated (← parse content (directoryOf w (fileOf (named? argument variableValue))))) := by
  rw [directoryOf_defaultFile]
  unfold load source named? fileOf
  -- Only for a name in the variable does the length count twice, with the same outcome.
  cases argument with
  | some file => simp [bind, Except.bind]
  | none =>
    cases variableValue.bind RawText.text? with
    | none => simp [bind, Except.bind]
    | some name =>
      by_cases hlong : Validation.maxPathLength < name.utf8ByteSize
      · have hrefused : checkFile (.ofString name) = .error (.invalid (.filePath .tooLong)) := by
          rw [checkFile, Path.display_ofString, if_pos hlong]
        simp [hlong, hrefused, bind, Except.bind]
      · simp [hlong, bind, Except.bind]

theorem load_eq_ok_iff {c : Configuration} : load argument variableValue w = .ok c ↔
    Origin (named? argument variableValue) w c ∧ c.validate = .ok () ∧
      checkFile (fileOf (named? argument variableValue)) = .ok () := by
  rw [load_eq]
  generalize named? argument variableValue = named
  simp only [Outcome.bind_eq_ok_iff, Unique.exists_iff]
  constructor
  · rintro ⟨hfile, h⟩
    split_ifs at h with hnone
    · obtain ⟨hvalid, rfl⟩ := validated_eq_ok_iff.1 h
      exact ⟨.defaults hnone.1 hnone.2, hvalid, hfile⟩
    · simp only [Outcome.bind_eq_ok_iff, Outcome.mapError_eq_ok_iff] at h
      obtain ⟨bytes, hread, content, hcontent, c', hparsed, h⟩ := h
      obtain ⟨hvalid, rfl⟩ := validated_eq_ok_iff.1 h
      obtain ⟨hsmall, htext⟩ := contentOf_eq_ok_iff.1 hcontent
      exact ⟨.file hread hsmall htext hparsed, hvalid, hfile⟩
  · rintro ⟨horigin, hvalid, hfile⟩
    refine ⟨hfile, ?_⟩
    cases horigin with
    | defaults hnone hmissing =>
      rw [if_pos ⟨hnone, hmissing⟩]
      exact validated_eq_ok_iff.2 ⟨hvalid, rfl⟩
    | @file bytes content c hread hsmall htext hparsed =>
      have hhas : ¬ (named = none ∧ w.has (.ofString defaultFile) = false) := by
        rintro ⟨rfl, hmissing⟩
        exact absurd (has_of_read hread) (by simpa [fileOf] using hmissing)
      rw [if_neg hhas]
      simp only [Outcome.bind_eq_ok_iff, Outcome.mapError_eq_ok_iff]
      exact ⟨bytes, hread, content, contentOf_eq_ok_iff.2 ⟨hsmall, htext⟩, c, hparsed,
        validated_eq_ok_iff.2 ⟨hvalid, rfl⟩⟩

/-! ## The file that is asked for -/

/-- The file that the argument asks for, or else the variable, be its value text or not. -/
def asked? (argument : Option Path) (variableValue : Option RawText) : Option Path :=
  argument.or (variableValue.map Path.mk)

/-- Where it counts, the value of the variable is text. -/
def Readable (argument : Option Path) (variableValue : Option RawText) : Prop :=
  argument = none → ∀ raw ∈ variableValue, ∃ name, RawText.ofString name = raw

theorem named?_eq_asked?_iff :
    named? argument variableValue = asked? argument variableValue ↔
      Readable argument variableValue := by
  unfold named? asked? Readable
  cases argument with
  | some file => simp
  | none =>
    cases variableValue with
    | none => simp
    | some raw =>
      simp only [Option.none_or, Option.bind_some, Option.map_some, true_imp_iff,
        Option.mem_def, Option.some.injEq, forall_eq']
      constructor
      · intro h
        obtain ⟨name, hname, -⟩ := Option.map_eq_some_iff.1 h
        exact ⟨name, RawText.ofString_of_text? hname⟩
      · rintro ⟨name, rfl⟩
        rw [RawText.text?_ofString]
        rfl

/-- What becomes of a demand for a configuration. -/
structure Answers (argument : Option Path) (variableValue : Option RawText) (w : Workspace) :
    Prop where
  /-- What is loaded has its origin in the file that is named, and is valid; and all such is. -/
  loaded (c : Configuration) : load argument variableValue w = .ok c ↔
    Origin (named? argument variableValue) w c ∧ c.validate = .ok () ∧
      checkFile (fileOf (named? argument variableValue)) = .ok ()
  /-- The file that is named is the one that is asked for, unless the variable asks with what is no
  text. -/
  heeded : named? argument variableValue = asked? argument variableValue ↔
    Readable argument variableValue
  /-- Nothing is loaded in place of a file that is asked for with text. -/
  faithful (readable : Readable argument variableValue) (c : Configuration)
    (h : load argument variableValue w = .ok c) : Origin (asked? argument variableValue) w c

/-- **What is loaded comes from the file that is named**, and the defaults stand in for the usual
file alone. -/
theorem load_answers (argument : Option Path) (variableValue : Option RawText) (w : Workspace) :
    Answers argument variableValue w where
  loaded _ := load_eq_ok_iff
  heeded := named?_eq_asked?_iff
  faithful readable _ h := named?_eq_asked?_iff.2 readable ▸ (load_eq_ok_iff.1 h).1

/-- The variable asks for a file with a byte that is no text, and the defaults are loaded, although
such a file is not there. -/
theorem unreadable_loads_defaults :
    load none (some [0xFF]) ⟨[], []⟩ = .ok (.default (.ofString "/")) ∧
      Workspace.read ⟨[], []⟩ ⟨[0xFF]⟩ = .error .missing ∧
      ¬ Origin (asked? none (some [0xFF])) ⟨[], []⟩ (.default (.ofString "/")) := by
  have hread : Workspace.read ⟨[], []⟩ ⟨[0xFF]⟩ = .error .missing := by decide +kernel
  refine ⟨by decide +kernel, hread, fun h => ?_⟩
  cases h with
  | defaults hnone => cases hnone
  | file hheld =>
    have hheld : Workspace.read ⟨[], []⟩ ⟨[0xFF]⟩ = .ok _ := hheld
    rw [hread] at hheld
    cases hheld

end Load

end PackageTrial.Configuration
