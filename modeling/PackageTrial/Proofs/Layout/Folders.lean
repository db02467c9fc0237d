import PackageTrial.Layout
import PackageTrial.Proofs.Outcome
import PackageTrial.Proofs.Path.Components
import PackageTrial.Proofs.Text.Case

/-!
# The folder of the listed settings

A folder can be named for a variable unless its name is unknown or its value is unfit for a
directory's name (`Layout.Refuses`). The first listed name that is refused decides the error
(`folderParts_eq_error_iff`); if none is, every part of the folder's name names an entry of a
directory (`isEntryName_of_mem_contributions`), and so does the whole (`isEntryName_folderText`).
The layout follows from the folder (`compute_eq_ok_iff`, `compute_eq_error_iff`).
-/

namespace PackageTrial

theorem Settings.Variable.ofName?_eq_some_iff {name : String} {v : Variable} :
    ofName? name = some v ↔ v.name = name := by
  constructor
  · intro h
    simpa using List.find?_some h
  · rintro rfl
    cases v <;> decide

namespace Layout

open Settings
open PackageTrial.Path (IsEntryName)

/-! ## Fit values -/

/-- The value is no plain name: it holds a separator of some system, or is `.` or `..`. -/
def IsUnfit (value : String) : Prop :=
  value ≠ "" ∧ ('/' ∈ value.toList ∨ '\\' ∈ value.toList ∨ value = "." ∨ value = "..")

instance : DecidablePred IsUnfit := fun value =>
  inferInstanceAs (Decidable (value ≠ "" ∧
    ('/' ∈ value.toList ∨ '\\' ∈ value.toList ∨ value = "." ∨ value = "..")))

theorem isPlain_iff {value : String} : isPlain value = true ↔
    '/' ∉ value.toList ∧ '\\' ∉ value.toList ∧ value ≠ "." ∧ value ≠ ".." := by
  simp only [isPlain, Bool.and_eq_true, Bool.not_eq_true', bne_iff_ne, List.any_eq_false,
    Bool.or_eq_true, beq_iff_eq, not_or]
  constructor
  · rintro ⟨⟨hchars, hhere⟩, hup⟩
    exact ⟨fun h => (hchars _ h).1 rfl, fun h => (hchars _ h).2 rfl, hhere, hup⟩
  · rintro ⟨hslash, hback, hhere, hup⟩
    exact ⟨⟨fun c hc => ⟨fun e => hslash (e ▸ hc), fun e => hback (e ▸ hc)⟩, hhere⟩, hup⟩

theorem isUnfit_iff {value : String} : IsUnfit value ↔ value ≠ "" ∧ isPlain value = false := by
  rw [← Bool.not_eq_true, isPlain_iff, IsUnfit]
  tauto

theorem isEntryName_of_isPlain {name : String} (hne : name ≠ "") (h : isPlain name) :
    IsEntryName name := by
  obtain ⟨hslash, -, hhere, hup⟩ := isPlain_iff.1 h
  exact ⟨hne, hhere, hup, hslash⟩

theorem isEntryName_lower {value : String} (h : IsEntryName value) :
    IsEntryName (Text.lower value) where
  ne_empty e := h.ne_empty (Text.lower_eq_empty_iff.1 e)
  ne_here e := h.ne_here ((Text.lower_eq_iff (by simp)).1 e)
  ne_up e := h.ne_up ((Text.lower_eq_iff (by simp)).1 e)
  no_separator hmem := h.no_separator ((Text.mem_toList_lower_iff (by decide)).1 hmem)

theorem isEntryName_buildType (b : BuildType) : IsEntryName b.name := by
  cases b <;> exact ⟨by decide, by decide, by decide, by decide⟩

/-! ## The folder's name -/

/-- The variables of the listed names. -/
def listed (names : List String) : List Variable :=
  names.filterMap Variable.ofName?

/-- What the values of variables contribute to the folder's name. -/
def contributions (s : Settings) (vars : List Variable) : List String :=
  (vars.filter (s.value · ≠ "")).map fun v => Text.lower (s.value v)

/-- The name of the folder for the listed settings; empty where there is none. -/
def folderText (s : Settings) (names : List String) : String :=
  "-".intercalate (contributions s (listed names))

/-- Why no folder can be named for a variable. -/
inductive Refuses (s : Settings) (name : String) : LayoutError → Prop
  | unknown (h : ∀ v : Variable, v.name ≠ name) : Refuses s name (.unknownVariable name)
  | unfit (v : Variable) (hname : v.name = name) (h : IsUnfit (s.value v)) :
    Refuses s name (.unsafeFolderValue name (s.value v))

/-- A folder can be named for a variable of a fit value. -/
theorem refuses_or_fit (s : Settings) (name : String) :
    (∃ e, Refuses s name e) ∨ ∃ v : Variable, v.name = name ∧ ¬ IsUnfit (s.value v) := by
  by_cases hknown : ∃ v : Variable, v.name = name
  · obtain ⟨v, hv⟩ := hknown
    by_cases h : IsUnfit (s.value v)
    · exact .inl ⟨_, .unfit v hv h⟩
    · exact .inr ⟨v, hv, h⟩
  · exact .inl ⟨_, .unknown (not_exists.1 hknown)⟩

theorem not_refuses_of_fit {s : Settings} {name : String} {v : Variable} (hname : v.name = name)
    (hfit : ¬ IsUnfit (s.value v)) (e : LayoutError) : ¬ Refuses s name e := by
  intro h
  cases h with
  | unknown h => exact h v hname
  | unfit w hw h =>
    have hsame := Variable.ofName?_eq_some_iff.2 hname
    rw [Variable.ofName?_eq_some_iff.2 hw] at hsame
    cases hsame
    exact hfit h

/-! ### One name -/

theorem folderParts_of_refuses {s : Settings} {name : String} {e : LayoutError}
    (h : Refuses s name e) (rest : List String) : folderParts s (name :: rest) = .error e := by
  cases h with
  | unknown h =>
    have hlookup : s.lookup? name = none := by
      rw [lookup?, Option.map_eq_none_iff, Option.eq_none_iff_forall_ne_some]
      exact fun v hv => h v (Variable.ofName?_eq_some_iff.1 hv)
    simp only [folderParts, hlookup]
  | unfit v hname h =>
    obtain ⟨hne, hplain⟩ := isUnfit_iff.1 h
    have hlookup : s.lookup? name = some (s.value v) := by
      rw [lookup?, Variable.ofName?_eq_some_iff.2 hname, Option.map_some]
    simp [folderParts, hlookup, hne, hplain]

theorem folderParts_of_fit {s : Settings} {name : String} {v : Variable} (hname : v.name = name)
    (hfit : ¬ IsUnfit (s.value v)) (rest : List String) :
    folderParts s (name :: rest) = (contributions s [v] ++ ·) <$> folderParts s rest := by
  have hlookup : s.lookup? name = some (s.value v) := by
    rw [lookup?, Variable.ofName?_eq_some_iff.2 hname, Option.map_some]
  rw [folderParts, hlookup]
  dsimp only
  by_cases hempty : s.value v = ""
  · have hnone : contributions s [v] = [] := by simp [contributions, hempty]
    rw [if_pos hempty, hnone]
    exact (id_map _).symm
  · have hone : contributions s [v] = [Text.lower (s.value v)] := by simp [contributions, hempty]
    have hplain : isPlain (s.value v) = true := by
      by_contra h
      exact hfit (isUnfit_iff.2 ⟨hempty, by simpa using h⟩)
    rw [if_neg hempty, if_pos hplain, hone]
    rfl

theorem listed_cons {name : String} {v : Variable} (hname : v.name = name) (rest : List String) :
    listed (name :: rest) = v :: listed rest := by
  rw [listed, List.filterMap_cons_some (Variable.ofName?_eq_some_iff.2 hname), listed]

theorem contributions_cons (s : Settings) (v : Variable) (vars : List Variable) :
    contributions s (v :: vars) = contributions s [v] ++ contributions s vars := by
  rw [← List.singleton_append, contributions, List.filter_append, List.map_append]
  rfl

/-! ### All names -/

theorem folderParts_eq_ok_iff {s : Settings} {names parts : List String} :
    folderParts s names = .ok parts ↔
      (∀ name ∈ names, ∀ e, ¬ Refuses s name e) ∧ parts = contributions s (listed names) := by
  induction names generalizing parts with
  | nil =>
    constructor
    · intro h
      cases h
      exact ⟨by simp, rfl⟩
    · rintro ⟨-, rfl⟩
      rfl
  | cons name rest ih =>
    rcases refuses_or_fit s name with ⟨e, he⟩ | ⟨v, hname, hfit⟩
    · rw [folderParts_of_refuses he]
      refine iff_of_false (by simp) fun h => ?_
      exact h.1 name List.mem_cons_self e he
    · rw [folderParts_of_fit hname hfit, Outcome.map_eq_ok_iff, listed_cons hname,
        contributions_cons s v (listed rest), List.forall_mem_cons,
        and_iff_right (not_refuses_of_fit hname hfit)]
      simp only [ih]
      constructor
      · rintro ⟨ps, ⟨hrest, rfl⟩, rfl⟩
        exact ⟨hrest, rfl⟩
      · rintro ⟨hrest, rfl⟩
        exact ⟨_, ⟨hrest, rfl⟩, rfl⟩

/-- The first name that is refused decides the error. -/
theorem folderParts_eq_error_iff {s : Settings} {names : List String} {e : LayoutError} :
    folderParts s names = .error e ↔ ∃ before name after, names = before ++ name :: after ∧
      (∀ n ∈ before, ∀ e', ¬ Refuses s n e') ∧ Refuses s name e := by
  constructor
  · intro h
    induction names with
    | nil => cases h
    | cons name rest ih =>
      rcases refuses_or_fit s name with ⟨e', he'⟩ | ⟨v, hname, hfit⟩
      · rw [folderParts_of_refuses he'] at h
        cases h
        exact ⟨[], name, rest, rfl, by simp, he'⟩
      · rw [folderParts_of_fit hname hfit, Outcome.map_eq_error_iff] at h
        obtain ⟨before, refused, after, rfl, hbefore, hrefused⟩ := ih h
        exact ⟨name :: before, refused, after, rfl,
          List.forall_mem_cons.2 ⟨not_refuses_of_fit hname hfit, hbefore⟩, hrefused⟩
  · rintro ⟨before, name, after, rfl, hbefore, hrefused⟩
    induction before with
    | nil => exact folderParts_of_refuses hrefused after
    | cons n before ih =>
      obtain ⟨hn, hbefore⟩ := List.forall_mem_cons.1 hbefore
      obtain ⟨v, hname, hfit⟩ := (refuses_or_fit s n).resolve_left (not_exists.2 hn)
      rw [List.cons_append, folderParts_of_fit hname hfit, Outcome.map_eq_error_iff]
      exact ih hbefore

theorem isEntryName_of_mem_contributions {s : Settings} {names : List String}
    (h : ∀ name ∈ names, ∀ e, ¬ Refuses s name e) :
    ∀ p ∈ contributions s (listed names), IsEntryName p := by
  intro p hp
  obtain ⟨v, hv, rfl⟩ := List.mem_map.1 hp
  obtain ⟨hlisted, hne⟩ := List.mem_filter.1 hv
  obtain ⟨name, hname, hofName⟩ := List.mem_filterMap.1 hlisted
  have hne : s.value v ≠ "" := by simpa using hne
  refine isEntryName_lower (isEntryName_of_isPlain hne ?_)
  by_contra hplain
  have hunfit := isUnfit_iff.2 ⟨hne, by simpa using hplain⟩
  exact h name hname _ (.unfit v (Variable.ofName?_eq_some_iff.1 hofName) hunfit)

/-- Names joined by dashes are a name. -/
theorem isEntryName_intercalate {parts : List String} (hne : parts ≠ [])
    (h : ∀ p ∈ parts, IsEntryName p) : IsEntryName ("-".intercalate parts) := by
  induction parts with
  | nil => exact absurd rfl hne
  | cons p rest ih =>
    obtain ⟨hp, hrest⟩ := List.forall_mem_cons.1 h
    cases rest with
    | nil => simpa using hp
    | cons q rest =>
      have ht := ih (List.cons_ne_nil _ _) hrest
      rw [String.intercalate_cons_cons]
      generalize "-".intercalate (q :: rest) = t at ht ⊢
      have hdash : '-' ∈ (p ++ "-" ++ t).toList := by simp
      have hne : ∀ name : String, '-' ∉ name.toList → p ++ "-" ++ t ≠ name :=
        fun name hname e => hname (e ▸ hdash)
      refine ⟨hne _ (by simp), hne _ (by simp), hne _ (by simp), ?_⟩
      simp [hp.no_separator, ht.no_separator]

theorem isEntryName_folderText {s : Settings} {names : List String}
    (h : ∀ name ∈ names, ∀ e, ¬ Refuses s name e) (hne : folderText s names ≠ "") :
    IsEntryName (folderText s names) := by
  refine isEntryName_intercalate (fun hnil => hne ?_) (isEntryName_of_mem_contributions h)
  rw [folderText, hnil]
  rfl

/-! ## The layout -/

/-- The directory that holds those of the build types. -/
def folderDir (o : LayoutOptions) (s : Settings) : Path :=
  let base := o.outputRoot.child buildDirName
  let folder := folderText s o.buildFolderVars
  if folder = "" then base else base.child folder

/-- The build directory. -/
def dirOf (o : LayoutOptions) (s : Settings) : Path :=
  if o.multiConfig then folderDir o s else (folderDir o s).child s.buildType.name

theorem folderName_of_fit {s : Settings} {names : List String}
    (h : ∀ name ∈ names, ∀ e, ¬ Refuses s name e) : folderName s names =
      .ok (if folderText s names = "" then none else some (folderText s names)) := by
  have hparts := folderParts_eq_ok_iff.2 ⟨h, rfl⟩
  have hentry := isEntryName_of_mem_contributions h
  unfold folderName folderText
  rw [hparts]
  cases hparts : contributions s (listed names) with
  | nil => rfl
  | cons p rest =>
    rw [hparts] at hentry
    rw [if_neg (isEntryName_intercalate (List.cons_ne_nil p rest) hentry).ne_empty]
    rfl

theorem compute_of_fit {o : LayoutOptions} {s : Settings}
    (h : ∀ name ∈ o.buildFolderVars, ∀ e, ¬ Refuses s name e) :
    compute o s = .ok ⟨o.sourceDir, dirOf o s, (dirOf o s).child generatorsDirName,
      [(folderDir o s).child s.buildType.name]⟩ := by
  unfold compute dirOf folderDir
  rw [folderName_of_fit h]
  by_cases hnone : folderText s o.buildFolderVars = ""
  · rw [if_pos hnone]
    simp only [hnone]
    rfl
  · rw [if_neg hnone]
    simp only [hnone]
    rfl

theorem compute_eq_ok_iff {o : LayoutOptions} {s : Settings} {l : Layout} :
    compute o s = .ok l ↔ (∀ name ∈ o.buildFolderVars, ∀ e, ¬ Refuses s name e) ∧
      l = ⟨o.sourceDir, dirOf o s, (dirOf o s).child generatorsDirName,
        [(folderDir o s).child s.buildType.name]⟩ := by
  constructor
  · intro h
    have hfit : ∀ name ∈ o.buildFolderVars, ∀ e, ¬ Refuses s name e := by
      simp only [compute, folderName, Outcome.bind_eq_ok_iff] at h
      obtain ⟨-, ⟨parts, hparts, -⟩, -⟩ := h
      exact (folderParts_eq_ok_iff.1 hparts).1
    rw [compute_of_fit hfit] at h
    cases h
    exact ⟨hfit, rfl⟩
  · rintro ⟨hfit, rfl⟩
    exact compute_of_fit hfit

theorem compute_eq_error_iff {o : LayoutOptions} {s : Settings} {e : LayoutError} :
    compute o s = .error e ↔
      ∃ before name after, o.buildFolderVars = before ++ name :: after ∧
        (∀ n ∈ before, ∀ e', ¬ Refuses s n e') ∧ Refuses s name e := by
  rw [← folderParts_eq_error_iff]
  unfold compute folderName
  cases folderParts s o.buildFolderVars with
  | error e' => simp [bind, Except.bind]
  | ok parts => cases parts <;> simp [bind, Except.bind, pure, Except.pure]

/-- The component of a folder; none without a name. -/
def folderStep (folder : String) : List Path.Component :=
  if folder = "" then [] else [.name (RawText.ofString folder)]

theorem components_folderDir {o : LayoutOptions} {s : Settings}
    (h : ∀ name ∈ o.buildFolderVars, ∀ e, ¬ Refuses s name e) :
    (folderDir o s).components = o.outputRoot.components ++
      [.name (RawText.ofString buildDirName)] ++ folderStep (folderText s o.buildFolderVars) := by
  have hbuild : IsEntryName buildDirName := ⟨by decide, by decide, by decide, by decide⟩
  unfold folderDir folderStep
  dsimp only
  split
  · rw [Path.components_child hbuild, List.append_nil]
  · rename_i hne
    rw [Path.components_child (isEntryName_folderText h hne), Path.components_child hbuild]

/-! ## Binaries -/

theorem binaryPath_eq_ok_iff {l : Layout} {name : String} {target : Settings} {path : Path} :
    l.binaryPath name target = .ok path ↔ checkBinaryName name = .ok () ∧
      path = l.primaryBinDir.child (name ++ target.os.executableSuffix) := by
  simp only [binaryPath, Outcome.bind_eq_ok_iff]
  constructor
  · rintro ⟨⟨⟩, hname, h⟩
    cases h
    exact ⟨hname, rfl⟩
  · rintro ⟨hname, rfl⟩
    exact ⟨(), hname, rfl⟩

end Layout

end PackageTrial
