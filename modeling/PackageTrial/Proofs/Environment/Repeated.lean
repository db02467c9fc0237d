import PackageTrial.Proofs.Environment.PathLists
import Mathlib.Data.List.Basic

/-!
# Repeated overlays

An overlay changes nothing in an environment in which it was applied before
(`Overlay.resolve_applied`). Variables are renewed one by one, so this is a fact about the edits of
one variable (`foldl_renewed_foldl`). If one of them sets or unsets it, what the variable was before
does not matter. Otherwise no edit loses an entry, and at the end every path that was put there is
either an entry or cannot be one (`Edit.Settled`), so a second run finds nothing to add; and the
last edit spells the same entries in the same way.
-/

namespace PackageTrial

open PathList

namespace Edit

/-- The edit puts a path into a list that has no use for it: the path is there or is no entry. -/
def Settled (list : List RawText) (edit : Edit) : Prop :=
  ∃ path, edit.path? = some path ∧ ¬ Admits list path

theorem Settled.mono {list list' : List RawText} {edit : Edit} (h : edit.Settled list)
    (hsub : list ⊆ list') : edit.Settled list' := by
  obtain ⟨path, hpath, hno⟩ := h
  exact ⟨path, hpath, fun hadmits => hno ⟨hadmits.1, fun entry he => hadmits.2 entry (hsub he)⟩⟩

theorem edited_of_settled {list : List RawText} {edit : Edit} (h : edit.Settled list)
    (key : String) : edited key list edit = list := by
  obtain ⟨path, hpath, hno⟩ := h
  rcases edited_path key list hpath with h | ⟨hadmits, -⟩
  · exact h
  · exact absurd hadmits hno

variable {edit : Edit} {path : Path} {value value' : Option RawText}

theorem listed_renewed_of_settled (h : edit.Settled (listed value)) :
    listed (edit.renewed value) = listed value := by
  rw [listed_renewed, edited_of_settled h]

theorem subset_listed_renewed (h : edit.path? = some path) (value : Option RawText) :
    listed value ⊆ listed (edit.renewed value) := by
  rw [listed_renewed]
  rcases edited_path edit.key (listed value) h with h | ⟨-, h | h⟩ <;> rw [h] <;> simp

/-- What a path edit does to any value, told by how it puts its path into a list: it writes the
entries that are there, with the path among them where that is missing. -/
theorem exists_insertion (h : edit.path? = some path) :
    ∃ insertion : List RawText → List RawText, (∀ list, path.raw ∈ insertion list) ∧
      (∀ list, Admits list path → edited edit.key list edit = insertion list) ∧
      ∀ value, edit.renewed value = some (PathList.value
        (if contains (listed value) path then listed value else insertion (listed value))) := by
  cases edit with
  | set k new => cases h
  | unset k => cases h
  | prepend k p =>
    cases h
    exact ⟨(path.raw :: ·), by simp, fun list hadmits => if_pos ⟨rfl, hadmits⟩, fun value => rfl⟩
  | append k p =>
    cases h
    exact ⟨(· ++ [path.raw]), by simp, fun list hadmits => if_pos ⟨rfl, hadmits⟩, fun value => rfl⟩

/-- A path that a list admits is an entry afterwards. -/
theorem mem_listed_renewed (h : edit.path? = some path) (hadmits : Admits (listed value) path) :
    path.raw ∈ listed (edit.renewed value) := by
  obtain ⟨insertion, hmem, hedited, -⟩ := exists_insertion h
  rw [listed_renewed, hedited _ hadmits]
  exact hmem _

theorem settled_renewed (h : edit.path? = some path) (value : Option RawText) :
    edit.Settled (listed (edit.renewed value)) := by
  by_cases hadmits : Admits (listed value) path
  · exact ⟨path, h, fun hagain => hagain.2 path.raw (mem_listed_renewed h hadmits) rfl⟩
  · exact Settled.mono ⟨path, h, hadmits⟩ (subset_listed_renewed h value)

/-- An edit that is no path edit makes the same of any value. -/
theorem renewed_of_path?_eq_none (h : edit.path? = none) :
    edit.renewed value = edit.renewed value' := by
  cases edit with
  | set k new => rfl
  | unset k => rfl
  | prepend k p => cases h
  | append k p => cases h

/-- A path edit makes the same of values that list the same entries. -/
theorem renewed_congr (h : edit.path? = some path) (hlisted : listed value = listed value') :
    edit.renewed value = edit.renewed value' := by
  obtain ⟨insertion, -, -, hrenewed⟩ := exists_insertion h
  rw [hrenewed, hrenewed, hlisted]

/-- Where the path is already there, the entries are written as they are. -/
theorem renewed_of_contains (h : edit.path? = some path)
    (hthere : contains (listed value) path = true) :
    edit.renewed value = some (PathList.value (listed value)) := by
  obtain ⟨insertion, -, -, hrenewed⟩ := exists_insertion h
  rw [hrenewed, if_pos hthere]

/-- Where the path is new, the entries are written with it among them. -/
theorem renewed_of_admits (h : edit.path? = some path) (hadmits : Admits (listed value) path) :
    edit.renewed value = some (PathList.value (listed (edit.renewed value))) := by
  obtain ⟨insertion, -, hedited, hrenewed⟩ := exists_insertion h
  have hnew : ¬ contains (listed value) path = true := by
    simp [contains_eq_false_iff.2 hadmits.2]
  rw [listed_renewed, hedited _ hadmits, hrenewed, if_neg hnew]

/-- The same edit made once more changes nothing. -/
theorem renewed_renewed (edit : Edit) (value : Option RawText) :
    edit.renewed (edit.renewed value) = edit.renewed value := by
  cases hpath : edit.path? with
  | none => exact renewed_of_path?_eq_none hpath
  | some path =>
    by_cases hadmits : Admits (listed value) path
    · have hthere : contains (listed (edit.renewed value)) path = true :=
        List.any_eq_true.2 ⟨path.raw, mem_listed_renewed hpath hadmits, by simp [Path.samePlace]⟩
      rw [renewed_of_contains hpath hthere]
      exact (renewed_of_admits hpath hadmits).symm
    · exact renewed_congr hpath (listed_renewed_of_settled ⟨path, hpath, hadmits⟩)

/-! ## Runs of edits of one variable -/

theorem subset_listed_foldl {edits : List Edit} (h : ∀ edit ∈ edits, edit.path? ≠ none)
    (value : Option RawText) : listed value ⊆ listed (edits.foldl renewed value) := by
  induction edits generalizing value with
  | nil => exact List.Subset.refl _
  | cons edit rest ih =>
    obtain ⟨hedit, hrest⟩ := List.forall_mem_cons.1 h
    obtain ⟨path, hpath⟩ := Option.ne_none_iff_exists'.1 hedit
    exact List.Subset.trans (subset_listed_renewed hpath value) (ih hrest _)

/-- After path edits each of them is settled, the later ones having kept what it put there. -/
theorem settled_foldl {edits : List Edit} (h : ∀ edit ∈ edits, edit.path? ≠ none)
    (value : Option RawText) :
    ∀ edit ∈ edits, edit.Settled (listed (edits.foldl renewed value)) := by
  induction edits generalizing value with
  | nil => simp
  | cons edit rest ih =>
    obtain ⟨hedit, hrest⟩ := List.forall_mem_cons.1 h
    obtain ⟨path, hpath⟩ := Option.ne_none_iff_exists'.1 hedit
    refine List.forall_mem_cons.2 ⟨?_, ih hrest _⟩
    exact (settled_renewed hpath value).mono (subset_listed_foldl hrest _)

theorem listed_foldl_of_settled {edits : List Edit} {value : Option RawText}
    (h : ∀ edit ∈ edits, edit.Settled (listed value)) :
    listed (edits.foldl renewed value) = listed value := by
  induction edits generalizing value with
  | nil => rfl
  | cons edit rest ih =>
    obtain ⟨hedit, hrest⟩ := List.forall_mem_cons.1 h
    have hsame := listed_renewed_of_settled hedit
    rw [List.foldl_cons, ih (by rwa [hsame]), hsame]

/-- Where an edit sets or unsets the variable, its value before the edits does not matter. -/
theorem foldl_eq_of_path?_eq_none {edits : List Edit} (h : ∃ edit ∈ edits, edit.path? = none)
    (value value' : Option RawText) :
    edits.foldl renewed value = edits.foldl renewed value' := by
  induction edits generalizing value value' with
  | nil => simp at h
  | cons edit rest ih =>
    rw [List.foldl_cons, List.foldl_cons]
    obtain ⟨x, hx, hpath⟩ := h
    rcases List.mem_cons.1 hx with rfl | hx
    · rw [renewed_of_path?_eq_none hpath]
    · exact ih ⟨x, hx, hpath⟩ _ _

/-- **Edits of one variable made twice do what they do once.** -/
theorem foldl_renewed_foldl (edits : List Edit) (value : Option RawText) :
    edits.foldl renewed (edits.foldl renewed value) = edits.foldl renewed value := by
  rcases edits.eq_nil_or_concat' with rfl | ⟨earlier, last, rfl⟩
  · rfl
  by_cases hpaths : ∀ edit ∈ earlier ++ [last], edit.path? ≠ none
  · obtain ⟨path, hpath⟩ := Option.ne_none_iff_exists'.1 (hpaths last (by simp))
    have hsettled := settled_foldl hpaths value
    simp only [List.foldl_append, List.foldl_cons, List.foldl_nil] at hsettled ⊢
    -- The second run adds nothing before the last edit, which then writes what it wrote before.
    have hlisted := listed_foldl_of_settled fun edit he =>
      hsettled edit (List.mem_append_left _ he)
    rw [renewed_congr hpath hlisted, renewed_renewed]
  · refine foldl_eq_of_path?_eq_none ?_ _ _
    simpa using hpaths

end Edit

namespace Overlay

/-- **An overlay applied once more changes nothing**: in an environment that it prepared it makes of
every variable, byte for byte, what it made of it before. -/
theorem resolve_applied (o : Overlay) (base : Snapshot) :
    o.resolve (o.applied base) = o.resolve base ∧
      ∀ key, (o.applied (o.applied base)).get? key = (o.applied base).get? key := by
  have hvalue : ∀ key, o.valueAt (o.applied base) key = o.valueAt base key := fun key => by
    rw [valueAt_eq_foldl, get?_applied, valueAt_eq_foldl, Edit.foldl_renewed_foldl]
  refine ⟨Dictionary.ext_get? fun key => ?_, fun key => ?_⟩
  · rw [get?_resolve, hvalue, get?_resolve]
  · rw [get?_applied, hvalue, get?_applied]

end Overlay

end PackageTrial
