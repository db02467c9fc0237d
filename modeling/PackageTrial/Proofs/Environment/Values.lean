import PackageTrial.Environment
import PackageTrial.Proofs.Dictionary
import PackageTrial.Proofs.Text.Cut
import PackageTrial.Proofs.Text.Raw

/-!
# Values of edited variables

What an edit makes of its variable depends on the value of that variable alone (`Edit.renewed`), so
what an overlay makes of a variable follows from the value that it had and from the edits of it
(`Overlay.valueAt_eq_foldl`). The result of an overlay tells of the variables of its edits, and of
each the value that it has afterwards (`Overlay.get?_resolve`). The environment in which this is
done has these values (`Overlay.get?_applied`).
-/

namespace PackageTrial

namespace PathList

/-- The entries of a variable's value: what stands between separators and is not empty. A variable
without a value has none. -/
def listed (value : Option RawText) : List RawText :=
  ((value.getD []).splitOn separator).filter (· ≠ [])

theorem entries_eq_listed (value : RawText) : entries value = listed (some value) := by
  rw [entries, Text.pieces_eq_splitOn]
  rfl

end PathList

/-- What an edit makes of the value of its variable. -/
def Edit.renewed (value : Option RawText) : Edit → Option RawText
  | .set _ new => some (RawText.ofString new)
  | .unset _ => none
  | .prepend _ path =>
    let list := PathList.listed value
    some (PathList.value (if PathList.contains list path then list else path.raw :: list))
  | .append _ path =>
    let list := PathList.listed value
    some (PathList.value (if PathList.contains list path then list else list ++ [path.raw]))

/-- The binding that leaves a variable with a value, or without one. -/
def Binding.ofValue : Option RawText → Binding
  | some value => .set value
  | none => .removed

theorem Binding.ofValue_value? (binding : Binding) : ofValue binding.value? = binding := by
  cases binding <;> rfl

/-! ## Overlays -/

namespace Overlay

open PathList

variable (base : Snapshot) (key : String)

theorem current_insert (done : Dictionary Binding) (k : String) (binding : Binding) :
    current (done.insert k binding) base key =
      if key = k then binding.value? else current done base key := by
  unfold current
  rw [Dictionary.get?_insert]
  by_cases h : key = k
  · rw [if_pos h, if_pos h]
  · rw [if_neg h, if_neg h]

theorem currentEntries_eq_listed (done : Dictionary Binding) :
    currentEntries done base key = listed (current done base key) := by
  unfold currentEntries
  cases current done base key with
  | none => rfl
  | some value => exact entries_eq_listed value

theorem value?_outcome (done : Dictionary Binding) (edit : Edit) :
    (outcome done base edit).value? = edit.renewed (current done base edit.key) := by
  cases edit with
  | set key value => rfl
  | unset key => rfl
  | prepend key path =>
    rw [outcome, currentEntries_eq_listed]
    rfl
  | append key path =>
    rw [outcome, currentEntries_eq_listed]
    rfl

/-- One edit renews the value of its variable and leaves all others alone. -/
theorem current_step (done : Dictionary Binding) (edit : Edit) :
    current (step base done edit) base key =
      if edit.key = key then edit.renewed (current done base key) else current done base key := by
  rw [step, current_insert, value?_outcome]
  by_cases h : edit.key = key
  · rw [if_pos h, if_pos h.symm, h]
  · rw [if_neg h, if_neg (Ne.symm h)]

/-- The value of a variable once the edits are done. -/
def valueAt (o : Overlay) : Option RawText := current (o.resolve base) base key

/-- The edits of one variable. -/
def editsOf (o : Overlay) : List Edit := o.edits.filter (·.key = key)

/-- **A variable's value follows from the edits of this variable.** -/
theorem valueAt_eq_foldl (o : Overlay) :
    o.valueAt base key = (o.editsOf key).foldl Edit.renewed (base.get? key) := by
  rw [editsOf, List.foldl_filter]
  simp only [decide_eq_true_eq]
  exact (List.foldl_hom (fun done => current done base key)
    fun done edit => (current_step base key done edit).symm).symm

/-- Edits tell of the variables that were told of before and of their own. -/
theorem get?_foldl_step_eq_none_iff (edits : List Edit) (done : Dictionary Binding) :
    (edits.foldl (step base) done).get? key = none ↔
      done.get? key = none ∧ edits.filter (·.key = key) = [] := by
  induction edits generalizing done with
  | nil => simp
  | cons edit rest ih =>
    rw [List.foldl_cons, ih, step, Dictionary.get?_insert]
    by_cases h : edit.key = key
    · simp [h]
    · simp [h, Ne.symm h]

theorem get?_resolve_eq_none_iff (o : Overlay) :
    (o.resolve base).get? key = none ↔ o.editsOf key = [] :=
  (get?_foldl_step_eq_none_iff base key o.edits Dictionary.empty).trans (and_iff_right rfl)

/-- **What an overlay tells of a variable**: nothing without an edit of it, else its value after
them. -/
theorem get?_resolve (o : Overlay) : (o.resolve base).get? key =
    if o.editsOf key = [] then none else some (.ofValue (o.valueAt base key)) := by
  split
  · rename_i hnone
    exact (get?_resolve_eq_none_iff base key o).2 hnone
  · rename_i hsome
    obtain ⟨binding, hbinding⟩ := Option.ne_none_iff_exists'.1
      (mt (get?_resolve_eq_none_iff base key o).1 hsome)
    rw [valueAt, current, hbinding, Binding.ofValue_value?]

/-! ## Amended environments -/

theorem get?_update (k : String) (value : Option RawText) :
    (base.update (RawText.ofString k) value).get? key =
      if key = k then value else base.get? key := by
  unfold Snapshot.get? Snapshot.find? Snapshot.update
  rw [List.find?_cons]
  by_cases h : key = k
  · simp [h]
  · have hraw : RawText.ofString k ≠ RawText.ofString key :=
      fun e => h (RawText.ofString_injective e).symm
    simp [h, hraw]

/-- Variables that are updated once each have the values that they are updated to. -/
theorem get?_foldl_update {entries : List (String × Binding)}
    (hnodup : (entries.map (·.1)).Nodup) :
    (entries.foldl (fun s e => s.update (RawText.ofString e.1) e.2.value?) base).get? key =
      ((entries.find? (·.1 = key)).map (·.2)).elim (base.get? key) Binding.value? := by
  induction entries generalizing base with
  | nil => rfl
  | cons e rest ih =>
    obtain ⟨hfresh, hrest⟩ := List.nodup_cons.1 hnodup
    rw [List.foldl_cons, ih _ hrest, get?_update, List.find?_cons]
    by_cases h : e.1 = key
    · have hnone : rest.find? (·.1 = key) = none := by
        refine List.find?_eq_none.2 fun x hx => ?_
        simpa using fun hxk => hfresh (List.mem_map.2 ⟨x, hx, hxk.trans h.symm⟩)
      simp [h, hnone]
    · simp [h, Ne.symm h]

/-- An amended environment has the values that the changes tell, and its own elsewhere. -/
theorem get?_amend (changes : Dictionary Binding) :
    (base.amend changes).get? key = current changes base key := by
  have hcurrent : current changes base key =
      (changes.get? key).elim (base.get? key) Binding.value? := by
    unfold current
    cases changes.get? key <;> rfl
  rw [hcurrent]
  exact get?_foldl_update base key changes.keys_nodup

theorem get?_applied (o : Overlay) : (o.applied base).get? key = o.valueAt base key :=
  get?_amend base key (o.resolve base)

end Overlay

end PackageTrial
