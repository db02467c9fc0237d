import PackageTrial.Messages.Template
import PackageTrial.Proofs.Text.Cut

/-!
# The parts of templates

A template consists of literals and of places in braces, which follow from its text alone
(`Template.parts`, and `Segmented` told without the cutting). Filling a template fills its parts one
by one (`fill_eq`), so what is put into a place is not looked at, and a template without a place for
any of the names stays as it is (`fill_part_by_part`).
-/

namespace PackageTrial.Template

/-! ## Parts -/

/-- A part of a template. -/
inductive Part
  /-- Text that stays as it is. -/
  | literal (text : String)
  /-- A name in braces. -/
  | place (name : String)
  deriving DecidableEq

/-- How a part is written. -/
def Part.written : Part → String
  | .literal text => text
  | .place name => "\x7b" ++ name ++ "\x7d"

/-- What stands for a part: the value for its name, or itself when there is none. -/
def Part.filled (args : Arguments) : Part → String
  | .literal text => text
  | .place name => (args.lookup name).getD (Part.place name).written

/-- The template consists of these parts: the literals before places hold no opening brace and the
names no closing one, and what remains has no place any more. -/
inductive Segmented : String → List Part → Prop
  /-- No brace is opened. -/
  | literal {text : String} : '\x7b' ∉ text.toList → Segmented text [.literal text]
  /-- A brace is opened and none closed behind it. -/
  | unclosed {before after : String} : '\x7b' ∉ before.toList → '\x7d' ∉ after.toList →
      Segmented (before ++ "\x7b" ++ after) [.literal (before ++ "\x7b" ++ after)]
  /-- A brace is opened, and closed behind a name. -/
  | place {before name after : String} {parts : List Part} : '\x7b' ∉ before.toList →
      '\x7d' ∉ name.toList → Segmented after parts →
      Segmented (before ++ (Part.place name).written ++ after)
        (.literal before :: .place name :: parts)

/-- The parts of a template. -/
def parts (template : String) : List Part :=
  match _h : Text.cut '\x7b' template with
  | none => [.literal template]
  | some (before, inside) =>
    match _h' : Text.cut '\x7d' inside with
    | none => [.literal template]
    | some (name, after) => .literal before :: .place name :: parts after
termination_by template.toList.length
decreasing_by exact (Text.length_lt_of_cut _h').trans (Text.length_lt_of_cut _h)

theorem segmented_parts (template : String) : Segmented template (parts template) := by
  fun_induction parts template with
  | case1 template h => exact .literal (Text.cut_eq_none_iff.1 h)
  | case2 template before inside h h' =>
    obtain ⟨hsplit, hbefore⟩ := Text.cut_eq_some_iff.1 h
    have htemplate : template = before ++ "\x7b" ++ inside := by
      simp [← String.toList_inj, hsplit]
    rw [htemplate]
    exact .unclosed hbefore (Text.cut_eq_none_iff.1 h')
  | case3 template before inside h name after h' ih =>
    obtain ⟨hsplit, hbefore⟩ := Text.cut_eq_some_iff.1 h
    obtain ⟨hsplit', hname⟩ := Text.cut_eq_some_iff.1 h'
    have htemplate : template = before ++ (Part.place name).written ++ after := by
      simp [← String.toList_inj, hsplit, hsplit', Part.written]
    rw [htemplate]
    exact .place hbefore hname ih

theorem Segmented.eq_parts {template : String} {ps : List Part} (h : Segmented template ps) :
    ps = parts template := by
  induction h with
  | @literal text htext =>
    have hcut := Text.cut_eq_none_iff.2 htext
    rw [parts]
    split
    · rfl
    · simp_all
  | @unclosed before inside hbefore hinside =>
    have hcut : Text.cut '\x7b' (before ++ "\x7b" ++ inside) = some (before, inside) :=
      Text.cut_eq_some_iff.2 ⟨by simp, hbefore⟩
    have hcut' := Text.cut_eq_none_iff.2 hinside
    rw [parts]
    split
    · simp_all
    · split <;> simp_all
  | @place before name after _ hbefore hname _ ih =>
    have hcut : Text.cut '\x7b' (before ++ (Part.place name).written ++ after) =
        some (before, name ++ "\x7d" ++ after) :=
      Text.cut_eq_some_iff.2 ⟨by simp [Part.written], hbefore⟩
    have hcut' : Text.cut '\x7d' (name ++ "\x7d" ++ after) = some (name, after) :=
      Text.cut_eq_some_iff.2 ⟨by simp, hname⟩
    rw [parts]
    split
    · simp_all
    · split <;> simp_all

/-- The parts are all of the template. -/
theorem Segmented.join_written {template : String} {ps : List Part} (h : Segmented template ps) :
    String.join (ps.map Part.written) = template := by
  induction h with
  | literal _ => simp [Part.written]
  | unclosed _ _ => simp [Part.written]
  | place _ _ _ ih => simp [ih, Part.written, String.append_assoc]

/-! ## Filling -/

theorem fillChars_append (args : Arguments) {before : List Char} (h : '\x7b' ∉ before)
    (rest : List Char) : fillChars args (before ++ rest) = before ++ fillChars args rest := by
  induction before with
  | nil => rfl
  | cons c before ih =>
    rw [List.cons_append, fillChars, if_neg (ne_of_mem_of_not_mem List.mem_cons_self h),
      ih (List.not_mem_of_not_mem_cons h)]
    rfl

theorem fillChars_eq_self (args : Arguments) {text : List Char} (h : '\x7b' ∉ text) :
    fillChars args text = text := by
  have := fillChars_append args h []
  rwa [List.append_nil, fillChars, List.append_nil] at this

/-- A brace that is never closed ends the filling. -/
theorem fillChars_unclosed (args : Arguments) {inside : List Char} (h : '\x7d' ∉ inside) :
    fillChars args ('\x7b' :: inside) = '\x7b' :: inside := by
  have hcut := Text.cutFirst_eq_none_iff.2 h
  rw [fillChars, if_pos rfl]
  split
  · rfl
  · simp_all

theorem fillChars_place (args : Arguments) {name : List Char} (h : '\x7d' ∉ name)
    (after : List Char) :
    fillChars args ('\x7b' :: (name ++ '\x7d' :: after)) =
      replacement args name ++ fillChars args after := by
  have hcut : Text.cutFirst '\x7d' (name ++ '\x7d' :: after) = some (name, after) :=
    Text.cutFirst_eq_some_iff.2 ⟨rfl, h⟩
  rw [fillChars, if_pos rfl]
  split <;> simp_all

theorem toList_filled_place (args : Arguments) (name : String) :
    ((Part.place name).filled args).toList = replacement args name.toList := by
  induction args with
  | nil => simp [replacement, Part.filled, Part.written]
  | cons arg args ih =>
    obtain ⟨key, value⟩ := arg
    by_cases h : name = key
    · simp [replacement, Part.filled, h]
    · have hname : key.toList ≠ name.toList := fun e => h (String.toList_inj.1 e).symm
      have hkey : (name == key) = false := beq_eq_false_iff_ne.2 h
      simpa [replacement, Part.filled, List.lookup_cons, hkey, hname] using ih

theorem Segmented.fill_eq {template : String} {ps : List Part} (h : Segmented template ps)
    (args : Arguments) : fill template args = String.join (ps.map (Part.filled args)) := by
  induction h with
  | literal htext => simp [fill, fillChars_eq_self args htext, Part.filled]
  | unclosed hbefore hinside =>
    simp [fill, fillChars_append args hbefore, fillChars_unclosed args hinside, Part.filled,
      ← String.toList_inj]
  | @place before name after ps hbefore hname _ ih =>
    have hafter : fillChars args after.toList =
        (String.join (ps.map (Part.filled args))).toList := by
      rw [← ih, fill, String.toList_ofList]
    have hplace := fillChars_place args hname after.toList
    rw [hafter, ← toList_filled_place] at hplace
    have hlist : (before ++ (Part.place name).written ++ after).toList =
        before.toList ++ '\x7b' :: (name.toList ++ '\x7d' :: after.toList) := by
      simp [Part.written]
    rw [fill, hlist, fillChars_append args hbefore, hplace]
    simp [← String.toList_inj, Part.filled]

theorem filled_of_forall_ne {args : Arguments} {part : Part}
    (h : ∀ arg ∈ args, .place arg.1 ≠ part) : part.filled args = part.written := by
  cases part with
  | literal text => rfl
  | place name =>
    have hnone : args.lookup name = none := by
      refine List.lookup_eq_none_iff.2 fun arg harg => ?_
      exact bne_iff_ne.2 fun e => h arg harg (congrArg Part.place e.symm)
    rw [Part.filled, hnone, Option.getD_none]

/-- **A template is filled part by part.** Its parts are all of it and follow from it alone; filling
leaves the literals and puts the first value of its name into each place, whatever the values hold.
Where no part is a place for one of the names, the template stays as it is. -/
theorem fill_part_by_part (template : String) :
    (∀ ps, Segmented template ps ↔ ps = parts template) ∧
      String.join ((parts template).map Part.written) = template ∧
      ∀ args, fill template args = String.join ((parts template).map (Part.filled args)) ∧
        ((∀ arg ∈ args, .place arg.1 ∉ parts template) → fill template args = template) := by
  have hparts := segmented_parts template
  refine ⟨fun ps => ⟨Segmented.eq_parts, fun h => h ▸ hparts⟩, hparts.join_written, fun args => ?_⟩
  refine ⟨hparts.fill_eq args, fun hnone => ?_⟩
  have hsame : ∀ part ∈ parts template, part.filled args = part.written := fun part hpart =>
    filled_of_forall_ne fun arg harg e => hnone arg harg (e ▸ hpart)
  rw [hparts.fill_eq args, List.map_congr_left hsame, hparts.join_written]

/-- A value is not looked at, and nothing is behind a brace that is never closed. -/
example : fill "\x7ba\x7d, \x7bb\x7d, \x7bb" [("a", "\x7bb\x7d")] =
    "\x7bb\x7d, \x7bb\x7d, \x7bb" := by
  cbv

end PackageTrial.Template
