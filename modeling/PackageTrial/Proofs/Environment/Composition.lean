import PackageTrial.Proofs.Environment.Values

/-!
# Composed overlays

What an overlay makes of a variable depends on the edits of this variable, in their order, and on
the value that it had. So edits of different variables may be interleaved in any way and may be
resolved in any environment with the same values (`Overlay.resolve_independent`), and the edits of
one overlay behind those of another do what they do in the environment that the other has prepared
(`Overlay.resolve_extend`).
-/

namespace PackageTrial.Overlay

/-- The variables that are edited, once for each edit. -/
def keys (o : Overlay) : List String := o.edits.map Edit.key

theorem editsOf_eq_nil_iff {o : Overlay} {key : String} : o.editsOf key = [] ↔ key ∉ o.keys := by
  simp [editsOf, keys, List.filter_eq_nil_iff]

/-- The result of an overlay tells of exactly the edited variables. -/
theorem mem_keys_resolve {o : Overlay} {base : Snapshot} {key : String} :
    key ∈ (o.resolve base).keys ↔ key ∈ o.keys := by
  rw [Dictionary.mem_keys_iff, ne_eq, get?_resolve_eq_none_iff, editsOf_eq_nil_iff, not_not]

/-! ## Edits of different variables -/

/-- What is told of a variable follows from its edits and from the value that it had. -/
theorem get?_resolve_congr {o o' : Overlay} {base base' : Snapshot} {key : String}
    (hedits : o.editsOf key = o'.editsOf key)
    (hbase : key ∈ o.keys → base.get? key = base'.get? key) :
    (o.resolve base).get? key = (o'.resolve base').get? key := by
  rw [get?_resolve, get?_resolve, ← hedits]
  by_cases hkey : key ∈ o.keys
  · rw [valueAt_eq_foldl, valueAt_eq_foldl, ← hedits, hbase hkey]
  · rw [if_pos (editsOf_eq_nil_iff.2 hkey), if_pos (editsOf_eq_nil_iff.2 hkey)]

/-- **Edits of different variables are independent.** Two overlays with the same edits of each
variable, in the same order but interleaved as they may be, resolve to the same in environments that
agree on the edited variables; and of these, and no others, the result tells. -/
theorem resolve_independent {o o' : Overlay} {base base' : Snapshot}
    (hedits : ∀ key, o.edits.filter (·.key = key) = o'.edits.filter (·.key = key))
    (hbase : ∀ edit ∈ o.edits, base.get? edit.key = base'.get? edit.key) :
    o.resolve base = o'.resolve base' ∧
      ∀ key, key ∈ (o.resolve base).keys ↔ ∃ edit ∈ o.edits, edit.key = key := by
  refine ⟨Dictionary.ext_get? fun key => get?_resolve_congr (hedits key) fun hkey => ?_,
    fun key => mem_keys_resolve.trans List.mem_map⟩
  obtain ⟨edit, hedit, rfl⟩ := List.mem_map.1 hkey
  exact hbase edit hedit

/-- The edits for two packages, one package after the other. -/
def packageWise : Overlay :=
  ⟨[.set "CC" "gcc", .prepend "PATH" (.ofString "/a/bin"),
    .prepend "LD_LIBRARY_PATH" (.ofString "/a/lib"), .prepend "PATH" (.ofString "/b/bin"),
    .append "LD_LIBRARY_PATH" (.ofString "/b/lib"), .unset "CC"]⟩

/-- The same edits, one variable after the other. -/
def variableWise : Overlay :=
  ⟨[.prepend "LD_LIBRARY_PATH" (.ofString "/a/lib"),
    .append "LD_LIBRARY_PATH" (.ofString "/b/lib"), .set "CC" "gcc", .unset "CC",
    .prepend "PATH" (.ofString "/a/bin"), .prepend "PATH" (.ofString "/b/bin")]⟩

/-- An environment with a search path and a home directory. -/
def homeAt (home : String) : Snapshot :=
  .ofPairs [(.ofString "PATH", .ofString "/bin"), (.ofString "HOME", .ofString home)]

theorem packageWise_independent :
    (homeAt "/root").get? "HOME" ≠ (homeAt "/tmp").get? "HOME" ∧
    packageWise.edits ≠ variableWise.edits ∧
    packageWise.resolve (homeAt "/root") = variableWise.resolve (homeAt "/tmp") ∧
    ∀ key, key ∈ (packageWise.resolve (homeAt "/root")).keys ↔
      ∃ edit ∈ packageWise.edits, edit.key = key := by
  refine ⟨by decide, by decide, resolve_independent (fun key => ?_) (by decide)⟩
  by_cases hpath : key = "PATH"
  · subst hpath
    decide
  by_cases hloader : key = "LD_LIBRARY_PATH"
  · subst hloader
    decide
  by_cases hcompiler : key = "CC"
  · subst hcompiler
    decide
  · simp [packageWise, variableWise, Edit.key, hpath, hloader, hcompiler, eq_comm]

/-! ## Edits of one overlay behind those of another -/

theorem editsOf_extend (a b : Overlay) (key : String) :
    (a.extend b).editsOf key = a.editsOf key ++ b.editsOf key :=
  List.filter_append _ _

/-- A variable has after both overlays what the second makes of it where the first has been
applied. -/
theorem valueAt_extend (a b : Overlay) (base : Snapshot) (key : String) :
    (a.extend b).valueAt base key = b.valueAt (a.applied base) key :=
  calc (a.extend b).valueAt base key
      = (b.editsOf key).foldl Edit.renewed
          ((a.editsOf key).foldl Edit.renewed (base.get? key)) := by
        rw [valueAt_eq_foldl, editsOf_extend, List.foldl_append]
    _ = (b.editsOf key).foldl Edit.renewed ((a.applied base).get? key) := by
        rw [get?_applied, valueAt_eq_foldl]
    _ = b.valueAt (a.applied base) key := (valueAt_eq_foldl (a.applied base) key b).symm

/-- **Overlays compose.** When the edits of one overlay follow those of another, a variable that the
second edits gets the value that the second gives it in the environment that the first has prepared.
Any other variable gets what the first gives it, and a variable that neither edits is not told
of. -/
theorem resolve_extend (a b : Overlay) (base : Snapshot) :
    (∀ key, ((a.extend b).resolve base).get? key =
      if ∃ edit ∈ b.edits, edit.key = key
      then (b.resolve (base.amend (a.resolve base))).get? key else (a.resolve base).get? key) ∧
    ∀ key, key ∈ ((a.extend b).resolve base).keys ↔
      (∃ edit ∈ a.edits, edit.key = key) ∨ ∃ edit ∈ b.edits, edit.key = key := by
  refine ⟨fun key => ?_, fun key => ?_⟩
  · split
    · rename_i hedited
      have hsecond : b.editsOf key ≠ [] :=
        mt editsOf_eq_nil_iff.1 (not_not.2 (List.mem_map.2 hedited))
      have hboth : (a.extend b).editsOf key ≠ [] :=
        editsOf_extend a b key ▸ List.append_ne_nil_of_right_ne_nil _ hsecond
      rw [get?_resolve, get?_resolve, if_neg hboth, if_neg hsecond, valueAt_extend]
      rfl
    · rename_i hunedited
      have hsecond : b.editsOf key = [] := editsOf_eq_nil_iff.2 (mt List.mem_map.1 hunedited)
      have hfirst : (a.extend b).editsOf key = a.editsOf key := by
        rw [editsOf_extend, hsecond, List.append_nil]
      exact get?_resolve_congr hfirst fun _ => rfl
  · rw [mem_keys_resolve, keys, extend, List.map_append, List.mem_append]
    exact or_congr List.mem_map List.mem_map

/-- A variable that was removed lists nothing, so what is put there next stands alone, as it does
where the variable was set to nothing. -/
example : ((⟨[.unset "PATH"]⟩ : Overlay).extend ⟨[.append "PATH" (.ofString "/b/bin")]⟩).resolve
      (.ofPairs [(.ofString "PATH", .ofString "/bin")]) =
    ((⟨[.set "PATH" ""]⟩ : Overlay).extend ⟨[.append "PATH" (.ofString "/b/bin")]⟩).resolve
      (.ofPairs [(.ofString "PATH", .ofString "/bin")]) := by
  decide

end PackageTrial.Overlay
