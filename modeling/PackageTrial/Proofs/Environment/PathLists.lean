import PackageTrial.Proofs.Environment.Values

/-!
# Path lists

An overlay works on path lists as texts: each edit takes the text of a variable apart at the
separators and puts the entries together again. Told on the entries alone (`PathList.edited`), an
edit adds at most one entry, at one end, and leaves the others as they are. The two tell the same,
for one edit and for any sequence of edits (`Overlay.resolve_refines_lists`), because the entries
of a text that was put together are the entries that it was put together from (`entries_value`).
-/

namespace PackageTrial

namespace PathList

/-- A text that can be an entry. -/
def IsEntry (entry : RawText) : Prop := entry ≠ [] ∧ separator ∉ entry

/-- The path can be an entry, and the list holds no entry with the same components. -/
def Admits (list : List RawText) (path : Path) : Prop :=
  IsEntry path.raw ∧ ∀ entry ∈ list, (Path.mk entry).components ≠ path.components

instance (entry : RawText) : Decidable (IsEntry entry) :=
  inferInstanceAs (Decidable (_ ∧ _))

instance (list : List RawText) (path : Path) : Decidable (Admits list path) :=
  inferInstanceAs (Decidable (_ ∧ _))

/-- What an edit makes of the entries of a variable, told on the list alone. -/
def edited (key : String) (list : List RawText) : Edit → List RawText
  | .set k value => if k = key then listed (some (RawText.ofString value)) else list
  | .unset k => if k = key then [] else list
  | .prepend k path => if k = key ∧ Admits list path then path.raw :: list else list
  | .append k path => if k = key ∧ Admits list path then list ++ [path.raw] else list

theorem isEntry_of_mem_listed {value : Option RawText} {entry : RawText}
    (h : entry ∈ listed value) : IsEntry entry := by
  obtain ⟨hpiece, hne⟩ := List.mem_filter.1 h
  rw [← Text.pieces_eq_splitOn] at hpiece
  exact ⟨by simpa using hne, Text.not_mem_of_mem_pieces hpiece⟩

/-- The entries of a value are those from which it was made, as far as they can be entries. -/
theorem entries_value (list : List RawText) :
    entries (value list) = list.filter fun entry => IsEntry entry := by
  have hfilter : list.filter (fun entry => IsEntry entry) =
      (list.filter fun entry => !entry.contains separator).filter (· ≠ []) := by
    rw [List.filter_filter]
    refine List.filter_congr fun entry _ => ?_
    rw [Bool.eq_iff_iff, decide_eq_true_iff]
    simp [IsEntry]
  rw [entries, value, hfilter]
  cases hlist : list.filter fun entry => !entry.contains separator with
  | nil => rfl
  | cons first rest =>
    rw [← hlist, Text.pieces_rejoin]
    · intro entry hentry
      simpa using (List.mem_filter.1 hentry).2
    · rw [hlist]
      exact List.cons_ne_nil _ _

theorem contains_eq_false_iff {list : List RawText} {path : Path} :
    contains list path = false ↔ ∀ entry ∈ list, (Path.mk entry).components ≠ path.components := by
  simp [contains, Path.samePlace]

/-- Of a list of entries with one more path, the path is an entry of the value exactly when the list
admits it. -/
theorem entries_value_of_added {list added : List RawText} {path : Path}
    (hlist : ∀ entry ∈ list, IsEntry entry)
    (hadded : (added.filter fun entry => IsEntry entry) =
      if IsEntry path.raw then added else list) :
    entries (value (if contains list path then list else added)) =
      if Admits list path then added else list := by
  rw [entries_value]
  by_cases hcontains : contains list path = true
  · have hadmits : ¬ Admits list path := fun h => by
      rw [contains_eq_false_iff.2 h.2] at hcontains
      cases hcontains
    rw [if_pos hcontains, if_neg hadmits]
    exact List.filter_eq_self.2 fun entry hentry => decide_eq_true (hlist entry hentry)
  · have hnew := contains_eq_false_iff.1 (Bool.not_eq_true _ ▸ hcontains)
    rw [if_neg hcontains, hadded]
    exact if_congr (and_iff_left hnew).symm rfl rfl

theorem filter_isEntry_cons {list : List RawText} (hlist : ∀ entry ∈ list, IsEntry entry)
    (entry : RawText) : ((entry :: list).filter fun entry => IsEntry entry) =
      if IsEntry entry then entry :: list else list := by
  have hkept : (list.filter fun entry => IsEntry entry) = list :=
    List.filter_eq_self.2 fun entry hentry => decide_eq_true (hlist entry hentry)
  rw [List.filter_cons, hkept]
  simp

theorem filter_isEntry_concat {list : List RawText} (hlist : ∀ entry ∈ list, IsEntry entry)
    (entry : RawText) : ((list ++ [entry]).filter fun entry => IsEntry entry) =
      if IsEntry entry then list ++ [entry] else list := by
  have hkept : (list.filter fun entry => IsEntry entry) = list :=
    List.filter_eq_self.2 fun entry hentry => decide_eq_true (hlist entry hentry)
  rw [List.filter_append, hkept, filter_isEntry_cons (by simp)]
  split <;> simp

/-- An edit does to the text of a path list what it does to the list. -/
theorem listed_renewed (value : Option RawText) (edit : Edit) :
    listed (edit.renewed value) = edited edit.key (listed value) edit := by
  have hlist : ∀ entry ∈ listed value, IsEntry entry := fun _ h => isEntry_of_mem_listed h
  cases edit with
  | set k new => exact (if_pos rfl).symm
  | unset k => exact (if_pos rfl).symm
  | prepend k path =>
    rw [Edit.renewed, ← entries_eq_listed, edited]
    exact (entries_value_of_added hlist (filter_isEntry_cons hlist _)).trans
      (if_congr (and_iff_right rfl).symm rfl rfl)
  | append k path =>
    rw [Edit.renewed, ← entries_eq_listed, edited]
    exact (entries_value_of_added hlist (filter_isEntry_concat hlist _)).trans
      (if_congr (and_iff_right rfl).symm rfl rfl)

end PathList

namespace Overlay

open PathList

variable (base : Snapshot) (key : String)

/-- The entries that a variable lists once the edits are done. -/
def entriesAt (o : Overlay) : List RawText := listed (current (o.resolve base) base key)

/-- **One edit does to the text of a path list what it does to the list.** -/
theorem listed_current_step (done : Dictionary Binding) (edit : Edit) :
    listed (current (step base done edit) base key) =
      edited key (listed (current done base key)) edit := by
  rw [current_step]
  by_cases hkey : edit.key = key
  · subst hkey
    rw [if_pos rfl, listed_renewed]
  · rw [if_neg hkey]
    cases edit with
    | set k value => exact (if_neg hkey).symm
    | unset k => exact (if_neg hkey).symm
    | prepend k path => exact (if_neg fun h => hkey h.1).symm
    | append k path => exact (if_neg fun h => hkey h.1).symm

theorem resolve_push (o : Overlay) (edit : Edit) :
    (o.push edit).resolve base = step base (o.resolve base) edit := by
  rw [resolve, push, List.foldl_append]
  rfl

theorem entriesAt_push (o : Overlay) (edit : Edit) :
    (o.push edit).entriesAt base key = edited key (o.entriesAt base key) edit := by
  rw [entriesAt, resolve_push, listed_current_step]
  rfl

/-- **A run of edits does to the text of a path list what it does to the list.** -/
theorem entriesAt_eq_foldl (o : Overlay) :
    o.entriesAt base key = o.edits.foldl (edited key) (listed (base.get? key)) := by
  have hrun : o.edits.foldl (edited key) (listed (current Dictionary.empty base key)) =
      listed (current (o.resolve base) base key) :=
    List.foldl_hom (fun done => listed (current done base key))
      fun done edit => (listed_current_step base key done edit).symm
  exact hrun.symm

end Overlay

/-- The path that an edit puts into a path list. -/
def Edit.path? : Edit → Option Path
  | .prepend _ path | .append _ path => some path
  | .set _ _ | .unset _ => none

namespace PathList

/-- A path edit, of whatever variable, puts at most its own path into a list, and only where the
list admits it. -/
theorem edited_path (key : String) (list : List RawText) {edit : Edit} {path : Path}
    (h : edit.path? = some path) : edited key list edit = list ∨
      Admits list path ∧
        (edited key list edit = path.raw :: list ∨ edited key list edit = list ++ [path.raw]) := by
  cases edit with
  | set k value => cases h
  | unset k => cases h
  | prepend k p =>
    cases h
    by_cases hp : k = key ∧ Admits list path
    · exact .inr ⟨hp.2, .inl (if_pos hp)⟩
    · exact .inl (if_neg hp)
  | append k p =>
    cases h
    by_cases hp : k = key ∧ Admits list path
    · exact .inr ⟨hp.2, .inr (if_pos hp)⟩
    · exact .inl (if_neg hp)

end PathList

namespace Overlay

open PathList

/-- **Overlays edit path lists entry by entry.** A path put in front of a path list or behind it
becomes an entry if it has bytes, none of them a separator, and is the place of no entry already
there; all else stays as it was. So the entries at the end of any sequence of edits are those of the
same edits made on the list, and none of the path edits on the way loses an entry, moves it, changes
its bytes or adds its place a second time. -/
theorem resolve_refines_lists (o : Overlay) (base : Snapshot) (key : String) :
    (∀ path, (o.push (.prepend key path)).entriesAt base key =
      if path.raw ≠ [] ∧ separator ∉ path.raw ∧
          ∀ entry ∈ o.entriesAt base key, (Path.mk entry).components ≠ path.components
      then path.raw :: o.entriesAt base key else o.entriesAt base key) ∧
    (∀ path, (o.push (.append key path)).entriesAt base key =
      if path.raw ≠ [] ∧ separator ∉ path.raw ∧
          ∀ entry ∈ o.entriesAt base key, (Path.mk entry).components ≠ path.components
      then o.entriesAt base key ++ [path.raw] else o.entriesAt base key) ∧
    o.entriesAt base key = o.edits.foldl (edited key) (listed (base.get? key)) ∧
    ∀ before edit after path, o.edits = before ++ edit :: after → edit.path? = some path →
      ∃ front back, (⟨before ++ [edit]⟩ : Overlay).entriesAt base key =
          front ++ (⟨before⟩ : Overlay).entriesAt base key ++ back ∧
        ∀ new ∈ front ++ back, ∀ entry ∈ (⟨before⟩ : Overlay).entriesAt base key,
          (Path.mk entry).components ≠ (Path.mk new).components := by
  refine ⟨fun path => ?_, fun path => ?_, entriesAt_eq_foldl base key o,
    fun before edit after path _ hpath => ?_⟩
  · rw [entriesAt_push, edited]
    exact if_congr ((and_iff_right rfl).trans and_assoc) rfl rfl
  · rw [entriesAt_push, edited]
    exact if_congr ((and_iff_right rfl).trans and_assoc) rfl rfl
  · have hstep := entriesAt_push base key ⟨before⟩ edit
    rw [push] at hstep
    rw [hstep]
    rcases edited_path key ((⟨before⟩ : Overlay).entriesAt base key) hpath with
      h | ⟨hadmits, h | h⟩
    · exact ⟨[], [], by simp [h], by simp⟩
    · exact ⟨[path.raw], [], by simp [h], by simpa using hadmits.2⟩
    · exact ⟨[], [path.raw], by simp [h], by simpa using hadmits.2⟩

/-- A value with an empty entry, and a new path in front of it. -/
def searchPath : Overlay :=
  ⟨[.set "PATH" "/bin::/usr/bin/", .prepend "PATH" (.ofString "/opt/bin")]⟩

/-- A path that is already there in another spelling. -/
def spelledAgain : Edit := .append "PATH" (.ofString "/usr/bin")

theorem searchPath_keeps_entries :
    searchPath.entriesAt .empty "PATH" = ["/opt/bin", "/bin", "/usr/bin/"].map RawText.ofString ∧
    (searchPath.push spelledAgain).entriesAt .empty "PATH" =
      searchPath.entriesAt .empty "PATH" ∧
    ∃ front back, (searchPath.push spelledAgain).entriesAt .empty "PATH" =
        front ++ searchPath.entriesAt .empty "PATH" ++ back ∧
      ∀ new ∈ front ++ back, ∀ entry ∈ searchPath.entriesAt .empty "PATH",
        (Path.mk entry).components ≠ (Path.mk new).components :=
  ⟨by decide +kernel, by decide +kernel,
    (resolve_refines_lists (searchPath.push spelledAgain) .empty "PATH").2.2.2
      searchPath.edits spelledAgain [] (.ofString "/usr/bin") rfl rfl⟩

end Overlay

end PackageTrial
