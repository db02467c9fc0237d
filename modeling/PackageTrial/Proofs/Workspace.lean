import PackageTrial.Proofs.Path.Absolute

/-!
# Changes of workspaces

Making directories adds directories where nothing was and changes nothing else
(`Workspace.addsDirectories_makeDirs`). A file that is written is put at the place that its path
names, where no directory was (`Workspace.exists_put_of_writeText`). No directory is lost in either
(`Workspace.KeepsDirectories`), so the path of a directory leads where it did
(`Workspace.LeadsTo.keep`), and the path of an entry names the place of its name below the directory
still (`Workspace.KeepsDirectories.locate_child`).
-/

namespace PackageTrial.Workspace

variable {w w' : Workspace} {dir : Path} {name : String} {place : Location}

/-- The root is a directory. -/
theorem ne_nil_of_at? (h : w.at? place ≠ some .directory) : place ≠ [] := by
  rintro rfl
  exact h rfl

/-! ## Directories that stay -/

/-- Every directory is a directory still, and one works where one did. -/
structure KeepsDirectories (w w' : Workspace) : Prop where
  workingDir : w'.workingDir = w.workingDir
  directory : ∀ q, w.at? q = some .directory → w'.at? q = some .directory

theorem KeepsDirectories.refl (w : Workspace) : w.KeepsDirectories w := ⟨rfl, fun _ h => h⟩

theorem KeepsDirectories.trans {w'' : Workspace} (h : w.KeepsDirectories w')
    (h' : w'.KeepsDirectories w'') : w.KeepsDirectories w'' :=
  ⟨h'.workingDir.trans h.workingDir, fun q hq => h'.directory q (h.directory q hq)⟩

theorem KeepsDirectories.follow (h : w.KeepsDirectories w') {pieces : List RawText}
    {start : Location} (hfollow : w.follow start pieces = .ok place) :
    w'.follow start pieces = .ok place := by
  induction pieces generalizing start with
  | nil => exact hfollow
  | cons piece rest ih =>
    rw [Workspace.follow] at hfollow ⊢
    split at hfollow
    · cases hfollow
    · cases hfollow
    · rename_i hdirectory
      rw [h.directory _ hdirectory]
      dsimp only
      split at hfollow
      · exact ih hfollow
      · split_ifs at hfollow ⊢
        exact ih hfollow
      · exact ih hfollow

/-- The path leads to a directory at the place; a path of no text leads to where one works. -/
structure LeadsTo (w : Workspace) (dir : Path) (place : Location) : Prop where
  follow : w.follow (w.start dir) (Text.pieces Path.separator dir.raw) = .ok place
  directory : w.at? place = some .directory

theorem LeadsTo.unique (h : w.LeadsTo dir place) {place' : Location}
    (h' : w.LeadsTo dir place') : place = place' :=
  Except.ok.inj (h.follow.symm.trans h'.follow)

theorem LeadsTo.keep (h : w.LeadsTo dir place) (hkeeps : w.KeepsDirectories w') :
    w'.LeadsTo dir place := by
  refine ⟨?_, hkeeps.directory _ h.directory⟩
  rw [start, hkeeps.workingDir]
  exact hkeeps.follow h.follow

/-! ## Entries of directories -/

theorem follow_name (h : Path.IsEntryName name) {place q : Location} :
    w.follow place [RawText.ofString name] = .ok q ↔ w.at? place = some .directory ∧
      (RawText.ofString name).length ≤ maxNameLength ∧ RawText.ofString name :: place = q := by
  rw [follow, h.step?]
  cases hplace : w.at? place with
  | none => simp
  | some entry =>
    cases entry with
    | file content executable => simp
    | directory =>
      dsimp only
      split_ifs with hlong
      · simp [Nat.not_le.2 hlong]
      · simp [follow, Nat.not_lt.1 hlong]

theorem follow_nothing {place q : Location} :
    w.follow place [[]] = .ok q ↔ w.at? place = some .directory ∧ place = q := by
  have hstep : Path.step? [] = none := rfl
  rw [follow, hstep]
  cases hplace : w.at? place with
  | none => simp
  | some entry => cases entry <;> simp [follow]

/-- An empty piece at the end of a path asks for a directory, and no more. -/
theorem leadsTo_iff {front : List RawText} (h : Text.pieces Path.separator dir.raw = front ∨
      Text.pieces Path.separator dir.raw = front ++ [[]]) :
    w.LeadsTo dir place ↔
      w.follow (w.start dir) front = .ok place ∧ w.at? place = some .directory := by
  rcases h with h | h
  · exact ⟨fun hdir => ⟨h ▸ hdir.follow, hdir.directory⟩, fun hdir => ⟨h ▸ hdir.1, hdir.2⟩⟩
  · have hfollow : w.follow (w.start dir) (Text.pieces Path.separator dir.raw) = .ok place ↔
        w.follow (w.start dir) front = .ok place ∧ w.at? place = some .directory := by
      rw [h, follow_append, Outcome.bind_eq_ok_iff]
      simp only [follow_nothing]
      exact ⟨fun ⟨_, hmid, hdirectory, e⟩ => e ▸ ⟨hmid, hdirectory⟩,
        fun ⟨hmid, hdirectory⟩ => ⟨place, hmid, hdirectory, rfl⟩⟩
    exact ⟨fun hdir => hfollow.1 hdir.follow, fun hdir => ⟨hfollow.2 hdir, hdir.2⟩⟩

/-- An entry's path leads to the place of its name below the directory. -/
theorem locate_child_eq_ok_iff (h : Path.IsEntryName name) {q : Location} :
    w.locate (dir.child name) = .ok q ↔ checkPath (dir.child name) = .ok () ∧
      (RawText.ofString name).length ≤ maxNameLength ∧
      ∃ place, w.LeadsTo dir place ∧ RawText.ofString name :: place = q := by
  obtain ⟨front, hchild, hdir⟩ := Path.exists_pieces_child h dir
  have hstart : w.start (dir.child name) = w.start dir := by
    rw [start, start, Path.isAbsolute_child h]
  rw [locate, Outcome.bind_eq_ok_iff]
  simp only [hchild, hstart, follow_append, Outcome.bind_eq_ok_iff, follow_name h,
    leadsTo_iff hdir]
  constructor
  · rintro ⟨⟨⟩, hcheck, mid, hmid, hdirectory, hshort, rfl⟩
    exact ⟨hcheck, hshort, mid, ⟨hmid, hdirectory⟩, rfl⟩
  · rintro ⟨hcheck, hshort, mid, ⟨hmid, hdirectory⟩, rfl⟩
    exact ⟨(), hcheck, mid, hmid, hdirectory, hshort, rfl⟩

theorem KeepsDirectories.locate_child (hkeeps : w.KeepsDirectories w') (h : Path.IsEntryName name)
    {q : Location} (hq : w.locate (dir.child name) = .ok q) :
    w'.locate (dir.child name) = .ok q := by
  obtain ⟨hcheck, hshort, place, hplace, rfl⟩ := (locate_child_eq_ok_iff h).1 hq
  exact (locate_child_eq_ok_iff h).2 ⟨hcheck, hshort, place, hplace.keep hkeeps, rfl⟩

/-! ## Making directories -/

/-- Nothing that is there is changed, and what is new are directories. -/
structure AddsDirectories (w w' : Workspace) : Prop where
  workingDir : w'.workingDir = w.workingDir
  at? : ∀ q, w'.at? q = w.at? q ∨ w.at? q = none ∧ w'.at? q = some .directory

namespace AddsDirectories

theorem refl (w : Workspace) : w.AddsDirectories w := ⟨rfl, fun _ => .inl rfl⟩

theorem trans {w'' : Workspace} (h : w.AddsDirectories w') (h' : w'.AddsDirectories w'') :
    w.AddsDirectories w'' := by
  refine ⟨h'.workingDir.trans h.workingDir, fun q => ?_⟩
  rcases h'.at? q with hlater | ⟨hnone, hnew⟩
  · exact (h.at? q).imp hlater.trans (And.imp_right hlater.trans)
  · exact .inr ⟨(h.at? q).elim (fun hsame => hsame.symm.trans hnone) And.left, hnew⟩

theorem keepsDirectories (h : w.AddsDirectories w') : w.KeepsDirectories w' :=
  ⟨h.workingDir, fun q hq => (h.at? q).elim (fun hsame => hsame.trans hq) And.right⟩

theorem file_iff (h : w.AddsDirectories w') (q : Location) (content : ByteArray)
    (executable : Bool) :
    w'.at? q = some (.file content executable) ↔ w.at? q = some (.file content executable) := by
  rcases h.at? q with hsame | ⟨hnone, hnew⟩
  · rw [hsame]
  · simp [hnone, hnew]

end AddsDirectories

theorem addsDirectories_put (h : w.at? place = none) :
    w.AddsDirectories (w.put place .directory) := by
  have hfree : w.at? place ≠ some .directory := by simp [h]
  refine ⟨rfl, fun q => ?_⟩
  rw [at?_put w (ne_nil_of_at? hfree)]
  split
  · rename_i hq
    exact .inr ⟨hq ▸ h, rfl⟩
  · exact .inl rfl

theorem addsDirectories_makeDirsFrom (w : Workspace) (place : Location) (pieces : List RawText) :
    w.AddsDirectories (w.makeDirsFrom place pieces).2 := by
  induction pieces generalizing w place with
  | nil =>
    rw [makeDirsFrom]
    split <;> exact .refl w
  | cons piece rest ih =>
    rw [makeDirsFrom]
    split
    · exact ih w place
    · split
      · exact .refl w
      · split
        · rename_i name
          split_ifs with hlong
          · exact .refl w
          · -- The directory of the name is made unless something is there.
            dsimp only
            split_ifs with hthere
            · exact ih w _
            · exact (addsDirectories_put (by simpa using hthere)).trans (ih _ _)
        · exact ih w _

theorem addsDirectories_makeDirs (w : Workspace) (path : Path) :
    w.AddsDirectories ((makeDirs path).run.run w).2 := by
  change w.AddsDirectories (makeDirs path w).2
  unfold makeDirs
  split
  · exact .refl w
  · exact .refl w
  · exact addsDirectories_makeDirsFrom w _ _

/-! ## Writing a file -/

/-- A file that is written is put at the place that its path names, where no directory was. -/
theorem exists_put_of_writeText {path : Path} {text : String}
    (h : (writeText path text).run.run w = (.ok (), w')) : ∃ place executable,
      w.locate path = .ok place ∧ w.at? place ≠ some .directory ∧
        w' = w.put place (.file text.toUTF8 executable) := by
  obtain ⟨_, _, ⟨⟩, h⟩ := Outcome.exists_of_run_bind h
  obtain ⟨place, mid, hplace, h⟩ := Outcome.exists_of_run_bind h
  rw [Outcome.run_liftM, Prod.mk.injEq] at hplace
  obtain ⟨hplace, rfl⟩ := hplace
  split at h
  · cases h
  · rename_i hfile
    cases h
    exact ⟨place, _, hplace, by simp [hfile], rfl⟩
  · rename_i hnone
    cases h
    exact ⟨place, _, hplace, by simp [hnone], rfl⟩

/-- No directory is lost through a file where none was. -/
theorem keepsDirectories_put (h : w.at? place ≠ some .directory) (entry : Entry) :
    w.KeepsDirectories (w.put place entry) := by
  refine ⟨rfl, fun q hq => ?_⟩
  have hne : q ≠ place := by
    rintro rfl
    exact h hq
  rw [at?_put w (ne_nil_of_at? h), if_neg hne, hq]

end PackageTrial.Workspace
