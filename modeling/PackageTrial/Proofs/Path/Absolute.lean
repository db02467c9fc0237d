import PackageTrial.Proofs.Outcome
import PackageTrial.Proofs.Path.Components
import PackageTrial.Workspace

/-!
# Absolute paths

An extension of an absolute path is absolute (`isAbsolute_join`), and so is the absolute form of any
path: its components are those of the working directory, unless the path is absolute itself, and
then the steps of the path (`components_absoluteFrom`). The parent of a path that ends in a step has
the other steps (`exists_parent`). An absolute path leads to the same place whatever the working
directory is (`isFixed_iff`).
-/

namespace PackageTrial

namespace Path

/-! ## Extensions -/

theorem isAbsolute_join {base : Path} (h : base.isAbsolute = true) (extension : Path) :
    (base.join extension).isAbsolute = true := by
  have hhead : base.raw.head? = some separator := by simpa [isAbsolute] using h
  unfold join
  split_ifs with habsolute
  · exact habsolute
  · simp [isAbsolute, hhead]
  · simp [isAbsolute, hhead]

/-- An entry's path is absolute when that of the directory is. -/
theorem isAbsolute_child {name : String} (h : IsEntryName name) (base : Path) :
    (base.child name).isAbsolute = base.isAbsolute := by
  rcases join_cases h.isAbsolute with ⟨hblank, hjoin⟩ | ⟨front, ⟨hbase, hfront⟩ | hfront, hjoin⟩
  · rw [child, hjoin, h.isAbsolute, isAbsolute, hblank]
    rfl
  · obtain ⟨b, bs, hraw⟩ := List.exists_cons_of_ne_nil hbase
    rw [child, hjoin, isAbsolute, isAbsolute, ← hfront, hraw]
    rfl
  · rw [child, hjoin, isAbsolute, isAbsolute, hfront]
    cases front <;> rfl

theorem raw_ne_nil_of_isAbsolute {p : Path} (h : p.isAbsolute = true) : p.raw ≠ [] := by
  intro hblank
  rw [isAbsolute, hblank] at h
  exact absurd h (by decide)

/-! ## Absolute forms -/

theorem steps_raw_of_mem_steps {raw : RawText} {c : Component} (hc : c ∈ steps raw) :
    Path.isAbsolute ⟨c.raw⟩ = false ∧ steps c.raw = [c] := by
  rcases eq_up_or_isOrdinary_of_mem_steps hc with rfl | hordinary
  · exact ⟨by decide, by decide⟩
  · cases c with
    | name bytes =>
      obtain ⟨hfree, hne, hhere, hup⟩ := hordinary
      obtain ⟨b, bs, rfl⟩ := List.exists_cons_of_ne_nil hne
      have hfirst : b ≠ separator := fun e => hfree (by simp [e])
      refine ⟨by simp [isAbsolute, Component.raw, hfirst], ?_⟩
      rw [Component.raw, steps, Text.pieces_eq_singleton hfree, List.filterMap_cons_some
        (by rw [step?, if_neg (by simp [hhere]), if_neg hup]), List.filterMap_nil]
    | root => cases hordinary
    | here => cases hordinary
    | up => cases hordinary

theorem ne_of_mem_steps {raw : RawText} {c : Component} (hc : c ∈ steps raw) :
    c ≠ .here ∧ c ≠ .root := by
  rcases eq_up_or_isOrdinary_of_mem_steps hc with rfl | hordinary
  · exact ⟨by decide, by decide⟩
  · constructor <;> rintro rfl <;> exact hordinary

/-- Steps that extend an absolute path are added to its components. -/
theorem components_foldl_join {cs : List Component}
    (hcs : ∀ c ∈ cs, Path.isAbsolute ⟨c.raw⟩ = false ∧ steps c.raw = [c]) {start : Path}
    (h : start.isAbsolute = true) :
    (cs.foldl (fun acc c => acc.join ⟨c.raw⟩) start).isAbsolute = true ∧
      (cs.foldl (fun acc c => acc.join ⟨c.raw⟩) start).components = start.components ++ cs := by
  induction cs generalizing start with
  | nil => exact ⟨h, (List.append_nil _).symm⟩
  | cons c cs ih =>
    obtain ⟨⟨hrelative, hstep⟩, hcs⟩ := List.forall_mem_cons.1 hcs
    obtain ⟨habsolute, hcomponents⟩ := ih hcs (isAbsolute_join h ⟨c.raw⟩)
    refine ⟨habsolute, hcomponents.trans ?_⟩
    rw [components_join (raw_ne_nil_of_isAbsolute h) hrelative, hstep, List.append_assoc]
    rfl

/-- Two separators stand at the very front. -/
def TwoSlashes (p : Path) : Prop :=
  p.raw.take 2 = [separator, separator] ∧ p.raw[2]? ≠ some separator

instance (p : Path) : Decidable p.TwoSlashes :=
  inferInstanceAs (Decidable (_ ∧ _))

/-- Where the absolute form of a path starts. -/
def origin (workingDir p : Path) : Path :=
  if p.isAbsolute then if p.TwoSlashes then ⟨[separator, separator]⟩ else ⟨[separator]⟩
  else workingDir

theorem absoluteFrom_eq (workingDir p : Path) : absoluteFrom workingDir p =
    let whole := (steps p.raw).foldl (fun acc c => acc.join ⟨c.raw⟩) (origin workingDir p)
    if p.raw.getLast? = some separator then whole.join blank else whole := by
  obtain ⟨first, rest, hpieces⟩ := List.exists_cons_of_ne_nil (Text.pieces_ne_nil separator p.raw)
  have hkept (two : Prop) [Decidable two] :
      (steps p.raw).filter (fun c => c ≠ .here ∧ ¬ (c = .root ∧ two)) = steps p.raw := by
    refine List.filter_eq_self.2 fun c hc => decide_eq_true ?_
    obtain ⟨hhere, hroot⟩ := ne_of_mem_steps hc
    exact ⟨hhere, fun h => hroot h.1⟩
  -- The filter only concerns what stands before the steps: a `.` goes, and so does a root for
  -- which two separators stand already.
  have hunfolded : absoluteFrom workingDir p =
      let start := if ¬ p.isAbsolute then workingDir
        else if p.TwoSlashes then ⟨[separator, separator]⟩ else blank
      let kept := p.components.filter fun c => c ≠ .here ∧ ¬ (c = .root ∧ p.TwoSlashes)
      let whole := kept.foldl (fun acc c => acc.join ⟨c.raw⟩) start
      if p.raw.getLast? = some separator then whole.join blank else whole := rfl
  rw [hunfolded, components_of_pieces hpieces]
  simp only [List.filter_append, hkept, List.foldl_append]
  have hfront : ((p.lead first).filter fun c => c ≠ .here ∧ ¬ (c = .root ∧ p.TwoSlashes)).foldl
      (fun acc c => acc.join ⟨c.raw⟩) (if ¬ p.isAbsolute then workingDir
        else if p.TwoSlashes then ⟨[separator, separator]⟩ else blank) = origin workingDir p := by
    unfold lead origin
    by_cases habsolute : p.isAbsolute = true
    · by_cases htwo : p.TwoSlashes
      · simp [habsolute, htwo]
      · simp [habsolute, htwo]
        rfl
    · by_cases hhere : first = [dot] <;> simp [habsolute, hhere]
  rw [hfront]

section AbsoluteFrom

variable {workingDir : Path} (h : workingDir.isAbsolute = true) (p : Path)
include h

theorem isAbsolute_origin : (origin workingDir p).isAbsolute = true := by
  unfold origin
  split_ifs
  · rfl
  · rfl
  · exact h

omit h in
theorem components_origin : (origin workingDir p).components =
    if p.isAbsolute then [.root] else workingDir.components := by
  unfold origin
  split_ifs
  · decide
  · decide
  · rfl

theorem isAbsolute_absoluteFrom : (absoluteFrom workingDir p).isAbsolute = true := by
  have hsteps := fun c (hc : c ∈ steps p.raw) => steps_raw_of_mem_steps hc
  have hwhole := (components_foldl_join hsteps (isAbsolute_origin h p)).1
  rw [absoluteFrom_eq]
  dsimp only
  split_ifs
  · exact isAbsolute_join hwhole blank
  · exact hwhole

theorem components_absoluteFrom : (absoluteFrom workingDir p).components =
    (if p.isAbsolute then [.root] else workingDir.components) ++ steps p.raw := by
  have hsteps := fun c (hc : c ∈ steps p.raw) => steps_raw_of_mem_steps hc
  obtain ⟨hwhole, hcomponents⟩ := components_foldl_join hsteps (isAbsolute_origin h p)
  rw [absoluteFrom_eq, ← components_origin, ← hcomponents]
  dsimp only
  split_ifs
  · exact (components_join (raw_ne_nil_of_isAbsolute hwhole) rfl).trans (List.append_nil _)
  · rfl

end AbsoluteFrom

/-! ## Parents -/

theorem filterMap_tidyEnd (ps : List RawText) :
    (tidyEnd ps).filterMap step? = ps.filterMap step? := by
  induction ps using List.reverseRecOn with
  | nil => rfl
  | append_singleton ps p ih =>
    cases hstep : step? p with
    | none =>
      have htidy : tidyEnd (ps ++ [p]) = tidyEnd ps := by
        simp [tidyEnd, hstep]
      rw [htidy, ih, List.filterMap_append, List.filterMap_cons_none hstep, List.filterMap_nil,
        List.append_nil]
    | some c => rw [tidyEnd_concat (by simp [hstep])]

theorem isAbsolute_of_pieces {p : Path} {first second : RawText} {rest : List RawText}
    (hp : Text.pieces separator p.raw = first :: second :: rest) :
    p.isAbsolute = decide (first = []) := by
  have hraw : p.raw = first ++ separator :: Text.rejoin separator (second :: rest) := by
    rw [← Text.rejoin_pieces separator p.raw, hp, Text.rejoin]
  have hfree : separator ∉ first := Text.not_mem_of_mem_pieces (hp ▸ List.mem_cons_self)
  rw [isAbsolute, hraw]
  cases first with
  | nil => rfl
  | cons b bs =>
    have hb : b ≠ separator := fun e => hfree (by simp [e])
    simp [hb]

theorem isAbsolute_of_pieces_singleton {p : Path} {piece : RawText}
    (hp : Text.pieces separator p.raw = [piece]) : p.isAbsolute = false := by
  have hraw : p.raw = piece := by
    rw [← Text.rejoin_pieces separator p.raw, hp, Text.rejoin]
  have hfree : separator ∉ piece := Text.not_mem_of_mem_pieces (hp ▸ List.mem_singleton_self piece)
  rw [← Bool.not_eq_true, isAbsolute, hraw, beq_iff_eq]
  exact fun h => hfree (List.mem_of_head? h)

/-- The parent of a path that ends in a step has the other steps. -/
theorem exists_parent {p : Path} {first last : RawText} {rest : List RawText}
    (hp : Text.pieces separator p.raw = first :: (rest ++ [last])) (hlast : (step? last).isSome) :
    ∃ above, p.parent = some above ∧ above ≠ blank ∧ above.isAbsolute = p.isAbsolute ∧
      ∃ c, steps p.raw = steps above.raw ++ [c] := by
  obtain ⟨c, hc⟩ := Option.isSome_iff_exists.1 hlast
  have hfree : ∀ q ∈ first :: (rest ++ [last]), separator ∉ q := fun q hq =>
    Text.not_mem_of_mem_pieces (hp ▸ hq)
  have hfirst := hfree first List.mem_cons_self
  have habsolute : p.isAbsolute = decide (first = []) := by
    obtain ⟨second, more, hmore⟩ := List.exists_cons_of_ne_nil
      (List.append_ne_nil_of_right_ne_nil rest (List.cons_ne_nil last []))
    exact isAbsolute_of_pieces (hmore ▸ hp)
  have hsteps : steps p.raw = (first :: tidyEnd rest).filterMap step? ++ [c] := by
    rw [steps, hp, ← List.cons_append, List.filterMap_append, List.filterMap_cons_some hc,
      List.filterMap_nil]
    simp only [List.filterMap_cons, filterMap_tidyEnd]
  rw [parent_of_pieces hp hlast]
  refine ⟨_, rfl, ?_⟩
  cases htidy : tidyEnd rest with
  | nil =>
    -- What stands between the first piece and the last is no step.
    rw [htidy] at hsteps
    rcases eq_or_ne first [] with rfl | hne
    · rw [habsolute]
      exact ⟨by decide, by decide, c, hsteps⟩
    · have habove : Text.pieces separator first = [first] := Text.pieces_eq_singleton hfirst
      rw [habsolute, if_pos rfl, decide_eq_false hne, if_neg Bool.false_ne_true]
      refine ⟨fun e => hne (congrArg Path.raw e), isAbsolute_of_pieces_singleton habove, c, ?_⟩
      rw [hsteps, steps, habove]
  | cons second more =>
    have hfront : tidyEnd rest <+: rest := List.rdropWhile_prefix _ rest
    rw [htidy] at hsteps hfront
    have hrejoined : ∀ q ∈ first :: second :: more, separator ∉ q :=
      List.forall_mem_cons.2 ⟨hfirst, fun q hq => hfree q (by simp [hfront.subset hq])⟩
    have habove := Text.pieces_rejoin hrejoined (List.cons_ne_nil _ _)
    rw [if_neg (List.cons_ne_nil second more), habsolute]
    refine ⟨fun e => ?_, isAbsolute_of_pieces habove, c, ?_⟩
    · rw [Path.mk.inj e] at habove
      cases habove
    · rw [hsteps, steps, habove]

/-! ## Absolute paths in a workspace -/

/-- The path is absolute, and names the same place whatever the working directory is. -/
structure IsFixed (p : Path) : Prop where
  absolute : p.isAbsolute = true
  steady (w : Workspace) (place : Location) :
    ({ w with workingDir := place } : Workspace).locate p = w.locate p

end Path

namespace Workspace

/-- Where pieces lead is a matter of the tree alone. -/
theorem follow_workingDir (w : Workspace) (place : Location) (pieces : List RawText)
    (start : Location) :
    ({ w with workingDir := place } : Workspace).follow start pieces = w.follow start pieces := by
  induction pieces generalizing start with
  | nil => rfl
  | cons piece rest ih =>
    simp only [follow, ih]
    rfl

/-- Pieces are followed one part after the other. -/
theorem follow_append (w : Workspace) (front back : List RawText) (start : Location) :
    w.follow start (front ++ back) = (w.follow start front >>= fun mid => w.follow mid back) := by
  induction front generalizing start with
  | nil => rfl
  | cons piece rest ih =>
    rw [List.cons_append, follow, follow]
    split
    · rfl
    · rfl
    · split
      · exact ih start
      · split_ifs
        · rfl
        · exact ih _
      · exact ih _

/-- A piece that stands for no step leads to a directory. -/
theorem at?_of_follow_concat {w : Workspace} {front : List RawText} {last : RawText}
    {start place : Location} (h : w.follow start (front ++ [last]) = .ok place)
    (hlast : Path.step? last = none) : w.at? place = some .directory := by
  rw [follow_append, Outcome.bind_eq_ok_iff] at h
  obtain ⟨mid, -, h⟩ := h
  rw [follow, hlast] at h
  split at h
  · cases h
  · cases h
  · rename_i hdirectory
    cases h
    exact hdirectory

/-- What is read is named by a step at the end. -/
theorem exists_last_of_read {w : Workspace} {path : Path} {bytes : ByteArray}
    (h : w.read path = .ok bytes) : ∃ front last,
      Text.pieces Path.separator path.raw = front ++ [last] ∧ (Path.step? last).isSome := by
  obtain ⟨front, last, hpieces⟩ := (List.eq_nil_or_concat' _).resolve_left
    (Text.pieces_ne_nil Path.separator path.raw)
  refine ⟨front, last, hpieces, ?_⟩
  simp only [read, find, locate, Outcome.bind_eq_ok_iff, hpieces] at h
  obtain ⟨entry, ⟨place, ⟨-, -, hfollow⟩, hentry⟩, hfile⟩ := h
  -- Otherwise the path would lead to a directory, which is not read.
  by_contra hnone
  rw [Bool.not_eq_true, Option.isSome_eq_false_iff, Option.isNone_iff_eq_none] at hnone
  rw [at?_of_follow_concat hfollow hnone] at hentry
  cases hentry
  exact Outcome.throw_ne_ok hfile

theorem isAbsolute_pathOf (place : Location) : (pathOf place).isAbsolute = true := by
  rw [pathOf]
  exact List.foldlRecOn (motive := fun path => Path.isAbsolute path = true) _ _ rfl
    fun path h name _ => Path.isAbsolute_join h _

end Workspace

theorem Path.isFixed_iff {p : Path} : p.IsFixed ↔ p.isAbsolute = true := by
  refine ⟨IsFixed.absolute, fun h => ⟨h, fun w place => ?_⟩⟩
  unfold Workspace.locate Workspace.start
  simp only [h, if_true, Workspace.follow_workingDir]

namespace Path.IsFixed

variable {base : Path} (h : base.IsFixed)
include h

theorem join (extension : Path) : (base.join extension).IsFixed :=
  isFixed_iff.2 (isAbsolute_join h.absolute extension)

theorem child (name : String) : (base.child name).IsFixed :=
  h.join _

end Path.IsFixed

end PackageTrial
