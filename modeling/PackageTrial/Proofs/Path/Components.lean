import PackageTrial.Path
import PackageTrial.Proofs.Text.Cut
import PackageTrial.Proofs.Text.Raw

/-!
# Components of extended paths

A separator at the end of a path adds no component to it (`components_separated`), and what follows
the separator adds its own (`components_after_separator`). So an extension adds its steps, which are
ordinary or lead up (`components_join`, `eq_up_or_isOrdinary_of_mem_steps`), and the name of an
entry of a directory (`IsEntryName`) adds one component, whether the path that it extends ends in a
separator, is blank, or neither (`components_child`). The parent of such an entry is the path that
was extended, byte by byte (`parent_child_child`).
-/

namespace PackageTrial.Path

/-- The text is the name of an entry: it holds no separator and stands for a step of its own. -/
structure IsEntryName (name : String) : Prop where
  ne_empty : name ≠ ""
  ne_here : name ≠ "."
  ne_up : name ≠ ".."
  no_separator : '/' ∉ name.toList

theorem raw_ofString (s : String) : (ofString s).raw = RawText.ofString s := rfl

@[simp] theorem display_ofString (s : String) : (ofString s).display = s :=
  RawText.display_ofString s

theorem separator_mem_ofString_iff {s : String} :
    separator ∈ RawText.ofString s ↔ '/' ∈ s.toList := by
  have hcode : ∀ c : Char, c.toNat = separator.toNat ↔ c = '/' := fun c => by
    rw [show separator.toNat = '/'.toNat from rfl, Char.toNat_inj]
  simp [RawText.mem_ofString_iff (show separator < 0x80 by decide), hcode]

/-- The component is a name of its own: it is not empty, holds no separator and is neither `.` nor
`..`. -/
def Component.IsOrdinary : Component → Prop
  | .name bytes => separator ∉ bytes ∧ bytes ≠ [] ∧ bytes ≠ [dot] ∧ bytes ≠ [dot, dot]
  | .root | .here | .up => False

/-- The components that a text adds to the path that it extends. -/
def steps (raw : RawText) : List Component :=
  (Text.pieces separator raw).filterMap step?

namespace IsEntryName

variable {name : String} (h : IsEntryName name)
include h

theorem separator_not_mem : separator ∉ RawText.ofString name :=
  fun hmem => h.no_separator (separator_mem_ofString_iff.1 hmem)

theorem ofString_ne_here : RawText.ofString name ≠ [dot] :=
  fun e => h.ne_here (RawText.ofString_injective (e.trans (by decide)))

theorem isOrdinary : (Component.name (RawText.ofString name)).IsOrdinary := by
  have hne : RawText.ofString name ≠ [] := fun e => h.ne_empty (RawText.ofString_eq_nil_iff.1 e)
  have hup : RawText.ofString name ≠ [dot, dot] :=
    fun e => h.ne_up (RawText.ofString_injective (e.trans (by decide)))
  exact ⟨h.separator_not_mem, hne, h.ofString_ne_here, hup⟩

theorem step? : step? (RawText.ofString name) = some (.name (RawText.ofString name)) := by
  obtain ⟨-, hne, hhere, hup⟩ := h.isOrdinary
  rw [Path.step?, if_neg (by simp [hne, hhere]), if_neg hup]

theorem isAbsolute_append (back : RawText) :
    Path.isAbsolute ⟨RawText.ofString name ++ back⟩ = false := by
  obtain ⟨b, bs, hb⟩ := List.exists_cons_of_ne_nil h.isOrdinary.2.1
  have hfirst : b ≠ separator := fun e => h.separator_not_mem (by simp [hb, e])
  simp [Path.isAbsolute, hb, hfirst]

theorem isAbsolute : (ofString name).isAbsolute = false := by
  simpa [ofString] using h.isAbsolute_append []

theorem pieces : Text.pieces separator (RawText.ofString name) = [RawText.ofString name] :=
  Text.pieces_eq_singleton h.separator_not_mem

theorem steps : steps (RawText.ofString name) = [.name (RawText.ofString name)] := by
  rw [Path.steps, h.pieces, List.filterMap_cons_some h.step?, List.filterMap_nil]

/-- What is appended to a name leaves it a name, if it holds no separator and more than dots. -/
theorem append {ending : String} (hending : '/' ∉ ending.toList) {c : Char}
    (hc : c ∈ ending.toList) (hdot : c ≠ '.') : IsEntryName (name ++ ending) := by
  have hne : ∀ t : String, c ∉ t.toList → name ++ ending ≠ t := by
    rintro t ht rfl
    exact ht (by simp [hc])
  exact ⟨hne _ (by simp), hne _ (by simp [hdot]), hne _ (by simp [hdot]),
    by simp [h.no_separator, hending]⟩

end IsEntryName

theorem pieces_append (front back : RawText) :
    Text.pieces separator (front ++ separator :: back) =
      Text.pieces separator front ++ Text.pieces separator back :=
  Text.pieces_append separator front back

theorem eq_up_or_isOrdinary_of_mem_steps {raw : RawText} {c : Component} (hc : c ∈ steps raw) :
    c = .up ∨ c.IsOrdinary := by
  obtain ⟨piece, hpiece, hstep⟩ := List.mem_filterMap.1 hc
  unfold step? at hstep
  split_ifs at hstep with hskip hup
  · cases hstep
    exact .inl rfl
  · cases hstep
    rw [not_or] at hskip
    exact .inr ⟨Text.not_mem_of_mem_pieces hpiece, hskip.1, hskip.2, hup⟩

/-- The component that stands before the steps of a path, told by its first piece. -/
def lead (p : Path) (first : RawText) : List Component :=
  if p.isAbsolute then [.root] else if first = [dot] then [.here] else []

theorem components_of_pieces {p : Path} {first : RawText} {rest : List RawText}
    (hp : Text.pieces separator p.raw = first :: rest) :
    p.components = p.lead first ++ steps p.raw := by
  simp only [components, steps, hp, lead]

theorem steps_nil : steps [] = [] := rfl

theorem steps_append (front back : RawText) :
    steps (front ++ separator :: back) = steps front ++ steps back := by
  rw [steps, pieces_append, List.filterMap_append, steps, steps]

theorem components_separated {raw : RawText} (hraw : raw ≠ []) :
    components ⟨raw ++ [separator]⟩ = components ⟨raw⟩ := by
  obtain ⟨b, bs, rfl⟩ := List.exists_cons_of_ne_nil hraw
  obtain ⟨first, rest, hp⟩ := List.exists_cons_of_ne_nil (Text.pieces_ne_nil separator (b :: bs))
  have hq : Text.pieces separator (b :: bs ++ [separator]) = first :: (rest ++ [[]]) := by
    rw [pieces_append, hp, Text.pieces, List.cons_append]
  have hsteps : steps (b :: bs ++ [separator]) = steps (b :: bs) := by
    rw [steps_append, steps_nil, List.append_nil]
  rw [components_of_pieces hp, components_of_pieces hq, hsteps]
  rfl

theorem components_after_separator (front back : RawText) :
    components ⟨front ++ separator :: back⟩ =
      components ⟨front ++ [separator]⟩ ++ steps back := by
  obtain ⟨first, rest, hfront⟩ := List.exists_cons_of_ne_nil (Text.pieces_ne_nil separator front)
  have hpieces : ∀ tail, Text.pieces separator (front ++ separator :: tail) =
      first :: (rest ++ Text.pieces separator tail) := fun tail => by
    rw [pieces_append, hfront, List.cons_append]
  have hlead : lead ⟨front ++ separator :: back⟩ first = lead ⟨front ++ [separator]⟩ first := by
    cases front <;> rfl
  rw [components_of_pieces (hpieces back), components_of_pieces (hpieces []), hlead,
    steps_append, steps_append, steps_nil, List.append_nil, List.append_assoc]

/-- A relative extension stands alone where the path is blank. Elsewhere it follows a separator, in
which the path may end already. -/
theorem join_cases {base extension : Path} (h : extension.isAbsolute = false) :
    (base.raw = [] ∧ base.join extension = extension) ∨
      ∃ front, (base.raw ≠ [] ∧ base.raw = front ∨ base.raw = front ++ [separator]) ∧
        base.join extension = ⟨front ++ separator :: extension.raw⟩ := by
  rw [join, if_neg (by simp [h])]
  by_cases hblank : base.raw = []
  · left
    rw [if_pos (.inl hblank), hblank]
    exact ⟨rfl, rfl⟩
  right
  by_cases hend : base.raw.getLast? = some separator
  · obtain ⟨front, hfront⟩ := List.getLast?_eq_some_iff.1 hend
    refine ⟨front, .inr hfront, ?_⟩
    rw [if_pos (.inr hend), hfront, List.append_assoc]
    rfl
  · refine ⟨base.raw, .inl ⟨hblank, rfl⟩, ?_⟩
    rw [if_neg (not_or.2 ⟨hblank, hend⟩)]

/-- A relative extension adds its steps to a path that is not blank. -/
theorem components_join {base extension : Path} (hbase : base.raw ≠ [])
    (hextension : extension.isAbsolute = false) :
    (base.join extension).components = base.components ++ steps extension.raw := by
  obtain ⟨raw⟩ := base
  rcases join_cases hextension with ⟨hblank, -⟩ | ⟨front, ⟨-, hfront⟩ | hfront, hjoin⟩
  · exact absurd hblank hbase
  · dsimp only at hfront
    subst hfront
    rw [hjoin, components_after_separator, components_separated hbase]
  · dsimp only at hfront
    rw [hjoin, components_after_separator, hfront]

theorem components_child {name : String} (h : IsEntryName name) (base : Path) :
    (base.child name).components = base.components ++ [.name (RawText.ofString name)] := by
  rcases eq_or_ne base.raw [] with hblank | hbase
  · have hlead : (ofString name).lead (RawText.ofString name) = [] := by
      rw [lead, if_neg (by simp [h.isAbsolute]), if_neg h.ofString_ne_here]
    have hname : (ofString name).components = [.name (RawText.ofString name)] := by
      rw [components_of_pieces h.pieces, hlead, List.nil_append]
      exact h.steps
    obtain ⟨raw⟩ := base
    cases hblank
    rw [child, join, if_neg (by simp [h.isAbsolute]), if_pos (.inl rfl)]
    exact hname
  · rw [child, components_join hbase h.isAbsolute]
    exact congrArg _ h.steps

/-- One entry below another adds a component for each. -/
theorem components_foldl_child {names : List String} (h : ∀ n ∈ names, IsEntryName n)
    (base : Path) : (names.foldl child base).components =
      base.components ++ names.map fun n => .name (RawText.ofString n) := by
  induction names generalizing base with
  | nil => simp
  | cons n rest ih =>
    obtain ⟨hn, hrest⟩ := List.forall_mem_cons.1 h
    rw [List.foldl_cons, ih hrest, components_child hn, List.append_assoc, List.map_cons,
      List.singleton_append]

/-! ## Parents -/

theorem tidyEnd_concat {piece : RawText} (h : (step? piece).isSome) (pieces : List RawText) :
    tidyEnd (pieces ++ [piece]) = pieces ++ [piece] := by
  obtain ⟨c, hc⟩ := Option.isSome_iff_exists.1 h
  simp [tidyEnd, hc]

/-- An entry's path is its name alone, or ends in a separator and the name. -/
theorem raw_child {name : String} (h : IsEntryName name) (base : Path) :
    (base.child name).raw = RawText.ofString name ∨
      ∃ front, (base.child name).raw = front ++ separator :: RawText.ofString name :=
  (join_cases h.isAbsolute).imp (fun ⟨_, hjoin⟩ => congrArg raw hjoin)
    fun ⟨front, _, hjoin⟩ => ⟨front, congrArg raw hjoin⟩

/-- The pieces of an entry's path are those of the directory, but for an empty one at their end, and
the name. -/
theorem exists_pieces_child {name : String} (h : IsEntryName name) (base : Path) : ∃ front,
    Text.pieces separator (base.child name).raw = front ++ [RawText.ofString name] ∧
      (Text.pieces separator base.raw = front ∨
        Text.pieces separator base.raw = front ++ [[]]) := by
  rcases join_cases h.isAbsolute with ⟨hblank, hjoin⟩ | ⟨front, hbase, hjoin⟩
  · exact ⟨[], by rw [child, hjoin, List.nil_append]; exact h.pieces, .inr (by rw [hblank]; rfl)⟩
  · refine ⟨Text.pieces separator front, ?_, ?_⟩
    · rw [child, hjoin, pieces_append]
      exact congrArg _ h.pieces
    · rcases hbase with ⟨-, hbase⟩ | hbase
      · exact .inl (by rw [hbase])
      · exact .inr (by rw [hbase, pieces_append, Text.pieces])

/-- The path of an entry does not end in a separator, so another is put between it and what it
holds. -/
theorem raw_child_child {last : String} (hlast : IsEntryName last) {name : String}
    (hname : IsEntryName name) (above : Path) :
    ((above.child last).child name).raw =
      (above.child last).raw ++ separator :: RawText.ofString name := by
  obtain ⟨-, hne, -⟩ := hlast.isOrdinary
  have hends : ∃ front, (above.child last).raw = front ++ RawText.ofString last := by
    rcases raw_child hlast above with h | ⟨front, h⟩
    · exact ⟨[], h⟩
    · exact ⟨front ++ [separator], by simp [h]⟩
  obtain ⟨front, h⟩ := hends
  have hend : (above.child last).raw.getLast? ≠ some separator := by
    rw [h, List.getLast?_append_of_ne_nil _ hne]
    exact fun e => hlast.separator_not_mem (List.mem_of_getLast? e)
  have hblank : (above.child last).raw ≠ [] := by simp [h, hne]
  generalize above.child last = p at hblank hend ⊢
  rw [child, join, if_neg (by simp [hname.isAbsolute]), if_neg (by simp [hblank, hend])]
  rfl

/-- The parent of a path that ends in a step is what its other pieces make. -/
theorem parent_of_pieces {p : Path} {first last : RawText} {rest : List RawText}
    (hp : Text.pieces separator p.raw = first :: (rest ++ [last])) (hlast : (step? last).isSome) :
    p.parent = some ⟨if tidyEnd rest = [] then if p.isAbsolute then [separator] else first
      else Text.rejoin separator (first :: tidyEnd rest)⟩ := by
  have hsteps : rest ++ [last] ≠ [] := List.append_ne_nil_of_right_ne_nil _ (List.cons_ne_nil _ _)
  unfold parent
  rw [hp]
  dsimp only
  rw [tidyEnd_concat hlast, if_neg hsteps, List.dropLast_concat]
  cases tidyEnd rest with
  | nil => rfl
  | cons _ _ => rfl

/-- **The parent of an entry** is the path that was extended, when that is an entry itself. -/
theorem parent_child_child {last : String} (hlast : IsEntryName last) {name : String}
    (hname : IsEntryName name) (above : Path) :
    ((above.child last).child name).parent = some (above.child last) := by
  have hraw := raw_child_child hlast hname above
  have hpieces : Text.pieces separator ((above.child last).child name).raw =
      Text.pieces separator (above.child last).raw ++ [RawText.ofString name] := by
    rw [hraw, pieces_append, hname.pieces]
  have hstep : ∀ {n}, IsEntryName n → (Path.step? (RawText.ofString n)).isSome := fun h => by
    rw [h.step?]
    rfl
  rcases raw_child hlast above with h | ⟨front, h⟩
  · -- The path above is the entry's name alone.
    have habsolute : ((above.child last).child name).isAbsolute = false := by
      rw [isAbsolute, hraw, h]
      exact hlast.isAbsolute_append _
    have htwo : Text.pieces separator ((above.child last).child name).raw =
        RawText.ofString last :: ([] ++ [RawText.ofString name]) := by
      rw [hpieces, h, hlast.pieces]
      rfl
    have hnil : tidyEnd [] = [] := rfl
    rw [parent_of_pieces htwo (hstep hname), if_pos hnil, habsolute, if_neg Bool.false_ne_true, ← h]
  · obtain ⟨first, rest, hfront⟩ := List.exists_cons_of_ne_nil (Text.pieces_ne_nil separator front)
    have habove : Text.pieces separator (above.child last).raw =
        first :: (rest ++ [RawText.ofString last]) := by
      rw [h, pieces_append, hfront, hlast.pieces, List.cons_append]
    rw [habove, List.cons_append] at hpieces
    have hne : rest ++ [RawText.ofString last] ≠ [] :=
      List.append_ne_nil_of_right_ne_nil _ (List.cons_ne_nil _ _)
    rw [parent_of_pieces hpieces (hstep hname), tidyEnd_concat (hstep hlast), if_neg hne, ← habove,
      Text.rejoin_pieces]

end PackageTrial.Path
