import PackageTrial.Text.Blank
import PackageTrial.Text.Cut
import Mathlib.Data.List.DropRight
import Mathlib.Data.List.TakeWhile

/-!
# Cutting and trimming

What a cut at the first separator gives, told without the cutting: the part before holds no
separator, and the two parts with a separator between them are the whole (`cut_eq_some_iff`).
Cutting at every separator is the library's `List.splitOn`, so pieces without separators that are
put together come apart again (`pieces_rejoin`). What is put around a text and holds no separator
only makes the outer pieces longer (`exists_piece_between`). Trimming takes nothing from a front
without blanks (`trimBlanks_append`), and nothing from what was trimmed before (`trim_trim`); what
it takes from a text are blanks around it (`exists_trim`).
-/

namespace PackageTrial.Text

/-! ## Cutting -/

theorem cutFirst_eq_some_iff {α : Type} [DecidableEq α] {sep : α} {s before after : List α} :
    cutFirst sep s = some (before, after) ↔ s = before ++ sep :: after ∧ sep ∉ before := by
  constructor
  · intro h
    refine ⟨eq_of_cutFirst h, ?_⟩
    unfold cutFirst at h
    split at h
    · cases h
    · cases h
      intro hmem
      simpa using List.mem_takeWhile_imp hmem
  · rintro ⟨rfl, hsep⟩
    have hkeep : ∀ x ∈ before, (x != sep) = true := fun x hx => by
      have : x ≠ sep := fun e => hsep (e ▸ hx)
      simpa using this
    rw [cutFirst, List.dropWhile_append_of_pos hkeep, List.takeWhile_append_of_pos hkeep]
    simp

theorem cutFirst_eq_none_iff {α : Type} [DecidableEq α] {sep : α} {s : List α} :
    cutFirst sep s = none ↔ sep ∉ s := by
  unfold cutFirst
  split
  · rename_i h
    rw [List.dropWhile_eq_nil_iff] at h
    simpa using fun hmem => by simpa using h sep hmem
  · rename_i y rest h
    have hy := List.head?_dropWhile_not (· != sep) s
    have hmem : y ∈ s := (List.dropWhile_suffix (· != sep)).subset (h ▸ List.mem_cons_self)
    simp_all

theorem cut_eq_some_iff {sep : Char} {s before after : String} :
    cut sep s = some (before, after) ↔
      s.toList = before.toList ++ sep :: after.toList ∧ sep ∉ before.toList := by
  rw [← cutFirst_eq_some_iff, cut, Option.map_eq_some_iff]
  constructor
  · rintro ⟨⟨a, b⟩, h, e⟩
    cases e
    simpa using h
  · intro h
    exact ⟨_, h, by simp⟩

theorem length_lt_of_cut {sep : Char} {s before after : String}
    (h : cut sep s = some (before, after)) : after.toList.length < s.toList.length := by
  rw [(cut_eq_some_iff.1 h).1]
  simp only [List.length_append, List.length_cons]
  omega

theorem cut_eq_none_iff {sep : Char} {s : String} : cut sep s = none ↔ sep ∉ s.toList := by
  rw [cut, Option.map_eq_none_iff, cutFirst_eq_none_iff]

/-! ## Pieces -/

theorem pieces_eq_splitOn {α : Type} [DecidableEq α] (sep : α) (s : List α) :
    pieces sep s = s.splitOn sep := by
  induction s with
  | nil => simp [pieces]
  | cons x rest ih =>
    rw [pieces, List.splitOn_cons_eq_if_modifyHead, ih]
    by_cases h : x = sep
    · simp [h]
    · rw [if_neg h, if_neg (by simpa using h)]
      cases hp : rest.splitOn sep with
      | nil => exact absurd hp (List.splitOn_ne_nil sep rest)
      | cons p ps => simp

theorem pieces_append {α : Type} [DecidableEq α] (sep : α) (front back : List α) :
    pieces sep (front ++ sep :: back) = pieces sep front ++ pieces sep back := by
  simp only [pieces_eq_splitOn, List.splitOn_append_cons_self]

theorem rejoin_eq_intercalate {α : Type} (sep : α) (ps : List (List α)) :
    rejoin sep ps = [sep].intercalate ps := by
  induction ps with
  | nil => rfl
  | cons p ps ih =>
    cases ps with
    | nil => simp [rejoin]
    | cons q qs =>
      rw [rejoin, ih, List.intercalate_cons_cons]
      simp

theorem mem_rejoin {α : Type} {x sep : α} {ps : List (List α)} (h : x ∈ rejoin sep ps) :
    x = sep ∨ ∃ p ∈ ps, x ∈ p := by
  fun_induction rejoin sep ps with
  | case1 => cases h
  | case2 p => exact .inr ⟨p, List.mem_singleton_self p, h⟩
  | case3 p q qs ih =>
    rcases List.mem_append.1 h with h | h
    · exact .inr ⟨p, List.mem_cons_self, h⟩
    · rcases List.mem_cons.1 h with rfl | h
      · exact .inl rfl
      · exact (ih h).imp_right fun ⟨r, hr, hx⟩ => ⟨r, List.mem_cons_of_mem p hr, hx⟩

theorem rejoin_cons_ne_nil {α : Type} {sep : α} {p : List α} (hp : p ≠ []) (ps : List (List α)) :
    rejoin sep (p :: ps) ≠ [] := by
  cases ps with
  | nil => exact hp
  | cons q qs => exact List.append_ne_nil_of_left_ne_nil hp _

/-- What is put together comes apart there, and wherever it holds a separator of its own. -/
theorem pieces_rejoin_eq_flatMap {α : Type} [DecidableEq α] {sep : α} {ps : List (List α)}
    (hne : ps ≠ []) : pieces sep (rejoin sep ps) = ps.flatMap (pieces sep) := by
  induction ps with
  | nil => exact absurd rfl hne
  | cons p ps ih =>
    cases ps with
    | nil => simp [rejoin]
    | cons q qs =>
      rw [rejoin, pieces_append, ih (List.cons_ne_nil q qs)]
      rfl

theorem pieces_eq_singleton {α : Type} [DecidableEq α] {sep : α} {s : List α} (h : sep ∉ s) :
    pieces sep s = [s] := by
  rw [pieces_eq_splitOn, List.splitOn_eq_singleton h]

/-- Pieces that hold no separator come apart again where they were put together. -/
theorem pieces_rejoin {α : Type} [DecidableEq α] {sep : α} {ps : List (List α)}
    (h : ∀ p ∈ ps, sep ∉ p) (hne : ps ≠ []) : pieces sep (rejoin sep ps) = ps := by
  rw [pieces_eq_splitOn, rejoin_eq_intercalate, List.splitOn_intercalate sep h hne]

theorem not_mem_of_mem_pieces {α : Type} [DecidableEq α] {sep : α} {s p : List α}
    (hp : p ∈ pieces sep s) : sep ∉ p := by
  induction s generalizing p with
  | nil => simp_all [pieces]
  | cons x rest ih =>
    unfold pieces at hp
    split at hp
    · rcases List.mem_cons.1 hp with rfl | hp
      · exact List.not_mem_nil
      · exact ih hp
    · rename_i hx
      cases hps : pieces sep rest with
      | nil => exact absurd hps (pieces_ne_nil sep rest)
      | cons q qs =>
        rw [hps] at hp ih
        rcases List.mem_cons.1 hp with rfl | hp
        · rw [List.mem_cons, not_or]
          exact ⟨fun e => hx e.symm, ih List.mem_cons_self⟩
        · exact ih (List.mem_cons_of_mem _ hp)

/-- What stands before a text and holds no separator goes to the first piece. -/
theorem pieces_append_left {α : Type} [DecidableEq α] {sep : α} {front s first : List α}
    {rest : List (List α)} (hfront : sep ∉ front) (h : pieces sep s = first :: rest) :
    pieces sep (front ++ s) = (front ++ first) :: rest := by
  induction front with
  | nil => exact h
  | cons x front ih =>
    rw [List.mem_cons, not_or] at hfront
    rw [List.cons_append, pieces, if_neg (Ne.symm hfront.1), ih hfront.2]
    rfl

theorem rejoin_concat_append {α : Type} (sep : α) (init : List (List α)) (last back : List α) :
    rejoin sep (init ++ [last]) ++ back = rejoin sep (init ++ [last ++ back]) := by
  induction init with
  | nil => rfl
  | cons p init ih =>
    cases init with
    | nil => simp [rejoin]
    | cons q qs => simpa [rejoin] using ih

/-- What stands after a text and holds no separator goes to the last piece. -/
theorem pieces_append_right {α : Type} [DecidableEq α] {sep : α} {s last back : List α}
    {init : List (List α)} (hback : sep ∉ back) (h : pieces sep s = init ++ [last]) :
    pieces sep (s ++ back) = init ++ [last ++ back] := by
  have hfree : ∀ p ∈ init ++ [last], sep ∉ p := fun p hp => not_mem_of_mem_pieces (h ▸ hp)
  have hfree' : ∀ p ∈ init ++ [last ++ back], sep ∉ p := by
    intro p hp
    rcases List.mem_append.1 hp with hp | hp
    · exact hfree p (List.mem_append_left _ hp)
    · rw [List.mem_singleton.1 hp, List.mem_append, not_or]
      exact ⟨hfree last (by simp), hback⟩
  rw [← rejoin_pieces sep s, h, rejoin_concat_append, pieces_rejoin hfree' (by simp)]

/-- A piece is longer by no more than what was put around the text. -/
theorem exists_piece_between {α : Type} [DecidableEq α] {sep : α} {front s back p : List α}
    (hfront : sep ∉ front) (hback : sep ∉ back) (h : p ∈ pieces sep (front ++ s ++ back)) :
    ∃ q ∈ pieces sep s, p.length ≤ q.length + (front.length + back.length) := by
  obtain ⟨init, last, hlast⟩ := (List.eq_nil_or_concat' (pieces sep s)).resolve_left
    (pieces_ne_nil sep s)
  rw [List.append_assoc] at h
  obtain ⟨first, rest, hfirst⟩ := List.exists_cons_of_ne_nil (pieces_ne_nil sep (s ++ back))
  rw [pieces_append_left hfront hfirst] at h
  -- What stands behind is met first: it concerns the last piece alone, which may be the first too.
  have hright := pieces_append_right hback hlast
  have hback : ∀ p ∈ pieces sep (s ++ back),
      ∃ q ∈ pieces sep s, p.length ≤ q.length + back.length := by
    intro p hp
    rw [hright] at hp
    rcases List.mem_append.1 hp with hp | hp
    · exact ⟨p, hlast ▸ List.mem_append_left _ hp, by omega⟩
    · rw [List.mem_singleton.1 hp]
      exact ⟨last, by simp [hlast], by rw [List.length_append]⟩
  rcases List.mem_cons.1 h with rfl | h
  · obtain ⟨q, hq, hle⟩ := hback first (hfirst ▸ List.mem_cons_self)
    exact ⟨q, hq, by rw [List.length_append]; omega⟩
  · obtain ⟨q, hq, hle⟩ := hback p (hfirst ▸ List.mem_cons_of_mem _ h)
    exact ⟨q, hq, by omega⟩

/-! ## Trimming -/

theorem dropWhile_isBlank {s : List Char} (h : ∀ c ∈ s, isBlank c = false) :
    s.dropWhile isBlank = s := by
  cases s with
  | nil => rfl
  | cons c s => rw [List.dropWhile_cons_of_neg (by simp [h c])]

/-- Trimming leaves a front without blanks alone. -/
theorem trimBlanks_append {s : List Char} (hs : s ≠ []) (h : ∀ c ∈ s, isBlank c = false)
    (t : List Char) :
    trimBlanks (s ++ t) = s ++ (t.reverse.dropWhile isBlank).reverse := by
  have hfront : (s ++ t).dropWhile isBlank = s ++ t := by
    rw [List.dropWhile_append, dropWhile_isBlank h, if_neg (by simpa using hs)]
  have hback : s.reverse.dropWhile isBlank = s.reverse := dropWhile_isBlank (by simpa using h)
  rw [trimBlanks, hfront, List.reverse_append, List.dropWhile_append, hback]
  split
  · rename_i hblank
    rw [List.isEmpty_iff.1 hblank]
    simp
  · simp

theorem trimBlanks_trimBlanks (s : List Char) : trimBlanks (trimBlanks s) = trimBlanks s := by
  have hfirst : trimBlanks s <+: s.dropWhile isBlank := List.rdropWhile_prefix isBlank _
  -- What is left begins as it does when only the front is trimmed, so not with a blank.
  have hfront : (trimBlanks s).dropWhile isBlank = trimBlanks s := by
    rw [List.dropWhile_eq_self_iff]
    intro hpos
    rw [hfirst.getElem hpos]
    exact List.dropWhile_eq_self_iff.1 (List.dropWhile_idempotent isBlank s) _
  have hback : (trimBlanks s).rdropWhile isBlank = trimBlanks s := List.rdropWhile_idempotent _ _
  rw [trimBlanks, hfront]
  exact hback

theorem trim_trim (s : String) : trim (trim s) = trim s := by
  simp [trim, trimBlanks_trimBlanks]

theorem trimBlanks_eq_self {s : List Char} (h : ∀ c ∈ s, isBlank c = false) :
    trimBlanks s = s := by
  rw [trimBlanks, dropWhile_isBlank h, dropWhile_isBlank (by simpa using h), List.reverse_reverse]

/-- Trimming a text between blanks gives the text, when it holds none itself. -/
theorem trim_between {front s back : String} (hfront : isBlankText front = true)
    (hback : isBlankText back = true) (h : ∀ c ∈ s.toList, isBlank c = false) :
    trim (front ++ s ++ back) = s := by
  simp only [isBlankText, List.all_eq_true] at hfront hback
  have hend : (back.toList.reverse.dropWhile isBlank) = [] := by
    simpa [List.dropWhile_eq_nil_iff] using hback
  rw [trim, String.toList_append, String.toList_append, List.append_assoc, trimBlanks,
    List.dropWhile_append_of_pos hfront, ← trimBlanks]
  rcases eq_or_ne s.toList [] with hs | hs
  · rw [hs, List.nil_append, trimBlanks, List.dropWhile_eq_nil_iff.2 hback]
    simp [← String.toList_inj, hs]
  · rw [trimBlanks_append hs h, hend]
    simp

theorem trimEnd_eq_self {s : String} (h : ∀ c ∈ s.toList, isBlank c = false) :
    trimEnd s = s := by
  rw [trimEnd, dropWhile_isBlank (by simpa using h), List.reverse_reverse, String.ofList_toList]

/-- A text is what is trimmed, between blanks. -/
theorem exists_trim (s : String) : ∃ front back, s = front ++ trim s ++ back ∧
    isBlankText front = true ∧ isBlankText back = true := by
  refine ⟨.ofList (s.toList.takeWhile isBlank),
    .ofList ((s.toList.dropWhile isBlank).reverse.takeWhile isBlank).reverse, ?_, ?_, ?_⟩
  · have hback : (s.toList.dropWhile isBlank) = trimBlanks s.toList ++
        ((s.toList.dropWhile isBlank).reverse.takeWhile isBlank).reverse := by
      rw [trimBlanks, ← List.reverse_append, List.takeWhile_append_dropWhile, List.reverse_reverse]
    rw [← String.toList_inj]
    simp only [String.toList_append, String.toList_ofList, trim, List.append_assoc, ← hback]
    exact List.takeWhile_append_dropWhile.symm
  · simp only [isBlankText, String.toList_ofList, List.all_eq_true]
    exact fun c hc => List.mem_takeWhile_imp hc
  · simp only [isBlankText, String.toList_ofList, List.all_eq_true, List.mem_reverse]
    exact fun c hc => List.mem_takeWhile_imp hc

end PackageTrial.Text
