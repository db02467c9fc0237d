/-!
# Cutting at a separator

`cutFirst` cuts a list at the first separator, `pieces` at every separator. The two lemmas say that
nothing is lost: putting the separators back gives the list again.
-/

namespace PackageTrial.Text

variable {α : Type} [DecidableEq α]

/-- The parts before and after the first separator, when there is one. -/
def cutFirst (sep : α) (s : List α) : Option (List α × List α) :=
  match s.dropWhile (· != sep) with
  | [] => none
  | _ :: rest => some (s.takeWhile (· != sep), rest)

/-- The runs between separators; there is one more of them than there are separators. -/
def pieces (sep : α) : List α → List (List α)
  | [] => [[]]
  | x :: rest =>
    if x = sep then [] :: pieces sep rest
    else match pieces sep rest with
      | [] => [[x]]
      | p :: ps => (x :: p) :: ps

/-- The pieces one after another, with the separator between neighbours. -/
def rejoin (sep : α) : List (List α) → List α
  | [] => []
  | [p] => p
  | p :: q :: ps => p ++ sep :: rejoin sep (q :: ps)

theorem pieces_ne_nil (sep : α) (s : List α) : pieces sep s ≠ [] := by
  cases s with
  | nil => simp [pieces]
  | cons x rest =>
    by_cases h : x = sep
    · simp [pieces, h]
    · simp only [pieces, h, if_false]
      split <;> simp

theorem rejoin_pieces (sep : α) (s : List α) : rejoin sep (pieces sep s) = s := by
  induction s with
  | nil => rfl
  | cons x rest ih =>
    by_cases h : x = sep
    · rw [pieces, if_pos h]
      cases hp : pieces sep rest with
      | nil => exact absurd hp (pieces_ne_nil sep rest)
      | cons p ps => rw [hp] at ih; simp [rejoin, ih, h]
    · rw [pieces, if_neg h]
      cases hp : pieces sep rest with
      | nil => exact absurd hp (pieces_ne_nil sep rest)
      | cons p ps =>
        rw [hp] at ih
        cases ps with
        | nil => simpa [rejoin] using ih
        | cons q qs => simpa [rejoin] using ih

theorem eq_of_cutFirst {sep : α} {s before after : List α}
    (h : cutFirst sep s = some (before, after)) : s = before ++ sep :: after := by
  unfold cutFirst at h
  split at h
  · simp at h
  · rename_i y rest hd
    simp only [Option.some.injEq, Prod.mk.injEq] at h
    obtain ⟨rfl, rfl⟩ := h
    have hy : y = sep := by
      have := List.head?_dropWhile_not (p := (· != sep)) (l := s)
      rw [hd] at this
      simpa using this
    calc s = s.takeWhile (· != sep) ++ s.dropWhile (· != sep) :=
          (List.takeWhile_append_dropWhile).symm
      _ = _ := by rw [hd, hy]

/-- `cutFirst` on texts. -/
def cut (sep : Char) (s : String) : Option (String × String) :=
  (cutFirst sep s.toList).map fun (before, after) => (String.ofList before, String.ofList after)

end PackageTrial.Text
