import PackageTrial.Proofs.Outcome
import PackageTrial.Proofs.Trial.Course

/-!
# The line of stages

Whatever stages are asked for, in any order and however often, those visited are the beginning of
one of the two full histories. What would leave the line is refused and changes nothing, and what
keeps to it is granted (`attempts_keep_line`).

Which stage may follow which is a matter of rank, the number of stages that lie before it: only one
of the next rank may, and each of these (`allows_iff_rank`). So one move after another keeps the
ranks of the stages visited counting up from zero (`InOrder`). This is as much as being the
beginning of a full history (`onLine_iff_ranked`), because a stage is known by its rank but at the
one place where the line forks.
-/

namespace PackageTrial

namespace Stage

/-! ## Ranks -/

/-- How many stages lie before this one. -/
def rank : Stage → Nat
  | .start => 0
  | .dependenciesDeclared => 1
  | .layoutComputed => 2
  | .configured => 3
  | .built => 4
  | .executed | .skippedExecution => 5
  | .done => 6

/-- **The stages that may follow another are those of the next rank.** -/
theorem allows_iff_rank (s t : Stage) : s.allows t = true ↔ t.rank = s.rank + 1 := by
  cases s <;> cases t <;> decide

theorem rank_lt (s : Stage) : s.rank < 7 := by
  cases s <;> decide

theorem rank_eq_five_iff (s : Stage) : s.rank = 5 ↔ s = .executed ∨ s = .skippedExecution := by
  cases s <;> decide

/-- A stage is known by its rank but where the line forks. -/
theorem eq_of_rank_eq {s t : Stage} (h : s.rank = t.rank) (hfork : t.rank ≠ 5) : s = t := by
  cases s <;> cases t <;> simp_all [rank]

/-! ## Lists of stages -/

/-- The stages are the beginning of a full history. -/
def OnLine (visited : List Stage) : Prop :=
  visited <+: Trial.fullHistory .executed ∨ visited <+: Trial.fullHistory .skippedExecution

/-- The ranks of the stages count up from zero. -/
def Ranked (visited : List Stage) : Prop :=
  visited.map rank = List.range visited.length

theorem ranked_concat {visited : List Stage} {next : Stage} :
    Ranked (visited ++ [next]) ↔ Ranked visited ∧ next.rank = visited.length := by
  simp [Ranked, List.range_succ]

theorem ranked_fullHistory {last : Stage} (h : last.rank = 5) :
    Ranked (Trial.fullHistory last) := by
  simp only [Ranked, Trial.fullHistory, List.map_cons, h]
  rfl

namespace Ranked

variable {visited : List Stage}

theorem rank_getElem (h : Ranked visited) {i : Nat} (hi : i < visited.length) :
    visited[i].rank = i := by
  have hget : (visited.map rank)[i]? = (List.range visited.length)[i]? := congrArg (·[i]?) h
  simpa [hi] using hget

theorem length_le (h : Ranked visited) : visited.length ≤ 7 := by
  refine Nat.le_of_not_lt fun hlong => ?_
  have hrank : visited[7].rank = 7 := h.rank_getElem hlong
  have hlt : visited[7].rank < 7 := rank_lt _
  omega

theorem of_append {rest : List Stage} (h : Ranked (visited ++ rest)) : Ranked visited := by
  have htake := congrArg (List.take visited.length) h
  simpa [Ranked, List.take_range] using htake

/-- Where the line forks, the stage visited decides which of the histories it is. -/
theorem prefix_fullHistory (h : Ranked visited) {last : Stage} (hlast : last.rank = 5)
    (hfork : ∀ stage, visited[5]? = some stage → stage = last) :
    visited <+: Trial.fullHistory last := by
  rw [List.prefix_iff_getElem]
  refine ⟨h.length_le, fun i hi => ?_⟩
  have hfull := (ranked_fullHistory hlast).rank_getElem (Nat.lt_of_lt_of_le hi h.length_le)
  -- the ranks agree everywhere, and so do the stages but perhaps at the fork
  by_cases hfive : i = 5
  · subst hfive
    exact hfork _ (List.getElem?_eq_getElem hi)
  · exact eq_of_rank_eq ((h.rank_getElem hi).trans hfull.symm) (hfull.trans_ne hfive)

theorem onLine (h : Ranked visited) : OnLine visited := by
  cases hstage : visited[5]? with
  | none => exact .inl (h.prefix_fullHistory rfl (by simp [hstage]))
  | some stage =>
    obtain ⟨hlt, hget⟩ := List.getElem?_eq_some_iff.1 hstage
    have hrank : stage.rank = 5 := hget ▸ h.rank_getElem hlt
    rcases (rank_eq_five_iff stage).1 hrank with rfl | rfl
    · exact .inl (h.prefix_fullHistory rfl (by simp [hstage]))
    · exact .inr (h.prefix_fullHistory rfl (by simp [hstage]))

end Ranked

/-- **The beginnings of the full histories are the lists whose ranks count up from zero.** -/
theorem onLine_iff_ranked (visited : List Stage) : OnLine visited ↔ Ranked visited := by
  refine ⟨?_, Ranked.onLine⟩
  rintro (⟨rest, hfull⟩ | ⟨rest, hfull⟩)
  · exact Ranked.of_append (hfull ▸ ranked_fullHistory rfl)
  · exact Ranked.of_append (hfull ▸ ranked_fullHistory rfl)

end Stage

namespace Progress

open Stage (OnLine Ranked onLine_iff_ranked ranked_concat)

/-! ## Asking for stages -/

/-- Moves to the next stage, of stages that are held in place. -/
def attempt (next : Stage) : ExceptT StageError (StateM Progress) Unit := do
  let p ← get
  if p.current.allows next then set (⟨p.visited ++ [next]⟩ : Progress)
  else throw ⟨p.current, next⟩

/-- Asks for one stage after another, also after a refusal. -/
def attempts (requested : List Stage) : StateM Progress (List (Except StageError Unit)) :=
  requested.mapM fun next => (attempt next).run

/-- What was asked for and not refused. -/
def made (requested : List Stage) (answers : List (Except StageError Unit)) : List Stage :=
  ((requested.zip answers).filter (·.2.isOk)).map (·.1)

theorem made_cons (next : Stage) (rest : List Stage) (answer : Except StageError Unit)
    (answers : List (Except StageError Unit)) :
    made (next :: rest) (answer :: answers) = made [next] [answer] ++ made rest answers := by
  rw [made, made, made, ← List.map_append, ← List.filter_append]
  rfl

theorem run_attempt (next : Stage) (p : Progress) : (attempt next).run.run p =
    if p.current.allows next then (.ok (), ⟨p.visited ++ [next]⟩)
    else (.error ⟨p.current, next⟩, p) := by
  rw [attempt, Outcome.run_get_bind]
  split <;> rfl

theorem run_attempts_cons (next : Stage) (rest : List Stage) (p : Progress) :
    (attempts (next :: rest)).run p =
      (((attempt next).run.run p).1 :: ((attempts rest).run ((attempt next).run.run p).2).1,
        ((attempts rest).run ((attempt next).run.run p).2).2) := by
  simp only [attempts, List.mapM_cons]
  rfl

theorem visited_attempt (next : Stage) (p : Progress) : ((attempt next).run.run p).2.visited =
    p.visited ++ made [next] [((attempt next).run.run p).1] := by
  rw [run_attempt]
  split
  · rfl
  · exact (List.append_nil _).symm

/-- **The stages visited are those visited before and those that were not refused**, in order. -/
theorem visited_attempts (requested : List Stage) (p : Progress) :
    ((attempts requested).run p).2.visited =
      p.visited ++ made requested ((attempts requested).run p).1 := by
  induction requested generalizing p with
  | nil => exact (List.append_nil _).symm
  | cons next rest ih =>
    rw [run_attempts_cons, ih, visited_attempt, List.append_assoc, ← made_cons]

/-! ## What stays so, whatever is asked for -/

/-- Stages that have been visited in order, the first one at least. -/
structure InOrder (p : Progress) : Prop where
  begun : p.visited ≠ []
  ranked : Ranked p.visited

theorem inOrder_initial : initial.InOrder :=
  ⟨List.cons_ne_nil _ _, rfl⟩

namespace InOrder

variable {p : Progress}

theorem getLast? (h : p.InOrder) : p.visited.getLast? = some p.current := by
  rw [current, List.getLast?_eq_some_getLast h.begun, Option.getD_some]

theorem rank_current (h : p.InOrder) : p.current.rank + 1 = p.visited.length := by
  obtain ⟨before, hvisited⟩ := List.getLast?_eq_some_iff.1 h.getLast?
  have hrank := (ranked_concat.1 (hvisited ▸ h.ranked)).2
  rw [hrank, hvisited, List.length_append, List.length_singleton]

/-- What may follow is what keeps the line. -/
theorem allows_iff (h : p.InOrder) (next : Stage) :
    p.current.allows next = true ↔ OnLine (p.visited ++ [next]) := by
  rw [Stage.allows_iff_rank, h.rank_current, onLine_iff_ranked, ranked_concat,
    and_iff_right h.ranked]

theorem attempt (h : p.InOrder) (next : Stage) : InOrder ((attempt next).run.run p).2 := by
  rw [run_attempt]
  split
  · rename_i hallows
    exact ⟨by simp, (onLine_iff_ranked _).1 ((h.allows_iff next).1 hallows)⟩
  · exact h

theorem attempts (h : p.InOrder) (requested : List Stage) :
    InOrder ((attempts requested).run p).2 := by
  induction requested generalizing p with
  | nil => exact h
  | cons next rest ih =>
    rw [run_attempts_cons]
    exact ih (h.attempt next)

theorem attempt_eq_ok_iff (h : p.InOrder) (next : Stage) (q : Progress) :
    (Progress.attempt next).run.run p = (.ok (), q) ↔
      q = ⟨p.visited ++ [next]⟩ ∧ OnLine (p.visited ++ [next]) := by
  rw [run_attempt, ← h.allows_iff]
  by_cases hallows : p.current.allows next = true
  · rw [if_pos hallows]
    constructor
    · rintro ⟨⟩
      exact ⟨rfl, hallows⟩
    · rintro ⟨rfl, -⟩
      rfl
  · rw [if_neg hallows]
    exact ⟨nofun, fun hmoves => absurd hmoves.2 hallows⟩

theorem attempt_eq_error_iff (h : p.InOrder) (next : Stage) (e : StageError) (q : Progress) :
    (Progress.attempt next).run.run p = (.error e, q) ↔
      (e = ⟨p.current, next⟩ ∧ q = p) ∧ ¬ OnLine (p.visited ++ [next]) := by
  rw [run_attempt, ← h.allows_iff]
  by_cases hallows : p.current.allows next = true
  · rw [if_pos hallows]
    exact ⟨nofun, fun hrefuses => absurd hallows hrefuses.2⟩
  · rw [if_neg hallows]
    constructor
    · rintro ⟨⟩
      exact ⟨⟨rfl, rfl⟩, hallows⟩
    · rintro ⟨⟨rfl, rfl⟩, -⟩
      rfl

end InOrder

/-- Nothing follows the last stage. -/
theorem run_attempts_of_done {p : Progress} (h : p.current = .done) (requested : List Stage) :
    (attempts requested).run p = (requested.map fun next => .error ⟨.done, next⟩, p) := by
  induction requested with
  | nil => rfl
  | cons next rest ih =>
    have hrefused : ¬ p.current.allows next = true := by
      rw [Stage.allows_iff_rank, h]
      exact Nat.ne_of_lt (Stage.rank_lt next)
    rw [run_attempts_cons, run_attempt, if_neg hrefused, ih, h, List.map_cons]

/-- The same stages, held in place and handed over. -/
theorem advance_eq (p : Progress) (next : Stage) :
    p.advance next = match (attempt next).run.run p with
      | (.ok (), q) => .ok q
      | (.error e, _) => .error e := by
  rw [run_attempt, advance]
  split <;> rfl

/-- Stages that keep to the line, after what was asked for has been answered. -/
structure KeepsLine (requested : List Stage) (answers : List (Except StageError Unit))
    (p : Progress) : Prop where
  /-- Those visited are the beginning of a full history. -/
  onLine : OnLine p.visited
  /-- They are the start, and what was asked for and not refused, in order. -/
  visited_eq : p.visited = .start :: made requested answers
  /-- The stage reached is the last of them. -/
  getLast?_visited : p.visited.getLast? = some p.current
  /-- So there are no more than six moves. -/
  length_made_le : (made requested answers).length ≤ 6
  /-- A move is made where it leads to the beginning of a full history. -/
  moves_iff : ∀ next q, (attempt next).run.run p = (.ok (), q) ↔
    q = ⟨p.visited ++ [next]⟩ ∧ OnLine (p.visited ++ [next])
  /-- Any other is refused, which tells the stage reached and the one asked for and changes
  nothing. -/
  refuses_iff : ∀ next e q, (attempt next).run.run p = (.error e, q) ↔
    (e = ⟨p.current, next⟩ ∧ q = p) ∧ ¬ OnLine (p.visited ++ [next])
  /-- Once the last stage is reached, all is refused. -/
  ended : p.current = .done → ∀ later,
    (attempts later).run p = (later.map fun next => .error ⟨.done, next⟩, p)
  /-- Where the stages are handed over instead of held in place, the answers are the same. -/
  advance_eq : ∀ next, p.advance next = match (attempt next).run.run p with
    | (.ok (), q) => .ok q
    | (.error e, _) => .error e

/-- **Whatever is asked for, the stages keep to the line.** -/
theorem attempts_keep_line (requested : List Stage) :
    KeepsLine requested ((attempts requested).run initial).1
      ((attempts requested).run initial).2 :=
  have h := inOrder_initial.attempts requested
  have hvisited := visited_attempts requested initial
  { onLine := h.ranked.onLine
    visited_eq := hvisited
    getLast?_visited := h.getLast?
    length_made_le := by
      have hlength := h.ranked.length_le
      rw [hvisited, List.length_append] at hlength
      exact Nat.le_of_add_le_add_left hlength
    moves_iff := h.attempt_eq_ok_iff
    refuses_iff := h.attempt_eq_error_iff
    ended := run_attempts_of_done
    advance_eq := Progress.advance_eq _ }

/-- Nothing is lost by asking for what comes too early. -/
example : (attempts [.configured, .dependenciesDeclared]).run initial =
    ([.error ⟨.start, .configured⟩, .ok ()], ⟨[.start, .dependenciesDeclared]⟩) := rfl

end Progress

end PackageTrial
