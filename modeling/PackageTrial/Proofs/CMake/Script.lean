import PackageTrial.CMake.Files
import Mathlib.Data.List.Basic

/-!
# How scripts are read

What CMake makes of the text of a script. Inside quotes a backslash takes the next character as it
is, and the argument ends at the first quote that none takes (`scanQuoted`); outside of them the
text falls into words, parentheses, blanks and comments (`tokens`). A quoted text is scanned up to
the quote behind it and no further (`scanQuoted_quoted`), and quoting it is escaping one special
character after the other (`quoted_eq_escaping`). A path is quoted with slashes in place of its
backslashes (`quotedPath_eq`). So what a text is read as can be put together from its parts
(`Reads`), and what lines tell from the lines (`Tells`).
-/

namespace PackageTrial.CMake

/-! ## Quoted arguments -/

/-- A character of a quoted argument. -/
inductive Mark
  /-- As it is written; a dollar sign stands for the value of a variable then. -/
  | plain (c : Char)
  /-- Behind a backslash. -/
  | escaped (c : Char)
  deriving DecidableEq

/-- The character that is meant. -/
def Mark.char : Mark → Char
  | .plain c => c
  | .escaped c => c

/-- What it adds to the value of the argument. A semicolon keeps its backslash, which tells it from
the separators of a list. -/
def Mark.text : Mark → List Char
  | .escaped ';' => ['\\', ';']
  | mark => [mark.char]

/-- What follows an opening quote, scanned up to the quote that closes it: the characters of the
argument and the text behind it. There is nothing to scan where no quote closes it. -/
def scanQuoted : List Char → Option (List Mark × List Char)
  | [] => none
  | '\x22' :: rest => some ([], rest)
  | '\\' :: c :: rest => (scanQuoted rest).map fun (marks, after) => (.escaped c :: marks, after)
  | c :: rest => (scanQuoted rest).map fun (marks, after) => (.plain c :: marks, after)

/-- A quoted argument at the front of a text. -/
def scanArgument : List Char → Option (List Mark × List Char)
  | '\x22' :: rest => scanQuoted rest
  | _ => none

theorem scanQuoted_plain {c : Char} (hquote : c ≠ '\x22') (hback : c ≠ '\\') (rest : List Char) :
    scanQuoted (c :: rest) =
      (scanQuoted rest).map fun (marks, after) => (.plain c :: marks, after) := by
  rw [scanQuoted]
  · exact hquote
  · exact fun _ _ h => absurd h hback

theorem length_lt_of_scanQuoted {s after : List Char} {marks : List Mark}
    (h : scanQuoted s = some (marks, after)) : after.length < s.length := by
  fun_induction scanQuoted s generalizing marks after with
  | case1 => cases h
  | case2 rest =>
    cases h
    exact Nat.lt_succ_self _
  | case3 c rest ih =>
    obtain ⟨⟨marks', after'⟩, hscan, h⟩ := Option.map_eq_some_iff.1 h
    cases h
    exact Nat.lt_succ_of_lt (Nat.lt_succ_of_lt (ih hscan))
  | case4 c rest _ _ ih =>
    obtain ⟨⟨marks', after'⟩, hscan, h⟩ := Option.map_eq_some_iff.1 h
    cases h
    exact Nat.lt_succ_of_lt (ih hscan)

/-- How a character stands inside quotes. -/
def Mark.ofChar (c : Char) : Mark :=
  if c = '\\' ∨ c = '\x22' ∨ c = '$' then .escaped c else .plain c

@[simp] theorem Mark.char_ofChar (c : Char) : (Mark.ofChar c).char = c := by
  unfold Mark.ofChar
  split <;> rfl

@[simp] theorem Mark.text_ofChar (c : Char) : (Mark.ofChar c).text = [c] := by
  unfold Mark.ofChar
  split
  · rename_i h
    rcases h with rfl | rfl | rfl <;> rfl
  · rfl

theorem Mark.ofChar_ne_plain_dollar (c : Char) : Mark.ofChar c ≠ .plain '$' := by
  unfold Mark.ofChar
  split
  · exact fun h => nomatch h
  · rintro ⟨rfl⟩
    simp_all

/-- Only what means something inside quotes is escaped. -/
theorem Mark.special_of_ofChar {c d : Char} (h : Mark.ofChar d = .escaped c) :
    c = '\\' ∨ c = '\x22' ∨ c = '$' := by
  unfold Mark.ofChar at h
  split at h
  · rename_i hspecial
    cases h
    exact hspecial
  · cases h

theorem scanQuoted_quotedChar (c : Char) (rest : List Char) :
    scanQuoted (quotedChar c ++ rest) =
      (scanQuoted rest).map fun (marks, after) => (Mark.ofChar c :: marks, after) := by
  unfold quotedChar Mark.ofChar
  split
  · rw [List.cons_append, List.singleton_append, scanQuoted]
  · rename_i h
    rw [not_or, not_or] at h
    exact scanQuoted_plain h.2.1 h.1 rest

/-- A quoted text is scanned to its end and not beyond. -/
theorem scanQuoted_quoted (s : String) (after : List Char) :
    scanQuoted ((quoted s).toList ++ '\x22' :: after) =
      some (s.toList.map Mark.ofChar, after) := by
  rw [quoted, String.toList_ofList]
  induction s.toList with
  | nil => rfl
  | cons c s ih =>
    rw [List.flatMap_cons, List.append_assoc, scanQuoted_quotedChar, ih, Option.map_some,
      List.map_cons]

/-- A backslash before every occurrence of a character. -/
def escaping (c : Char) (s : List Char) : List Char :=
  s.flatMap fun d => if d = c then ['\\', d] else [d]

/-- Quoting escapes one character after the other. The backslash has to be the first, since the
others bring backslashes of their own. -/
theorem quoted_eq_escaping (s : String) :
    (quoted s).toList = escaping '$' (escaping '\x22' (escaping '\\' s.toList)) := by
  simp only [quoted, String.toList_ofList, escaping, List.flatMap_assoc]
  refine List.flatMap_congr fun c _ => ?_
  by_cases hback : c = '\\'
  · subst hback
    decide
  by_cases hquote : c = '\x22'
  · subst hquote
    decide
  by_cases hdollar : c = '$' <;> simp [quotedChar, hback, hquote, hdollar]

/-! ## Paths -/

/-- A path as CMake is to read it: every backslash of its text has become a slash, and every other
character has stayed. -/
def pathText (p : Path) : String :=
  p.display.map fun c => if c = '\\' then '/' else c

theorem slashed_display (p : Path) : slashed p.display = pathText p := by
  rw [← String.toList_inj, slashed, String.toList_ofList, pathText, String.toList_map]

/-- A path is quoted after its backslashes are gone: none of them is escaped. -/
theorem quotedPath_eq (p : Path) : quotedPath p = quoted (pathText p) := by
  rw [quotedPath, slashed_display]

theorem backslash_not_mem_pathText (p : Path) : '\\' ∉ (pathText p).toList := by
  rw [pathText, String.toList_map, List.mem_map]
  rintro ⟨c, -, hc⟩
  split at hc
  · exact absurd hc (by decide)
  · contradiction

theorem pathText_eq_display {p : Path} (h : '\\' ∉ p.display.toList) :
    pathText p = p.display := by
  have hsame : p.display.toList.map (fun c => if c = '\\' then '/' else c) =
      p.display.toList.map id :=
    List.map_congr_left fun c hc => if_neg (ne_of_mem_of_not_mem hc h)
  rw [← String.toList_inj, pathText, String.toList_map, hsame, List.map_id]

/-! ## Tokens -/

/-- A part of a script. -/
inductive Token
  /-- A run of bare characters. -/
  | word (text : String)
  /-- A quoted argument, told by its value. -/
  | quoted (value : String)
  | opening
  | closing
  deriving DecidableEq

/-- A blank or the end of a line. -/
def isSpace (c : Char) : Bool :=
  c == ' ' || c == '\t' || c == '\n'

/-- A character of words. -/
def isBare (c : Char) : Bool :=
  !(isSpace c || c == '(' || c == ')' || c == '#' || c == '\x22' || c == '\\' || c == '$' ||
    c == ';')

/-- Reads a script. It is not read where a quote is never closed, where its parts depend on the
value of a variable, and where a backslash or a semicolon stands outside of quotes. -/
def tokens : List Char → Option (List Token)
  | [] => some []
  | c :: rest =>
    if isSpace c then tokens rest
    else if c = '#' then tokens (rest.dropWhile (· ≠ '\n'))
    else if c = '(' then (tokens rest).map (.opening :: ·)
    else if c = ')' then (tokens rest).map (.closing :: ·)
    else if c = '\x22' then
      match _h : scanQuoted rest with
      | none => none
      | some (marks, after) =>
        if .plain '$' ∈ marks then none
        else (tokens after).map (.quoted (String.ofList (marks.flatMap Mark.text)) :: ·)
    else if isBare c then
      (tokens (rest.dropWhile isBare)).map
        (.word (String.ofList (c :: rest.takeWhile isBare)) :: ·)
    else none
termination_by script => script.length
decreasing_by
  · exact Nat.lt_succ_self _
  · exact Nat.lt_succ_of_le (List.dropWhile_suffix _).length_le
  · exact Nat.lt_succ_self _
  · exact Nat.lt_succ_self _
  · exact Nat.lt_succ_of_lt (length_lt_of_scanQuoted _h)
  · exact Nat.lt_succ_of_le (List.dropWhile_suffix _).length_le

/-- The text is a word. -/
def IsWord (w : String) : Prop :=
  w ≠ "" ∧ w.toList.all isBare = true

instance (w : String) : Decidable (IsWord w) :=
  inferInstanceAs (Decidable (w ≠ "" ∧ w.toList.all isBare = true))

/-- The text is read as these tokens, whatever follows it. -/
def Reads (text : List Char) (ts : List Token) : Prop :=
  ∀ after, tokens (text ++ after) = (tokens after).map (ts ++ ·)

namespace Reads

variable {text : List Char} {ts : List Token}

theorem nil : Reads [] [] := by
  intro after
  simp

theorem append {text' : List Char} {ts' : List Token} (h : Reads text ts) (h' : Reads text' ts') :
    Reads (text ++ text') (ts ++ ts') := by
  intro after
  rw [List.append_assoc, h, h', Option.map_map]
  simp only [Function.comp_def, List.append_assoc]

theorem tokens_eq (h : Reads text ts) : tokens text = some ts := by
  have := h []
  rw [List.append_nil, tokens] at this
  simpa using this

theorem space {c : Char} (hc : isSpace c = true) (h : Reads text ts) : Reads (c :: text) ts := by
  intro after
  rw [List.cons_append, tokens, if_pos hc, h]

theorem blanks {s : List Char} (hs : s.all isSpace = true) (h : Reads text ts) :
    Reads (s ++ text) ts := by
  induction s with
  | nil => exact h
  | cons c s ih =>
    rw [List.all_cons, Bool.and_eq_true] at hs
    exact (ih hs.2).space hs.1

theorem opening (h : Reads text ts) : Reads ('(' :: text) (.opening :: ts) := by
  intro after
  rw [List.cons_append, tokens, if_neg (by decide), if_neg (by decide), if_pos rfl, h,
    Option.map_map]
  rfl

theorem closing (h : Reads text ts) : Reads (')' :: text) (.closing :: ts) := by
  intro after
  rw [List.cons_append, tokens, if_neg (by decide), if_neg (by decide), if_neg (by decide),
    if_pos rfl, h, Option.map_map]
  rfl

theorem comment {s : List Char} (hs : '\n' ∉ s) (h : Reads text ts) :
    Reads ('#' :: (s ++ '\n' :: text)) ts := by
  intro after
  have hdrop : ((s ++ '\n' :: text) ++ after).dropWhile (· ≠ '\n') = '\n' :: (text ++ after) := by
    rw [List.append_assoc, List.dropWhile_append_of_pos, List.cons_append,
      List.dropWhile_cons_of_neg]
    · simp
    · intro c hc
      simpa using fun e : c = '\n' => hs (e ▸ hc)
  rw [List.cons_append, tokens, if_neg (by decide), if_pos rfl, hdrop, tokens,
    if_pos (by decide), h]

theorem quoted (value : String) (h : Reads text ts) :
    Reads ('\x22' :: ((quoted value).toList ++ '\x22' :: text)) (.quoted value :: ts) := by
  intro after
  have hscan := scanQuoted_quoted value (text ++ after)
  have hplain : .plain '$' ∉ value.toList.map Mark.ofChar := by
    simp [Mark.ofChar_ne_plain_dollar]
  have hvalue : (value.toList.map Mark.ofChar).flatMap Mark.text = value.toList := by
    simp [List.flatMap_map]
  rw [List.cons_append, List.append_assoc, List.cons_append, tokens, if_neg (by decide),
    if_neg (by decide), if_neg (by decide), if_neg (by decide), if_pos rfl, hscan]
  dsimp only
  rw [if_neg hplain, hvalue, String.ofList_toList, h, Option.map_map]
  rfl

/-- A word ends where a character follows that is not bare. -/
theorem word {w : String} (hw : IsWord w) {c : Char} (hc : isBare c = false)
    (h : Reads (c :: text) ts) : Reads (w.toList ++ c :: text) (.word w :: ts) := by
  intro after
  obtain ⟨hne, hbare⟩ := hw
  obtain ⟨d, ds, hd⟩ := List.exists_cons_of_ne_nil (mt String.toList_eq_nil_iff.1 hne)
  rw [hd, List.all_eq_true, List.forall_mem_cons] at hbare
  have hfirst := hbare.1
  simp only [isBare, Bool.not_eq_true', Bool.or_eq_false_iff, beq_eq_false_iff_ne] at hfirst
  have htake : (ds ++ c :: (text ++ after)).takeWhile isBare = ds := by
    rw [List.takeWhile_append_of_pos hbare.2, List.takeWhile_cons_of_neg (by simp [hc]),
      List.append_nil]
  have hdrop : (ds ++ c :: (text ++ after)).dropWhile isBare = c :: (text ++ after) := by
    rw [List.dropWhile_append_of_pos hbare.2, List.dropWhile_cons_of_neg (by simp [hc])]
  rw [hd, List.cons_append, List.cons_append, List.append_assoc, List.cons_append, tokens,
    if_neg (by simp [hfirst]), if_neg (by simp [hfirst]), if_neg (by simp [hfirst]),
    if_neg (by simp [hfirst]), if_neg (by simp [hfirst]), if_pos hbare.1, htake, hdrop, ← hd,
    String.ofList_toList, ← List.cons_append, h, Option.map_map]
  rfl

end Reads

/-! ## Commands -/

/-- An argument of a command. -/
inductive Argument
  | word (text : String)
  | quoted (value : String)
  deriving DecidableEq

/-- A command with its arguments. -/
structure Command where
  name : String
  arguments : List Argument
  deriving DecidableEq

/-- The command that sets a variable to a text. -/
def Command.set (name value : String) : Command :=
  ⟨"set", [.word name, .quoted value]⟩

namespace Argument

/-- What an argument is read as. -/
def token : Argument → Token
  | .word text => .word text
  | .quoted value => .quoted value

/-- How an argument is written. -/
def written : Argument → String
  | .word text => text
  | .quoted value => inQuotes (CMake.quoted value)

/-- The text of an argument that is written as it is. -/
def word? : Argument → Option String
  | .word text => some text
  | .quoted _ => none

end Argument

namespace Command

/-- What a command is read as. -/
def tokens (c : Command) : List Token :=
  .word c.name :: .opening :: (c.arguments.map Argument.token ++ [.closing])

/-- How a command is written on one line. -/
def written (c : Command) : String :=
  c.name ++ "(" ++ " ".intercalate (c.arguments.map Argument.written) ++ ")"

/-- What is written as it is. -/
def words (c : Command) : List String :=
  c.name :: c.arguments.filterMap Argument.word?

end Command

theorem Reads.argument {a : Argument} (ha : ∀ w ∈ a.word?, IsWord w) {c : Char}
    (hc : isBare c = false) {text : List Char} {ts : List Token} (h : Reads (c :: text) ts) :
    Reads (a.written.toList ++ c :: text) (a.token :: ts) := by
  cases a with
  | word w => exact .word (ha w rfl) hc h
  | quoted value => simpa [Argument.written, Argument.token, inQuotes] using Reads.quoted value h

theorem Reads.arguments {as : List Argument} (has : ∀ a ∈ as, ∀ w ∈ a.word?, IsWord w)
    {text : List Char} {ts : List Token} (h : Reads text ts) :
    Reads ((" ".intercalate (as.map Argument.written)).toList ++ ')' :: text)
      (as.map Argument.token ++ .closing :: ts) := by
  induction as with
  | nil => simpa using h.closing
  | cons a as ih =>
    obtain ⟨ha, has⟩ := List.forall_mem_cons.1 has
    cases as with
    | nil => simpa using Reads.argument ha (by decide) h.closing
    | cons b as =>
      have hrest := Reads.argument ha (by decide) ((ih has).space (c := ' ') (by decide))
      simpa [String.intercalate_cons_cons] using hrest

theorem Reads.command {c : Command} (hwords : ∀ w ∈ c.words, IsWord w) {text : List Char}
    {ts : List Token} (h : Reads text ts) : Reads (c.written.toList ++ text) (c.tokens ++ ts) := by
  obtain ⟨hname, hwords⟩ := List.forall_mem_cons.1 hwords
  have harguments : ∀ a ∈ c.arguments, ∀ w ∈ a.word?, IsWord w :=
    fun a ha w hw => hwords w (List.mem_filterMap.2 ⟨a, ha, hw⟩)
  have hcall := Reads.word hname (by decide) (Reads.arguments harguments h).opening
  simpa [Command.written, Command.tokens] using hcall

/-! ## Lines -/

/-- The lines tell CMake these commands. -/
def Tells (ls : List String) (cs : List Command) : Prop :=
  Reads (lines ls).toList (cs.flatMap Command.tokens)

theorem toList_lines (ls : List String) :
    (lines ls).toList = ls.flatMap fun l => l.toList ++ ['\n'] := by
  simp [lines, String.toList_join, List.flatMap_map]

namespace Tells

theorem nil : Tells [] [] := Reads.nil

theorem append {ls ls' : List String} {cs cs' : List Command} (h : Tells ls cs)
    (h' : Tells ls' cs') : Tells (ls ++ ls') (cs ++ cs') := by
  have := Reads.append h h'
  rwa [← List.flatMap_append, toList_lines, toList_lines, ← List.flatMap_append,
    ← toList_lines] at this

/-- The line of a command, which may stand behind a margin. -/
theorem line {c : Command} (hwords : ∀ w ∈ c.words, IsWord w) {l margin : String}
    (hmargin : margin.toList.all isSpace = true) (hl : l = margin ++ c.written) :
    Tells [l] [c] := by
  have h := (Reads.command hwords (Reads.nil.space (c := '\n') (by decide))).blanks hmargin
  simpa [Tells, toList_lines, hl] using h

/-- The line of a command. -/
theorem ofWritten {c : Command} (hwords : ∀ w ∈ c.words, IsWord w) {l : String}
    (hl : l = c.written) : Tells [l] [c] := by
  have hmargin : "".toList.all isSpace = true := by decide
  exact line hwords hmargin (by simpa using hl)

theorem map {α : Type} {f : α → String} {g : α → Command} (h : ∀ x, Tells [f x] [g x])
    (xs : List α) : Tells (xs.map f) (xs.map g) := by
  induction xs with
  | nil => exact nil
  | cons x xs ih => exact (h x).append ih

theorem tokens_eq {ls : List String} {cs : List Command} (h : Tells ls cs) :
    tokens (lines ls).toList = some (cs.flatMap Command.tokens) :=
  Reads.tokens_eq h

theorem header : Tells [header] [] := by
  have h := Reads.comment (s := " Generated by pkgcheck. Do not edit.".toList) (by decide) Reads.nil
  simpa [Tells, toList_lines, CMake.header] using h

theorem setText {name : String} (hname : IsWord name) (value : String) :
    Tells [setText name value] [.set name value] := by
  have hwords : ∀ w ∈ (Command.set name value).words, IsWord w :=
    List.forall_mem_cons.2 ⟨(by decide : IsWord "set"), List.forall_mem_singleton.2 hname⟩
  refine .ofWritten hwords ?_
  simp [CMake.setText, Command.written, Command.set, Argument.written, toString,
    ← String.toList_inj]

end Tells

end PackageTrial.CMake
