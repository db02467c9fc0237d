import Mathlib
import PackageTrial.Proofs.Text.Cut
import PackageTrial.Proofs.Text.Raw

/-!
# Raw text on display

Bytes that are no text are displayed with replacement characters, each in place of at most three
bytes. So a display never has fewer bytes than what it displays (`length_le_display`), and since
only an ASCII byte is displayed as its character, it is cut at a separator where the bytes are
(`exists_piece_display`).
-/

namespace PackageTrial.RawText

theorem length_ofString (s : String) : (ofString s).length = s.utf8ByteSize := rfl

theorem ofString_append (s t : String) : ofString (s ++ t) = ofString s ++ ofString t := by
  simp only [ofString_eq_flatMap, String.toList_append, List.flatMap_append]

/-! ## Codes of characters -/

/-- The least code of a character that has the given number of bytes after its first. -/
def leastCode : Nat → Nat
  | 0 => 0
  | 1 => 0x80
  | 2 => 0x800
  | _ => 0x10000

theorem le_leastCode {n : Nat} (hn : 1 ≤ n) : 0x80 ≤ leastCode n := by
  unfold leastCode
  split <;> omega

theorem lt_utf8Size_of_leastCode_le {n : Nat} (hn : n ≤ 3) {c : Char} (h : leastCode n ≤ c.toNat) :
    n < c.utf8Size := by
  have hsize : c.utf8Size = if c.toNat ≤ 0x7F then 1 else if c.toNat ≤ 0x7FF then 2
      else if c.toNat ≤ 0xFFFF then 3 else 4 := by
    simp only [Char.utf8Size, UInt32.le_iff_toNat_le, Char.toNat]
    rfl
  rw [hsize]
  unfold leastCode at h
  split at h <;> split_ifs <;> omega

/-- A lead and the first byte after it make a number from which the other announced bytes make the
code of a character, neither a surrogate nor one for which fewer bytes do. -/
def Begins (tails code : Nat) : Prop :=
  tails = 1 ∧ 0x80 ≤ code ∧ code < 0x800 ∨
    tails = 2 ∧ 0x20 ≤ code ∧ (code < 0x360 ∨ 0x380 ≤ code ∧ code < 0x400) ∨
    tails = 3 ∧ 0x10 ≤ code ∧ code < 0x110

/-- The byte may continue a character. -/
def IsTail (b : UInt8) : Prop := 0x80 ≤ b.toNat ∧ b.toNat ≤ 0xBF

theorem code_of_begins {tails code : Nat} (h : Begins tails code) {rest : List UInt8}
    (hlength : rest.length + 1 = tails) (hrest : ∀ b ∈ rest, IsTail b) :
    leastCode tails ≤ rest.foldl (fun acc x => acc * 64 + (x.toNat - 0x80)) code ∧
      (rest.foldl (fun acc x => acc * 64 + (x.toNat - 0x80)) code).isValidChar := by
  subst hlength
  unfold Begins at h
  -- There are at most two bytes more, so the code is a sum that can be written out.
  match rest with
  | [] =>
    simp only [List.length_nil, List.foldl_nil, leastCode, Nat.isValidChar] at h ⊢
    omega
  | [x] =>
    obtain ⟨-, hx⟩ := hrest x List.mem_cons_self
    simp only [List.length_cons, List.length_nil, List.foldl_cons, List.foldl_nil, leastCode,
      Nat.isValidChar] at h ⊢
    omega
  | [x, y] =>
    obtain ⟨-, hx⟩ := hrest x (by simp)
    obtain ⟨-, hy⟩ := hrest y (by simp)
    simp only [List.length_cons, List.length_nil, List.foldl_cons, List.foldl_nil, leastCode,
      Nat.isValidChar] at h ⊢
    omega
  | _ :: _ :: _ :: _ =>
    simp only [List.length_cons] at h
    omega

/-- What a lead announces: nothing, when it is a character of its own, or bytes that make one. -/
theorem lead_spec {b : UInt8} {l : Lead} (h : lead b = some l) :
    l.tails = 0 ∧ l.bits = b.toNat ∧ b.toNat < 0x80 ∨
      1 ≤ l.tails ∧ l.tails ≤ 3 ∧ 0x80 ≤ l.low ∧
        ∀ x, l.low ≤ x → x ≤ l.high → Begins l.tails (l.bits * 64 + (x.toNat - 0x80)) := by
  unfold lead at h
  simp only [UInt8.le_iff_toNat_le, Bool.and_eq_true, decide_eq_true_eq, beq_iff_eq,
    ← UInt8.toNat_inj, UInt8.reduceToNat, Begins] at h ⊢
  split_ifs at h <;>
    first | exact absurd h (Option.some_ne_none _).symm | obtain rfl := Option.some.inj h
  all_goals dsimp only [UInt8.reduceToNat]
  · omega
  all_goals exact .inr ⟨by omega, by omega, by omega, fun x hlow hhigh => by omega⟩

/-! ## Single characters -/

theorem length_continuation_le (n : Nat) (low high : UInt8) (rest : List UInt8) :
    (continuation n low high rest).length ≤ n := by
  fun_induction continuation n low high rest with
  | case1 n low high b rest hb ih =>
    rw [List.length_cons]
    omega
  | case2 => exact Nat.zero_le _
  | case3 => exact Nat.zero_le _

theorem prefix_continuation (n : Nat) (low high : UInt8) (rest : List UInt8) :
    continuation n low high rest <+: rest := by
  fun_induction continuation n low high rest with
  | case1 n low high b rest hb ih => exact (List.prefix_cons_inj b).2 ih
  | case2 => exact List.nil_prefix
  | case3 => exact List.nil_prefix

theorem isTail_of_mem_continuation {n : Nat} {low high : UInt8} (hlow : 0x80 ≤ low)
    (hhigh : high ≤ 0xBF) {rest : List UInt8} {x : UInt8} (h : x ∈ continuation n low high rest) :
    IsTail x := by
  fun_induction continuation n low high rest with
  | case1 n low high b rest hb ih =>
    rcases List.mem_cons.1 h with rfl | h
    · simp only [Bool.and_eq_true, decide_eq_true_eq, UInt8.le_iff_toNat_le] at hb hlow hhigh
      exact ⟨hlow.trans hb.1, hb.2.trans hhigh⟩
    · exact ih (by decide) (by decide) h
  | case2 => cases h
  | case3 => cases h

/-- Only the first of the bytes has bounds of its own. -/
theorem bounds_of_continuation {n : Nat} {low high : UInt8} {rest : List UInt8} {x : UInt8}
    {tails : List UInt8} (h : continuation n low high rest = x :: tails) :
    low ≤ x ∧ x ≤ high ∧ ∀ y ∈ tails, IsTail y := by
  unfold continuation at h
  split at h
  · split at h
    · rename_i hb
      cases h
      simp only [Bool.and_eq_true, decide_eq_true_eq] at hb
      exact ⟨hb.1, hb.2, fun y => isTail_of_mem_continuation (by decide) (by decide)⟩
    · cases h
  · cases h

/-- No more bytes are taken than there are. -/
theorem firstChar_le_length (b : UInt8) (rest : List UInt8) :
    (firstChar b rest).2 ≤ rest.length := by
  unfold firstChar
  split
  · exact Nat.zero_le _
  · dsimp only
    split_ifs <;> exact (prefix_continuation _ _ _ rest).length_le

/-- A character that is displayed is the replacement character, for at most three bytes, or it is
the character that the bytes encode. -/
theorem firstChar_cases (b : UInt8) (rest : List UInt8) :
    (firstChar b rest).1 = '\uFFFD' ∧ (firstChar b rest).2 ≤ 2 ∨
      ∃ code, code.isValidChar ∧ (firstChar b rest).1 = Char.ofNat code ∧
        (firstChar b rest).2 ≤ 3 ∧ leastCode (firstChar b rest).2 ≤ code ∧
        (code < 0x80 → code = b.toNat) := by
  unfold firstChar
  split
  · exact .inl ⟨rfl, by omega⟩
  · rename_i l hlead
    dsimp only
    have hle := length_continuation_le l.tails l.low l.high rest
    generalize ht : continuation l.tails l.low l.high rest = tails at hle ⊢
    rcases lead_spec hlead with ⟨hnone, hbits, hb⟩ | ⟨hsome, hfew, -, hbegins⟩
    · obtain rfl := List.eq_nil_of_length_eq_zero (Nat.le_zero.1 (hnone ▸ hle))
      rw [if_pos (by rw [hnone]; rfl), List.foldl_nil, hbits]
      have hvalid : b.toNat.isValidChar := by
        unfold Nat.isValidChar
        omega
      exact .inr ⟨b.toNat, hvalid, rfl, Nat.zero_le _, Nat.zero_le _, fun _ => rfl⟩
    · split_ifs with hlength
      · obtain ⟨x, more, rfl⟩ := List.exists_cons_of_length_pos (hlength ▸ hsome)
        obtain ⟨hlow, hhigh, hmore⟩ := bounds_of_continuation ht
        obtain ⟨hleast, hvalid⟩ := code_of_begins (hbegins x hlow hhigh) hlength hmore
        rw [List.foldl_cons, hlength]
        refine .inr ⟨_, hvalid, rfl, hfew, hleast, fun hascii => ?_⟩
        exact absurd hascii (Nat.not_lt.2 ((le_leastCode hsome).trans hleast))
      · exact .inl ⟨rfl, by omega⟩

theorem lt_utf8Size_firstChar (b : UInt8) (rest : List UInt8) :
    (firstChar b rest).2 < (firstChar b rest).1.utf8Size := by
  rcases firstChar_cases b rest with ⟨hc, hn⟩ | ⟨code, hvalid, hc, hn, hleast, -⟩
  · rw [hc]
    exact Nat.lt_succ_of_le hn
  · refine lt_utf8Size_of_leastCode_le hn ?_
    rwa [hc, Char.toNat_ofNat, if_pos hvalid]

/-- Only an ASCII byte is displayed as an ASCII character, and as its own. -/
theorem toNat_firstChar {b : UInt8} {rest : List UInt8} (h : (firstChar b rest).1.toNat < 0x80) :
    (firstChar b rest).1.toNat = b.toNat := by
  rcases firstChar_cases b rest with ⟨hc, -⟩ | ⟨code, hvalid, hc, -, -, hascii⟩
  · rw [hc] at h
    exact absurd h (by decide)
  · rw [hc, Char.toNat_ofNat, if_pos hvalid] at h ⊢
    exact hascii h

/-! ## Repaired bytes -/

/-- The bytes with replacement characters for what is no character. -/
def repairedBytes (b : RawText) : RawText := ofString (String.ofList (repaired b))

theorem length_repairedBytes (b : RawText) :
    (repairedBytes b).length = ((repaired b).map Char.utf8Size).sum := by
  rw [repairedBytes, ofString_eq_flatMap, String.toList_ofList, List.length_flatMap]
  simp only [String.length_utf8EncodeChar]

theorem length_le_repairedBytes (b : RawText) : b.length ≤ (repairedBytes b).length := by
  rw [length_repairedBytes]
  fun_induction repaired b with
  | case1 => exact Nat.le_refl _
  | case2 b rest c n hfirst ih =>
    have hsize := lt_utf8Size_firstChar b rest
    rw [hfirst] at hsize
    rw [List.length_drop] at ih
    rw [List.length_cons, List.map_cons, List.sum_cons]
    dsimp only at hsize
    omega

/-! ### Separators -/

section Separator

variable {sep : UInt8} (hsep : sep < 0x80)
include hsep

/-- No character is continued over a separator. -/
theorem continuation_append {n : Nat} {low high : UInt8} (hlow : 0x80 ≤ low)
    (front back : List UInt8) :
    continuation n low high (front ++ sep :: back) = continuation n low high front := by
  induction front generalizing n low high with
  | nil =>
    cases n with
    | zero => rfl
    | succ n =>
      have hout : ¬ low ≤ sep := UInt8.not_le.2 (UInt8.lt_of_lt_of_le hsep hlow)
      simp [continuation, hout]
  | cons x front ih =>
    cases n with
    | zero => rfl
    | succ n => simp only [List.cons_append, continuation, ih UInt8.le_rfl]

theorem firstChar_append (b : UInt8) (front back : List UInt8) :
    firstChar b (front ++ sep :: back) = firstChar b front := by
  unfold firstChar
  split
  · rfl
  · rename_i l hlead
    rcases lead_spec hlead with ⟨hnone, -, -⟩ | ⟨-, -, hlow, -⟩
    · rw [hnone]
      rfl
    · rw [continuation_append hsep hlow]

theorem firstChar_ascii (rest : List UInt8) : firstChar sep rest = (Char.ofNat sep.toNat, 0) := by
  have hsep' : sep ≤ 0x7F := by
    rw [UInt8.lt_iff_toNat_lt] at hsep
    exact UInt8.le_iff_toNat_le.2 (Nat.le_of_lt_succ hsep)
  have hlead : lead sep = some ⟨sep.toNat, 0, 0, 0⟩ := if_pos hsep'
  rw [firstChar, hlead]
  rfl

theorem repaired_append (front back : RawText) : repaired (front ++ sep :: back) =
    repaired front ++ Char.ofNat sep.toNat :: repaired back := by
  fun_induction repaired front with
  | case1 =>
    rw [List.nil_append, repaired, firstChar_ascii hsep]
    rfl
  | case2 b rest c n hfirst ih =>
    have hn : n ≤ rest.length := by
      have hle := firstChar_le_length b rest
      rwa [hfirst] at hle
    rw [List.cons_append, repaired, firstChar_append hsep, hfirst, List.cons_append]
    dsimp only
    rw [List.drop_append_of_le_length hn, ih]

theorem repairedBytes_append (front back : RawText) :
    repairedBytes (front ++ sep :: back) = repairedBytes front ++ sep :: repairedBytes back := by
  have hvalid : sep.toNat.isValidChar := by
    have hlt := UInt8.toNat_lt sep
    exact .inl (by omega)
  have hcode : (Char.ofNat sep.toNat).toNat = sep.toNat := by rw [Char.toNat_ofNat, if_pos hvalid]
  have hascii : (Char.ofNat sep.toNat).toNat < 128 := by
    rw [hcode]
    exact UInt8.lt_iff_toNat_lt.1 hsep
  have hbytes : String.utf8EncodeChar (Char.ofNat sep.toNat) = [sep] := by
    rw [utf8EncodeChar_of_lt hascii, hcode, UInt8.ofNat_toNat]
  simp only [repairedBytes, repaired_append hsep, ofString_eq_flatMap, String.toList_ofList,
    List.flatMap_append, List.flatMap_cons, hbytes]
  rfl

theorem not_mem_repairedBytes {b : RawText} (h : sep ∉ b) : sep ∉ repairedBytes b := by
  rw [repairedBytes, mem_ofString_iff hsep, String.toList_ofList]
  rintro ⟨c, hc, hcode⟩
  fun_induction repaired b with
  | case1 => cases hc
  | case2 b rest c' n hfirst ih =>
    rcases List.mem_cons.1 hc with rfl | hc
    · have hascii : (firstChar b rest).1.toNat < 0x80 := by
        rw [hfirst]
        exact hcode ▸ UInt8.lt_iff_toNat_lt.1 hsep
      have hown := toNat_firstChar hascii
      -- The character is the separator, so it is its own byte, which is not there.
      rw [hfirst] at hown
      exact h (List.mem_cons.2 (.inl (UInt8.toNat_inj.1 (hcode.symm.trans hown))))
    · exact ih (fun hmem => h (List.mem_cons_of_mem _ (List.mem_of_mem_drop hmem))) hc

/-- Repaired bytes are cut where the bytes are. -/
theorem pieces_repairedBytes (b : RawText) :
    Text.pieces sep (repairedBytes b) = (Text.pieces sep b).map repairedBytes := by
  have hrejoin : ∀ ps, ps ≠ [] →
      repairedBytes (Text.rejoin sep ps) = Text.rejoin sep (ps.map repairedBytes) := by
    intro ps hps
    fun_induction Text.rejoin sep ps with
    | case1 => exact absurd rfl hps
    | case2 p => rfl
    | case3 p q qs ih =>
      rw [repairedBytes_append hsep, ih (List.cons_ne_nil q qs)]
      rfl
  have hne := Text.pieces_ne_nil sep b
  have hfree : ∀ p ∈ (Text.pieces sep b).map repairedBytes, sep ∉ p :=
    List.forall_mem_map.2 fun p hp => not_mem_repairedBytes hsep (Text.not_mem_of_mem_pieces hp)
  conv_lhs => rw [← Text.rejoin_pieces sep b, hrejoin _ hne]
  exact Text.pieces_rejoin hfree (by simpa using hne)

/-- No piece of a display is shorter than the piece that it displays. -/
theorem exists_piece_display {b p : RawText} (h : p ∈ Text.pieces sep b) :
    ∃ q ∈ Text.pieces sep (ofString (display b)), p.length ≤ q.length := by
  rw [display]
  split
  · rename_i s hs
    exact ⟨p, by rwa [ofString_of_text? hs], Nat.le_refl _⟩
  · refine ⟨repairedBytes p, ?_, length_le_repairedBytes p⟩
    change _ ∈ Text.pieces sep (repairedBytes b)
    rw [pieces_repairedBytes hsep]
    exact List.mem_map_of_mem h

end Separator

/-- **No display is shorter**, in bytes, than what it displays. -/
theorem length_le_display (b : RawText) : b.length ≤ (ofString (display b)).length := by
  rw [display]
  split
  · rename_i s hs
    rw [ofString_of_text? hs]
  · exact length_le_repairedBytes b

end PackageTrial.RawText
