import PackageTrial.Dictionary
import Mathlib.Data.List.Induction
import Mathlib.Data.List.Nodup

/-!
# Lookups in dictionaries

Binding a key changes what is found at that key and nowhere else (`get?_insert`). The entries are
what is found (`mem_entries_iff`), the keys are where something is found (`mem_keys_iff`), and since
both are in order, dictionaries in which the same is found are equal (`ext_get?`). What a list of
entries adds is found at its last entry of a key (`get?_foldl_insert`), so a dictionary made of a
list holds nothing but elements of the list (`mem_of_mem_ofList`).
-/

namespace PackageTrial.Dictionary

variable {β : Type}

theorem find?_place_self (key : String) (value : β) (l : List (String × β)) :
    (place key value l).find? (·.1 = key) = some (key, value) := by
  induction l with
  | nil => simp [place]
  | cons e rest ih =>
    obtain ⟨k, v⟩ := e
    unfold place
    split
    · simp
    · split
      · simp
      · rename_i hne
        rw [List.find?_cons_of_neg (by simpa using fun e => hne e.symm), ih]

theorem find?_place_of_ne {key k : String} (hk : k ≠ key) (value : β) (l : List (String × β)) :
    (place key value l).find? (·.1 = k) = l.find? (·.1 = k) := by
  have hskip : ∀ (v : β) (l : List (String × β)),
      ((key, v) :: l).find? (·.1 = k) = l.find? (·.1 = k) :=
    fun v l => List.find?_cons_of_neg (by simpa using fun e => hk e.symm)
  induction l with
  | nil => rw [place, hskip]
  | cons e rest ih =>
    obtain ⟨k', v'⟩ := e
    unfold place
    split
    · rw [hskip]
    · split
      · rename_i heq
        rw [← heq, hskip, hskip]
      · rw [List.find?_cons, List.find?_cons, ih]

theorem get?_insert (d : Dictionary β) (key k : String) (value : β) :
    (d.insert key value).get? k = if k = key then some value else d.get? k := by
  unfold get? insert
  split
  · rename_i h
    rw [h, find?_place_self]
    rfl
  · rename_i h
    rw [find?_place_of_ne h]

theorem keys_nodup (d : Dictionary β) : (d.entries.map (·.1)).Nodup := by
  rw [List.Nodup, List.pairwise_map]
  refine d.sorted.imp fun hlt heq => ?_
  rw [heq] at hlt
  exact String.lt_irrefl _ hlt

theorem mem_entries_iff {d : Dictionary β} {key : String} {value : β} :
    (key, value) ∈ d.entries ↔ d.get? key = some value := by
  unfold get?
  constructor
  · intro h
    cases hfound : d.entries.find? (·.1 = key) with
    | none => simpa using List.find?_eq_none.1 hfound _ h
    | some e =>
      have hkey : e.1 = key := by simpa using List.find?_some hfound
      have hmem := List.mem_of_find?_eq_some hfound
      rw [List.inj_on_of_nodup_map d.keys_nodup hmem h hkey]
      rfl
  · intro h
    obtain ⟨⟨k, v⟩, hfound, rfl⟩ := Option.map_eq_some_iff.1 h
    have hkey : k = key := by simpa using List.find?_some hfound
    exact hkey ▸ List.mem_of_find?_eq_some hfound

theorem mem_keys_iff {d : Dictionary β} {key : String} : key ∈ d.keys ↔ d.get? key ≠ none := by
  rw [keys, List.mem_map, Option.ne_none_iff_exists']
  constructor
  · rintro ⟨⟨k, value⟩, he, rfl⟩
    exact ⟨value, mem_entries_iff.1 he⟩
  · rintro ⟨value, hvalue⟩
    exact ⟨(key, value), mem_entries_iff.2 hvalue, rfl⟩

/-- **A dictionary is determined by its lookups.** -/
theorem ext_get? {d e : Dictionary β} (h : ∀ key, d.get? key = e.get? key) : d = e := by
  have hmem : ∀ x, x ∈ d.entries ↔ x ∈ e.entries := by
    rintro ⟨key, value⟩
    rw [mem_entries_iff, mem_entries_iff, h]
  have hperm := (List.perm_ext_iff_of_nodup d.keys_nodup.of_map e.keys_nodup.of_map).2 hmem
  have hentries := hperm.eq_of_pairwise
    (fun _ _ _ _ hab hba => absurd hba (String.lt_asymm hab)) d.sorted e.sorted
  cases d
  cases e
  cases hentries
  rfl

/-- Of the entries that are put in one after another the last of a key counts. -/
theorem get?_foldl_insert (l : List (String × β)) (d : Dictionary β) (key : String) :
    (l.foldl (fun d e => d.insert e.1 e.2) d).get? key =
      ((l.reverse.find? (·.1 = key)).map (·.2)).or (d.get? key) := by
  induction l using List.reverseRecOn with
  | nil => rfl
  | append_singleton l e ih =>
    rw [List.foldl_concat, get?_insert, ih, List.reverse_concat, List.find?_cons]
    by_cases h : key = e.1 <;> simp [h, eq_comm]

theorem get?_ofList (l : List (String × β)) (key : String) :
    (ofList l).get? key = (l.reverse.find? (·.1 = key)).map (·.2) := by
  rw [ofList, get?_foldl_insert]
  exact Option.or_none

/-- Nothing is in a dictionary that was not in the list. -/
theorem mem_of_mem_ofList {l : List (String × β)} {e : String × β} (h : e ∈ (ofList l).entries) :
    e ∈ l := by
  obtain ⟨key, value⟩ := e
  rw [mem_entries_iff, get?_ofList] at h
  obtain ⟨⟨k, v⟩, hfound, rfl⟩ := Option.map_eq_some_iff.1 h
  have hkey : k = key := by simpa using List.find?_some hfound
  exact hkey ▸ List.mem_reverse.1 (List.mem_of_find?_eq_some hfound)

end PackageTrial.Dictionary
