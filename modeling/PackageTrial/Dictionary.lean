/-!
# Dictionaries

A finite map from text keys to values, kept in the order of the keys (by code point, which is also
the order of their UTF-8 bytes). Since the order is part of the type, a dictionary is determined by
its lookups.
-/

namespace PackageTrial

/-- Entries with strictly increasing keys. -/
structure Dictionary (β : Type) where
  entries : List (String × β)
  sorted : entries.Pairwise fun a b => a.1 < b.1

namespace Dictionary

variable {β : Type}

/-- The dictionary without entries. -/
def empty : Dictionary β := ⟨[], List.Pairwise.nil⟩

instance : Inhabited (Dictionary β) := ⟨empty⟩

instance [DecidableEq β] : DecidableEq (Dictionary β) := fun a b =>
  decidable_of_iff (a.entries = b.entries) (by cases a; cases b; simp)

/-- Puts an entry at its place in the order, in place of an entry with the same key. -/
def place (key : String) (value : β) : List (String × β) → List (String × β)
  | [] => [(key, value)]
  | (k, v) :: rest =>
    if key < k then (key, value) :: (k, v) :: rest
    else if key = k then (key, value) :: rest
    else (k, v) :: place key value rest

theorem mem_place {key : String} {value : β} {l : List (String × β)} {x : String × β}
    (h : x ∈ place key value l) : x = (key, value) ∨ x ∈ l := by
  induction l with
  | nil => simpa [place] using h
  | cons e rest ih =>
    obtain ⟨k, v⟩ := e
    unfold place at h
    split at h
    · simpa using h
    · split at h
      · rcases List.mem_cons.1 h with h | h
        · exact .inl h
        · exact .inr (List.mem_cons_of_mem _ h)
      · rcases List.mem_cons.1 h with h | h
        · exact .inr (h ▸ List.mem_cons_self)
        · rcases ih h with h | h
          · exact .inl h
          · exact .inr (List.mem_cons_of_mem _ h)

theorem sorted_place (key : String) (value : β) {l : List (String × β)}
    (h : l.Pairwise fun a b => a.1 < b.1) :
    (place key value l).Pairwise fun a b => a.1 < b.1 := by
  induction l with
  | nil => simp [place]
  | cons e rest ih =>
    obtain ⟨k, v⟩ := e
    obtain ⟨hk, hrest⟩ := List.pairwise_cons.1 h
    unfold place
    split
    · rename_i hlt
      refine List.pairwise_cons.2 ⟨?_, h⟩
      intro x hx
      rcases List.mem_cons.1 hx with rfl | hx
      · exact hlt
      · exact String.lt_trans hlt (hk x hx)
    · split
      · rename_i heq
        exact List.pairwise_cons.2 ⟨fun x hx => heq ▸ hk x hx, hrest⟩
      · rename_i hlt hne
        refine List.pairwise_cons.2 ⟨?_, ih hrest⟩
        intro x hx
        rcases mem_place hx with rfl | hx
        · exact Std.lt_of_le_of_ne (Std.not_lt.1 hlt) (fun h => hne h.symm)
        · exact hk x hx

/-- The dictionary with the key bound to the value, whatever it was bound to before. -/
def insert (d : Dictionary β) (key : String) (value : β) : Dictionary β :=
  ⟨place key value d.entries, sorted_place key value d.sorted⟩

/-- The value bound to a key. -/
def get? (d : Dictionary β) (key : String) : Option β :=
  (d.entries.find? (·.1 = key)).map (·.2)

/-- The dictionary of a list of entries; of two with one key the later one stays. -/
def ofList (l : List (String × β)) : Dictionary β :=
  l.foldl (fun d e => d.insert e.1 e.2) empty

/-- The number of keys. -/
def size (d : Dictionary β) : Nat :=
  d.entries.length

/-- The keys, in order. -/
def keys (d : Dictionary β) : List String :=
  d.entries.map (·.1)

/-- Applies a function to every value. -/
def map {γ : Type} (f : β → γ) (d : Dictionary β) : Dictionary γ :=
  ⟨d.entries.map fun e => (e.1, f e.2), by
    simpa [List.pairwise_map] using d.sorted⟩

end Dictionary

end PackageTrial
