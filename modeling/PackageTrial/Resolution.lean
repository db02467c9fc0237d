import PackageTrial.Failure
import PackageTrial.Graph

/-!
# Resolution

Selecting packages for declarations. Each declaration is followed to what it requires, depth first,
and a package is selected after all that it requires. One name stands for one package: a second
reference has to agree with the first. A package that only the test needed and that turns out to be
required otherwise is promoted, with all that it requires.

`visit` ends because a fresh package lengthens the trail, whose length is bounded, while a promotion
leaves the trail alone and makes one fewer package that can be promoted.
-/

namespace PackageTrial

/-- What a package contains. -/
structure Contents where
  /-- The reference to the package as it is, with the revision that it has. -/
  reference : Reference
  root : Path
  includeDirs : List Path
  libDirs : List Path
  binDirs : List Path
  libs : List String
  deriving DecidableEq

/-- What is offered for a reference. -/
structure Offer where
  requires : List Reference
  /-- What the package contains; looked at once everything it requires is selected. -/
  contents : Except ManifestFault Contents

/-- A package that was selected, with what it requires. -/
structure Selected where
  /-- The name under which it was asked for. -/
  name : String
  package : Package
  requires : List Reference

namespace Selected

/-- The package is wanted by the test alone. -/
def isTestOnly (s : Selected) : Bool := !s.package.role.propagates

/-- The same package in another role. -/
def inRole (s : Selected) (role : Role) : Selected :=
  { s with package := { s.package with role } }

/-- Another reference to the name asks for another package or another revision. -/
def disagrees (s : Selected) (reference : Reference) : Bool :=
  s.package.reference.withoutRevision ≠ reference.withoutRevision ||
    match s.package.reference.revision, reference.revision with
    | some mine, some wanted => mine ≠ wanted
    | _, _ => false

end Selected

/-- The packages selected so far, in order. -/
abbrev Selection := List Selected

namespace Selection

/-- The selected package of a name. -/
def get? (s : Selection) (name : String) : Option Selected :=
  s.find? (·.name = name)

/-- The selection with the packages of a name in another role. -/
def promote (s : Selection) (name : String) (role : Role) : Selection :=
  s.map fun x => if x.name = name then x.inRole role else x

/-- How many packages may still be promoted to a role. -/
def promotable (role : Role) (s : Selection) : Nat :=
  if role.propagates then s.countP Selected.isTestOnly else 0

/-- The graph of the selected packages. -/
def graph (s : Selection) : Graph := ⟨s.map (·.package)⟩

theorem countP_promote_le (s : Selection) (name : String) {role : Role}
    (h : role.propagates = true) :
    (s.promote name role).countP Selected.isTestOnly ≤ s.countP Selected.isTestOnly := by
  unfold promote
  induction s with
  | nil => simp
  | cons x rest ih =>
    simp only [List.map_cons, List.countP_cons]
    by_cases hx : x.name = name
    · have : (x.inRole role).isTestOnly = false := by simp [Selected.inRole, Selected.isTestOnly, h]
      simp only [hx, if_true, this, Bool.false_eq_true, if_false]
      omega
    · simp only [hx, if_false]
      omega

theorem countP_promote_lt {s : Selection} {name : String} {role : Role} {known : Selected}
    (h : role.propagates = true) (hk : s.get? name = some known) (ht : known.isTestOnly = true) :
    (s.promote name role).countP Selected.isTestOnly < s.countP Selected.isTestOnly := by
  induction s with
  | nil => simp [get?] at hk
  | cons x rest ih =>
    simp only [promote, List.map_cons, List.countP_cons]
    by_cases hx : x.name = name
    · have hxk : x = known := by simpa [get?, hx] using hk
      have hle := countP_promote_le rest name h
      have : (x.inRole role).isTestOnly = false := by simp [Selected.inRole, Selected.isTestOnly, h]
      simp only [hx, if_true, this, hxk ▸ ht]
      simp only [promote] at hle
      simp only [Bool.false_eq_true, if_false]
      omega
    · have hr : get? rest name = some known := by simpa [get?, hx] using hk
      have := ih hr
      simp only [promote] at this
      simp only [hx, if_false]
      omega

theorem promotable_promote_lt {s : Selection} {name : String} {role : Role} {known : Selected}
    (h : role.propagates = true) (hk : s.get? name = some known) (ht : known.isTestOnly = true) :
    promotable role (s.promote name role) < promotable role s := by
  simpa [promotable, h] using countP_promote_lt h hk ht

theorem promotable_push_le (role : Role) (s : Selection) {x : Selected}
    (hx : x.package.role = role) : promotable role (s ++ [x]) ≤ promotable role s := by
  unfold promotable
  split
  · rename_i h
    simp [List.countP_append, Selected.isTestOnly, hx, h]
  · exact Nat.le_refl _

end Selection

/-- The names of the packages that are being visited, from the first. -/
structure Trail where
  names : List String
  nodup : names.Nodup
  bounded : names.length ≤ 64

namespace Trail

/-- The longest trail. -/
def maxLength : Nat := 64

/-- Nothing is being visited. -/
def start : Trail := ⟨[], List.nodup_nil, Nat.zero_le _⟩

/-- The trail one package further; none when it would lead in a circle or too deep. -/
def enter? (t : Trail) (name : String) : Option Trail :=
  if h : name ∉ t.names ∧ t.names.length < maxLength then
    some ⟨t.names ++ [name], by
      refine List.nodup_append.2 ⟨t.nodup, by simp, ?_⟩
      intro a ha b hb e
      simp only [List.mem_singleton] at hb
      exact h.1 (hb ▸ e ▸ ha), by
      have := h.2
      simp only [maxLength] at this
      simp only [List.length_append, List.length_cons, List.length_nil]
      omega⟩
  else none

/-- How much longer the trail may become. -/
def room (t : Trail) : Nat := maxLength - t.names.length

theorem room_enter?_lt {t t' : Trail} {name : String} (h : t.enter? name = some t') :
    t'.room < t.room := by
  unfold enter? at h
  split at h
  · rename_i hc
    have := hc.2
    cases h
    simp only [room, List.length_append, List.length_cons, List.length_nil]
    omega
  · simp at h

end Trail

namespace Resolution

/-- The package of some contents in a role. -/
def packageOf (role : Role) (c : Contents) : Package :=
  ⟨c.reference, role, c.root, c.includeDirs, c.libDirs, c.binDirs, c.libs⟩

/-- Selections that leave no more packages to promote than another. -/
abbrev Extension (role : Role) (done : Selection) :=
  { s : Selection // s.promotable role ≤ done.promotable role }

mutual

/-- Visits a reference: what it stands for is selected afterwards, in the given role at least. -/
def visit (offer : Reference → Except ResolveError Offer) (trail : Trail) (role : Role)
    (done : Selection) (reference : Reference) : Except ResolveError (Extension role done) :=
  match hk : done.get? reference.name with
  | some known =>
    if known.disagrees reference then
      .error (.conflict reference.name known.package.reference reference)
    else if hp : role.propagates = true ∧ known.isTestOnly = true then
      match visitAll offer trail role (done.promote reference.name role) known.requires with
      | .error e => .error e
      | .ok s => .ok ⟨s.1, Nat.le_trans s.2
          (Nat.le_of_lt (Selection.promotable_promote_lt hp.1 hk hp.2))⟩
    else .ok ⟨done, Nat.le_refl _⟩
  | none =>
    match ht : trail.enter? reference.name with
    | none => .error (.cycle (trail.names ++ [reference.name]))
    | some deeper =>
      have _ : deeper.room < trail.room := Trail.room_enter?_lt ht
      match offer reference with
      | .error e => .error e
      | .ok found =>
        match visitAll offer deeper role done found.requires with
        | .error e => .error e
        | .ok s =>
          match found.contents with
          | .error fault => .error (.manifest reference fault)
          | .ok contents =>
            .ok ⟨s.1 ++ [⟨reference.name, packageOf role contents, found.requires⟩],
              Nat.le_trans (Selection.promotable_push_le role s.1 rfl) s.2⟩
termination_by (trail.room, done.promotable role, 0)
decreasing_by
  · exact Prod.Lex.right _ (Prod.Lex.left _ _ (Selection.promotable_promote_lt hp.1 hk hp.2))
  · exact Prod.Lex.left _ _ ‹deeper.room < trail.room›

/-- Visits references one after another. -/
def visitAll (offer : Reference → Except ResolveError Offer) (trail : Trail) (role : Role)
    (done : Selection) : List Reference → Except ResolveError (Extension role done)
  | [] => .ok ⟨done, Nat.le_refl _⟩
  | reference :: rest =>
    match visit offer trail role done reference with
    | .error e => .error e
    | .ok s =>
      match visitAll offer trail role s.1 rest with
      | .error e => .error e
      | .ok t => .ok ⟨t.1, Nat.le_trans t.2 s.2⟩
termination_by references => (trail.room, done.promotable role, references.length + 1)
decreasing_by
  · exact Prod.Lex.right _ (Prod.Lex.right _ (by simp))
  · rcases Nat.lt_or_eq_of_le s.2 with h | h
    · exact Prod.Lex.right _ (Prod.Lex.left _ _ h)
    · rw [h]
      exact Prod.Lex.right _ (Prod.Lex.right _ (by simp))

end

/-- Visits declarations one after another. -/
def visitDeclarations (offer : Reference → Except ResolveError Offer) :
    Selection → List Declaration → Except ResolveError Selection
  | done, [] => .ok done
  | done, d :: rest => do
    let s ← visit offer .start d.role done d.reference
    visitDeclarations offer s.1 rest

/-- Selects packages for declarations from what is offered. -/
def resolve (offer : Reference → Except ResolveError Offer) (declarations : List Declaration) :
    Except ResolveError Graph := do
  return (← visitDeclarations offer [] declarations).graph

end Resolution

end PackageTrial
