import PackageTrial.Proofs.Repository.Graph
import PackageTrial.Proofs.Resolution.Failures
import Mathlib.Data.List.Chain

/-!
# Why resolution fails

An error that a repository reports is justified (`Repository.Justified`): the reference that it
blames is one that declarations reach, and what the error says holds of that reference's manifest,
of the package that was selected before, or of the requirements that led there
(`Repository.resolve_error_justified`). What is visited is always led to by a path of requirements,
whose names are the trail; this is what makes a reported circle a circle.
-/

namespace PackageTrial

/-! ## What may be wrong with a manifest -/

namespace Manifest

/-- The manifest restricts a setting to values of which the target has none. -/
inductive Excludes (m : Manifest) (target : Settings) : Restriction → String → Prop
  | os (hrestricts : m.compatibility.os ≠ [])
      (hnone : ∀ os ∈ m.compatibility.os, Os.parse os ≠ target.os) :
      Excludes m target .os target.os.name
  | arch (hrestricts : m.compatibility.arch ≠ [])
      (hnone : ∀ arch ∈ m.compatibility.arch, Arch.parse arch ≠ target.arch) :
      Excludes m target .arch target.arch.name

theorem excludes_of_unsupported? {m : Manifest} {target : Settings} {setting : Restriction}
    {value : String} (h : m.unsupported? target = some (setting, value)) :
    m.Excludes target setting value := by
  unfold unsupported? at h
  dsimp only at h
  split at h
  · rename_i hos
    cases h
    exact .os hos.1 (by simpa using hos.2)
  split at h
  · rename_i harch
    cases h
    exact .arch harch.1 (by simpa using harch.2)
  · cases h

/-- A directory that leads out of the package. -/
def Escapes (dir : Path) : Prop := ∃ c ∈ dir.components, c = .root ∨ c = .up

theorem exists_escapes_of_placedDirs {root : Path} {dirs : List Path} {fault : ManifestFault}
    (h : placedDirs root dirs = .error fault) :
    ∃ dir ∈ dirs, Escapes dir ∧ fault = .escapingDirectory dir := by
  obtain ⟨dir, hdir, h⟩ := Outcome.exists_of_mapM_eq_error h
  split at h
  · cases h
  · rename_i hescapes
    cases h
    rw [Bool.not_eq_true, List.all_eq_false] at hescapes
    obtain ⟨c, hc, hout⟩ := hescapes
    refine ⟨dir, hdir, ⟨c, hc, ?_⟩, rfl⟩
    cases c with
    | root => exact .inl rfl
    | up => exact .inr rfl
    | here | name => exact absurd rfl hout

end Manifest

namespace Repository

/-- The manifest of a reference has a fault. -/
inductive Flawed (repository : Repository) (r : Reference) : ManifestFault → Prop
  | tooLarge {bytes : ByteArray}
      (hread : repository.workspace.read (manifestPath repository.root r) = .ok bytes)
      (hsize : Manifest.maxFileSize < bytes.size) : Flawed repository r .tooLarge
  | notUtf8 {bytes : ByteArray}
      (hread : repository.workspace.read (manifestPath repository.root r) = .ok bytes)
      (hutf8 : ¬ bytes.IsValidUTF8) : Flawed repository r .notUtf8
  | document {bytes : ByteArray} {content : String} {fault : Toml.DocumentFault}
      (hread : repository.workspace.read (manifestPath repository.root r) = .ok bytes)
      (hcontent : String.fromUTF8? bytes = some content)
      (hdecode : Toml.readAs Manifest.decode content = .error fault) :
      Flawed repository r (.document fault)
  | declares {bytes : ByteArray} {content : String} {m : Manifest}
      (hread : repository.workspace.read (manifestPath repository.root r) = .ok bytes)
      (hcontent : String.fromUTF8? bytes = some content)
      (hdecode : Toml.readAs Manifest.decode content = .ok m)
      (hdeclares : m.name ≠ r.name ∨ m.version ≠ r.version) :
      Flawed repository r (.declares m.name m.version)
  | requirement {m : Manifest} {written : String} {error : ReferenceError}
      (hm : repository.manifestOf r = .ok m) (hwritten : written ∈ m.requires)
      (hparse : Reference.parse written = .error error) : Flawed repository r (.badReference error)
  | revision {m : Manifest} {revision : String} {error : ReferenceError}
      (hm : repository.manifestOf r = .ok m) (hrevision : m.revision = some revision)
      (hbad : Reference.isRevision (Text.trimEnd revision) = false)
      (hparse : Reference.parse (r.withoutRevision.text ++ "#" ++ revision) = .error error) :
      Flawed repository r (.badReference error)
  | directory {m : Manifest} {dir : Path} (hm : repository.manifestOf r = .ok m)
      (hdir : dir ∈ m.usage.includeDirs ++ m.usage.libDirs ++ m.usage.binDirs)
      (hescapes : Manifest.Escapes dir) : Flawed repository r (.escapingDirectory dir)

theorem flawed_of_read {repository : Repository} {r : Reference} {bytes : ByteArray}
    {fault : ManifestFault}
    (hread : repository.workspace.read (manifestPath repository.root r) = .ok bytes)
    (h : Manifest.read bytes r.name r.version = .error fault) : repository.Flawed r fault := by
  unfold Manifest.read at h
  split at h
  · rename_i hsize
    cases h
    exact .tooLarge hread hsize
  split at h
  · rename_i hutf8
    cases h
    exact .notUtf8 hread (by simpa [String.fromUTF8?] using hutf8)
  rename_i content hcontent
  split at h
  · rename_i fault' hdecode
    cases h
    exact .document hread hcontent hdecode
  rename_i m hdecode
  split at h
  · cases h
  · rename_i hdeclares
    cases h
    exact .declares hread hcontent hdecode (not_and_or.1 hdeclares)

theorem flawed_of_requirements {repository : Repository} {r : Reference} {m : Manifest}
    {fault : ManifestFault} (hm : repository.manifestOf r = .ok m)
    (h : m.requirements = .error fault) : repository.Flawed r fault := by
  obtain ⟨written, hwritten, h⟩ := Outcome.exists_of_mapM_eq_error h
  obtain ⟨error, hparse, rfl⟩ := Outcome.mapError_eq_error_iff.1 h
  exact .requirement hm hwritten hparse

theorem flawed_of_canonical {repository : Repository} {r : Reference} {m : Manifest}
    {fault : ManifestFault} (hr : r.WellFormed) (hm : repository.manifestOf r = .ok m)
    (h : m.canonical r = .error fault) : repository.Flawed r fault := by
  unfold Manifest.canonical at h
  split at h
  · cases h
  · rename_i revision hrevision
    obtain ⟨error, hparse, rfl⟩ := Outcome.mapError_eq_error_iff.1 h
    have hbad := Reference.isRevision_of_parse_append_eq_error hr hparse
    exact .revision hm hrevision hbad hparse

theorem flawed_of_placedDirs {repository : Repository} {r : Reference} {m : Manifest} {root : Path}
    {dirs : List Path} {fault : ManifestFault} (hm : repository.manifestOf r = .ok m)
    (hdirs : dirs ⊆ m.usage.includeDirs ++ m.usage.libDirs ++ m.usage.binDirs)
    (h : Manifest.placedDirs root dirs = .error fault) : repository.Flawed r fault := by
  obtain ⟨dir, hdir, hescapes, rfl⟩ := Manifest.exists_escapes_of_placedDirs h
  exact .directory hm (hdirs hdir) hescapes

theorem flawed_of_contentsOf {repository : Repository} {r : Reference} {m : Manifest}
    {fault : ManifestFault} (hr : r.WellFormed) (hm : repository.manifestOf r = .ok m)
    (h : repository.contentsOf r m = .error fault) : repository.Flawed r fault := by
  simp only [contentsOf, Outcome.bind_eq_error_iff] at h
  rcases h with h | ⟨_, -, h | ⟨_, -, h | ⟨_, -, h | ⟨_, -, h⟩⟩⟩⟩
  · exact flawed_of_canonical hr hm h
  · exact flawed_of_placedDirs hm (by simp) h
  · exact flawed_of_placedDirs hm (by simp) h
  · exact flawed_of_placedDirs hm (by simp) h
  · cases h

/-! ## Paths of requirements -/

/-- References of which the first is declared and each further one is required by the one before. -/
structure Leads (repository : Repository) (declarations : List Declaration)
    (path : List Reference) : Prop where
  declared : ∃ d ∈ declarations, path.head? = some d.reference
  required : path.IsChain repository.Requires

section Causes

variable {repository : Repository} {target : Settings} {declarations : List Declaration}

theorem leads_of_declared {d : Declaration} (hd : d ∈ declarations) :
    repository.Leads declarations [d.reference] :=
  ⟨⟨d, hd, rfl⟩, .singleton _⟩

theorem Leads.extend {path : List Reference} {r q : Reference}
    (h : repository.Leads declarations (path ++ [r])) (hq : repository.Requires r q) :
    repository.Leads declarations (path ++ [r] ++ [q]) := by
  obtain ⟨d, hd, hhead⟩ := h.declared
  refine ⟨⟨d, hd, ?_⟩, h.required.append (.singleton q) ?_⟩
  · rw [List.head?_append, hhead]
    rfl
  · simpa using hq

/-! ## Justified errors -/

/-- What an error says is so, and the reference that it blames is one that declarations reach. -/
inductive Justified (repository : Repository) (target : Settings)
    (declarations : List Declaration) : ResolveError → Prop
  | notFound {r : Reference} (hr : repository.Reaches declarations r)
      (hfile : repository.workspace.isFile (manifestPath repository.root r) = false) :
      Justified repository target declarations (.notFound r)
  /-- A package that was selected for another reference to the name is not the one asked for. -/
  | conflict {existing requested : Reference} (hr : repository.Reaches declarations requested)
      (hexisting : ∃ r, repository.Reaches declarations r ∧
        r.withoutRevision = existing.withoutRevision)
      (hname : existing.name = requested.name)
      (hclash : existing.version ≠ requested.version ∨ existing.scope ≠ requested.scope ∨
        ∃ mine wanted, existing.revision = some mine ∧ requested.revision = some wanted ∧
          mine ≠ wanted) :
      Justified repository target declarations (.conflict requested.name existing requested)
  /-- Requirements lead from a declaration to a name for the second time, or too deep: to one name
  more than the 64 that a trail may hold. -/
  | cycle {path : List Reference} {last : Reference}
      (hleads : repository.Leads declarations (path ++ [last]))
      (hdistinct : (path.map (·.name)).Nodup)
      (hend : last.name ∈ path.map (·.name) ∨ (path ++ [last]).length = Trail.maxLength + 1) :
      Justified repository target declarations (.cycle ((path ++ [last]).map (·.name)))
  | incompatible {r : Reference} {m : Manifest} {setting : Restriction} {value : String}
      (hr : repository.Reaches declarations r) (hm : repository.manifestOf r = .ok m)
      (hexcludes : m.Excludes target setting value) :
      Justified repository target declarations (.incompatible r setting value)
  | revisionMismatch {r : Reference} {m : Manifest} {pin : String}
      (hr : repository.Reaches declarations r) (hm : repository.manifestOf r = .ok m)
      (hpin : r.revision = some pin) (hdiffers : m.revision ≠ some pin) :
      Justified repository target declarations (.revisionMismatch r (m.revision.getD "none"))
  | manifest {r : Reference} {fault : ManifestFault} (hr : repository.Reaches declarations r)
      (hflawed : repository.Flawed r fault) :
      Justified repository target declarations (.manifest r fault)
  | io {r : Reference} {fault : Fault} (hr : repository.Reaches declarations r)
      (hread : repository.workspace.read (manifestPath repository.root r) = .error fault) :
      Justified repository target declarations (.io fault.message)

theorem justified_of_manifestOf {r : Reference} {e : ResolveError}
    (hr : repository.Reaches declarations r) (h : repository.manifestOf r = .error e) :
    repository.Justified target declarations e := by
  unfold manifestOf at h
  rw [Outcome.unless_throw_eq_error_iff] at h
  rcases h with ⟨hfile, rfl⟩ | ⟨-, h⟩
  · exact .notFound hr (by simpa using hfile)
  simp only [Outcome.bind_eq_error_iff, Outcome.mapError_eq_error_iff,
    Outcome.mapError_eq_ok_iff] at h
  rcases h with ⟨fault, hread, rfl⟩ | ⟨bytes, hread, fault, hfault, rfl⟩
  · exact .io hr hread
  · exact .manifest hr (flawed_of_read hread hfault)

theorem justified_of_checkPin {r : Reference} {m : Manifest} {e : ResolveError}
    (hr : repository.Reaches declarations r) (hm : repository.manifestOf r = .ok m)
    (h : checkPin r m = .error e) : repository.Justified target declarations e := by
  unfold checkPin at h
  split at h
  · cases h
  rename_i pin hpin
  split at h
  · cases h
  · rename_i hdiffers
    cases h
    exact .revisionMismatch hr hm hpin (hpin ▸ hdiffers)

/-- **What the repository refuses to offer is refused for a reason.** -/
theorem justified_of_offer {r : Reference} {e : ResolveError}
    (hr : repository.Reaches declarations r) (h : repository.offer target r = .error e) :
    repository.Justified target declarations e := by
  unfold offer at h
  rw [Outcome.bind_eq_error_iff] at h
  rcases h with h | ⟨m, hm, h⟩
  · exact justified_of_manifestOf hr h
  rw [Outcome.bind_eq_error_iff] at h
  rcases h with h | ⟨_, -, h⟩
  · exact justified_of_checkPin hr hm h
  cases hsupported : m.unsupported? target with
  | some restriction =>
    rw [hsupported] at h
    cases h
    exact .incompatible hr hm (Manifest.excludes_of_unsupported? hsupported)
  | none =>
    simp only [hsupported, Outcome.bind_eq_error_iff, Outcome.mapError_eq_error_iff] at h
    rcases h with ⟨fault, hfault, rfl⟩ | ⟨_, -, h⟩
    · exact .manifest hr (flawed_of_requirements hm hfault)
    · cases h

/-- A selected package that disagrees with a reference under its name clashes with it. -/
theorem Founds.justified_of_disagrees {s : Selection}
    (h : repository.Founds target declarations s) {r : Reference} {known : Selected}
    (hr : repository.Reaches declarations r) (hknown : s.get? r.name = some known)
    (hdisagrees : known.disagrees r = true) :
    repository.Justified target declarations (.conflict r.name known.package.reference r) := by
  obtain ⟨hmem, hname⟩ := Selection.mem_of_get? hknown
  obtain ⟨m, hm⟩ := h.describes hmem
  obtain ⟨q, hq, hmeets⟩ := h.reaches hmem
  have hsame : known.package.reference.name = r.name := hm.name.trans hname
  refine .conflict hr ⟨q, hq, hmeets.withoutRevision_eq.symm⟩ hsame ?_
  by_contra hagrees
  push Not at hagrees
  obtain ⟨hversion, hscope, hrevision⟩ := hagrees
  have hmeetsr : known.Meets r := by
    refine Selected.meets_iff.2 ⟨hname, ?_, hrevision⟩
    simp only [Reference.withoutRevision, hsame, hversion, hscope]
  cases hmeetsr.2.symm.trans hdisagrees

/-- What a repository offers, it offers because of its manifest. -/
theorem requires_of_offer {r q : Reference} {found : Offer}
    (hoffer : repository.offer target r = .ok found) (hq : q ∈ found.requires) :
    repository.Requires r q := by
  obtain ⟨m, hm, -, -, hrequires, -⟩ := offer_eq_ok_iff.1 hoffer
  exact ⟨m, _, hm, hrequires, hq⟩

theorem justified_of_contents {r : Reference} {found : Offer} {fault : ManifestFault}
    (hr : repository.Reached declarations r) (hoffer : repository.offer target r = .ok found)
    (hcontents : found.contents = .error fault) :
    repository.Justified target declarations (.manifest r fault) := by
  obtain ⟨m, hm, -, -, -, hfound⟩ := offer_eq_ok_iff.1 hoffer
  exact .manifest hr.reaches (flawed_of_contentsOf hr.wellFormed hm (hfound ▸ hcontents))

/-- A trail that cannot be entered ends in a circle or is as long as it may be. -/
theorem justified_of_stuck {trail : Trail} {path : List Reference} {r : Reference}
    (htrail : trail.names = path.map (·.name))
    (hleads : repository.Leads declarations (path ++ [r])) (hstuck : trail.enter? r.name = none) :
    repository.Justified target declarations (.cycle (trail.names ++ [r.name])) := by
  have hend : r.name ∈ path.map (·.name) ∨ (path ++ [r]).length = Trail.maxLength + 1 := by
    rw [← htrail, List.length_append, List.length_singleton, Nat.add_right_cancel_iff,
      ← path.length_map (·.name), ← htrail]
    exact Trail.of_enter?_eq_none hstuck
  have hjustified : repository.Justified target declarations
      (.cycle ((path ++ [r]).map (·.name))) := .cycle hleads (htrail ▸ trail.nodup) hend
  rwa [List.map_append, ← htrail] at hjustified

/-- **Failures are justified**, when what is visited is what the trail leads to. -/
theorem justified_of_fails {role : Role} {trail : Trail} {s : Selection} {rs : List Reference}
    {e : ResolveError} (h : Resolution.Fails (repository.offer target) role trail s rs e)
    (hs : repository.Founds target declarations s)
    (hrs : ∀ r ∈ rs, repository.Reached declarations r) {path : List Reference}
    (htrail : trail.names = path.map (·.name))
    (hleads : ∀ r ∈ rs, repository.Leads declarations (path ++ [r])) :
    repository.Justified target declarations e := by
  have honest := repository.honest target declarations
  induction h generalizing path with
  | disagrees hknown hdisagrees =>
    exact hs.justified_of_disagrees (hrs _ List.mem_cons_self).reaches hknown hdisagrees
  | promoting hknown _ _ _ hinner _ =>
    -- what the promoted package requires was met when it was selected
    obtain ⟨hmem, -⟩ := Selection.mem_of_get? hknown
    have hmet := Selection.Founded.meets_of_requires hs hmem
    refine absurd (fun q hq => Selection.meets_promote.2 (hmet q hq))
      (hinner.not_met honest ?_ (hs.requires honest hmem))
    rwa [Selection.recipes_promote]
  | stuck _ hstuck => exact justified_of_stuck htrail (hleads _ List.mem_cons_self) hstuck
  | refused _ _ hoffer => exact justified_of_offer (hrs _ List.mem_cons_self).reaches hoffer
  | @requiring trail deeper s r rest found e _ henter hoffer _ ih =>
    have hdeeper : deeper.names = (path ++ [r]).map (·.name) := by
      rw [(Trail.names_enter? henter).2, htrail, List.map_append, List.map_singleton]
    exact ih hs (honest.requires (hrs _ List.mem_cons_self) hoffer) hdeeper
      fun q hq => (hleads r List.mem_cons_self).extend (requires_of_offer hoffer hq)
  | spoilt _ _ hoffer _ hcontents =>
    exact justified_of_contents (hrs _ List.mem_cons_self) hoffer hcontents
  | later hfirst _ ih =>
    obtain ⟨hr, hrest⟩ := List.forall_mem_cons.1 hrs
    obtain ⟨hu, -⟩ := hfirst.founded honest hs (by simpa using hr)
    exact ih hu hrest htrail fun q hq => hleads q (List.mem_cons_of_mem _ hq)

/-- **Every error of a resolution is justified**, and a circle is told with an arrow between its
names. -/
theorem resolve_error_justified (hdeclared : ∀ d ∈ declarations, d.reference.WellFormed)
    {e : ResolveError} (h : repository.resolve declarations target = .error e) :
    repository.Justified target declarations e ∧
      ∀ chain, e = .cycle chain →
        e.message = "dependency cycle: " ++ " -> ".intercalate chain := by
  refine ⟨?_, by rintro chain rfl; rfl⟩
  obtain ⟨front, d, rest, s, rfl, hfront, hfails⟩ := Resolution.resolve_eq_error_iff.1 h
  have hreached : ∀ d' ∈ front ++ d :: rest, repository.Reached _ d'.reference :=
    reached_of_declared hdeclared
  obtain ⟨hs, -⟩ := hfront.founded (repository.honest target _) .nil
    fun d' hd' => hreached d' (List.mem_append_left _ hd')
  have hd : d ∈ front ++ d :: rest := List.mem_append_right _ List.mem_cons_self
  have hstart : Trail.start.names = ([] : List Reference).map (·.name) := rfl
  refine justified_of_fails hfails hs ?_ hstart ?_
  · simpa using hreached d hd
  · simpa using leads_of_declared hd

end Causes

/-! ## A circle -/

/-- A repository of two packages that require one another. -/
def circle : Repository where
  workspace :=
    ⟨Sample.placed "app" "1" "name = \"app\"\nversion = \"1\"\nrequires = [\"lib/2\"]\n" ++
      Sample.placed "lib" "2" "name = \"lib\"\nversion = \"2\"\nrequires = [\"app/1\"]\n", []⟩
  root := .ofString "/"

namespace Sample

theorem offer_circle_app : circle.offer target app = .ok ⟨[lib], .ok appContents⟩ := by
  decide +kernel

theorem offer_circle_lib : circle.offer target lib =
    .ok ⟨[app], .ok { libContents with reference := lib }⟩ := by
  decide +kernel

theorem resolve_circle :
    circle.resolve [.requires app] target = .error (.cycle ["app", "lib", "app"]) := by
  refine Resolution.resolve_eq_error_iff.2 ⟨[], _, [], [], rfl, .nil _, ?_⟩
  refine .requiring rfl (dif_pos (by decide)) offer_circle_app ?_
  refine .requiring rfl (dif_pos (by decide)) offer_circle_lib ?_
  exact .stuck rfl (dif_neg (by decide))

theorem circle_justified : (∀ d ∈ [Declaration.requires app], d.reference.WellFormed) ∧
    circle.resolve [.requires app] target = .error (.cycle ["app", "lib", "app"]) ∧
    circle.Justified target [.requires app] (.cycle ["app", "lib", "app"]) :=
  have hdeclared : ∀ d ∈ [Declaration.requires app], d.reference.WellFormed := by decide
  ⟨hdeclared, resolve_circle, (resolve_error_justified hdeclared resolve_circle).1⟩

end Sample
end Repository

end PackageTrial
