import PackageTrial.Proofs.Platform
import PackageTrial.Proofs.Settings.Assignments

/-!
# Reachable settings

The settings that a build can have come from those of its host by assignments (`Reachable`). Every
assignment gives a value, so platforms are read from values and the other settings are values
themselves (`Reachable.spelled`). Hence the only value that may be empty is that of a compiler's
version that was never given (`Reachable.value_ne_empty`).
-/

namespace PackageTrial

theorem isValue_of_splitAssignment {assignment key value : String}
    (h : splitAssignment assignment = .ok (key, value)) : IsValue value := by
  unfold splitAssignment at h
  split at h
  · cases h
  · rename_i before after _
    simp only [ite_eq_iff, reduceCtorEq, and_false, false_or, Except.ok.injEq, Prod.mk.injEq] at h
    obtain ⟨-, hvalue, -, rfl⟩ := h
    exact ⟨Text.trim_trim after, hvalue⟩

/-! ## Hosts -/

theorem Host.assign_eq_ok {host host' : Host} {assignment : String}
    (h : host.assign assignment = .ok host') :
    ∃ key value, splitAssignment assignment = .ok (key, value) ∧
      (host' = { host with os := Os.parse value } ∨
        host' = { host with arch := Arch.parse value }) := by
  obtain ⟨⟨key, value⟩, hsplit, h⟩ := Outcome.bind_eq_ok_iff.1 h
  refine ⟨key, value, hsplit, ?_⟩
  simp only [ite_eq_iff, pure, Except.pure, Except.ok.injEq] at h
  rcases h with ⟨-, rfl⟩ | ⟨-, ⟨-, rfl⟩ | ⟨-, h⟩⟩
  · exact .inl rfl
  · exact .inr rfl
  · exact absurd h Outcome.throw_ne_ok

/-- The system and the architecture are read from values. -/
structure Host.Spelled (host : Host) : Prop where
  os : IsRead Os.parse host.os
  arch : IsRead Arch.parse host.arch

theorem Host.detected_spelled : detected.Spelled :=
  ⟨⟨"linux", by decide +kernel, by decide +kernel⟩,
    ⟨"x86_64", by decide +kernel, by decide +kernel⟩⟩

theorem Host.Spelled.assign {host host' : Host} {assignment : String} (hs : host.Spelled)
    (h : host.assign assignment = .ok host') : host'.Spelled := by
  obtain ⟨key, value, hsplit, h⟩ := assign_eq_ok h
  have hvalue := isValue_of_splitAssignment hsplit
  have hos := hvalue.isRead Os.parse
  have harch := hvalue.isRead Arch.parse
  rcases h with rfl | rfl
  · exact ⟨by simpa only using hos, hs.arch⟩
  · exact ⟨hs.os, by simpa only using harch⟩

theorem Host.Spelled.assignAll {host host' : Host} {assignments : List String} (hs : host.Spelled)
    (h : host.assignAll assignments = .ok host') : host'.Spelled := by
  induction assignments generalizing host with
  | nil =>
    cases h
    exact hs
  | cons assignment rest ih =>
    obtain ⟨t, ht, hrest⟩ := Outcome.bind_eq_ok_iff.1 h
    exact ih (hs.assign ht) hrest

namespace Settings

/-! ## Settings -/

/-- The settings that a build can have. -/
inductive Reachable : Settings → Prop
  /-- Those of a host that was detected and overridden. -/
  | native {host : Host} {assignments : List String}
      (h : Host.detected.assignAll assignments = .ok host) : Reachable (native host)
  /-- Those that an assignment makes of others. -/
  | assign {s s' : Settings} {assignment : String} (hs : Reachable s)
      (h : s.assign assignment = .ok s') : Reachable s'

theorem Reachable.assignAll {s s' : Settings} {assignments : List String} (hs : s.Reachable)
    (h : s.assignAll assignments = .ok s') : s'.Reachable := by
  induction assignments generalizing s with
  | nil =>
    cases h
    exact hs
  | cons assignment rest ih =>
    obtain ⟨t, ht, hrest⟩ := assignAll_cons_eq_ok_iff.1 h
    exact ih (hs.assign ht) hrest

theorem Reachable.of_assignAll {s : Settings} (assignments : List String)
    (h : (Settings.native Host.detected).assignAll assignments = .ok s) : s.Reachable :=
  (@Reachable.native Host.detected [] rfl).assignAll h

/-- The platform is read from values, and what is known of the compiler are values. -/
structure Spelled (s : Settings) : Prop where
  os : IsRead Os.parse s.os
  arch : IsRead Arch.parse s.arch
  compiler : IsValue s.compiler.name
  version : ∀ version ∈ s.compiler.version, IsValue version
  libcxx : ∀ libcxx ∈ s.compiler.libcxx, IsValue libcxx

theorem native_spelled {host : Host} (h : host.Spelled) : (native host).Spelled := by
  have hnames : ∀ name ∈ ["msvc", "apple-clang", "gcc"], IsValue name := by decide +kernel
  have hcompiler : (native host).compiler.name ∈ ["msvc", "apple-clang", "gcc"] := by
    unfold native
    split <;> simp [Compiler.named]
  exact ⟨h.os, h.arch, hnames _ hcompiler, by simp [native, Compiler.named],
    by simp [native, Compiler.named]⟩

theorem Spelled.assign {s s' : Settings} {assignment : String} (hs : s.Spelled)
    (h : s.assign assignment = .ok s') : s'.Spelled := by
  obtain ⟨key, value, hsplit, hputs⟩ := assign_eq_ok_iff.1 h
  have hvalue := isValue_of_splitAssignment hsplit
  have hos := hvalue.isRead Os.parse
  have harch := hvalue.isRead Arch.parse
  cases hputs with
  | os => exact ⟨by simpa only using hos, hs.arch, hs.compiler, hs.version, hs.libcxx⟩
  | arch => exact ⟨hs.os, by simpa only using harch, hs.compiler, hs.version, hs.libcxx⟩
  | compiler =>
    exact ⟨hs.os, hs.arch, hvalue, by simp [Compiler.named], by simp [Compiler.named]⟩
  | version => exact ⟨hs.os, hs.arch, hs.compiler, by simpa using hvalue, hs.libcxx⟩
  | libcxx => exact ⟨hs.os, hs.arch, hs.compiler, hs.version, by simpa using hvalue⟩
  | buildType => exact ⟨hs.os, hs.arch, hs.compiler, hs.version, hs.libcxx⟩

theorem Reachable.spelled {s : Settings} (hs : s.Reachable) : s.Spelled := by
  induction hs with
  | native h => exact native_spelled (Host.detected_spelled.assignAll h)
  | assign _ h ih => exact ih.assign h

theorem Reachable.value_ne_empty {s : Settings} (hs : s.Reachable) {v : Variable}
    (hv : v ≠ .compilerVersion) : s.value v ≠ "" := by
  cases v with
  | os => exact (Os.spells.isValue_name hs.spelled.os).ne_empty
  | arch => exact (Arch.spells.isValue_name hs.spelled.arch).ne_empty
  | compiler => exact hs.spelled.compiler.ne_empty
  | compilerVersion => exact absurd rfl hv
  | buildType => cases hbuild : s.buildType <;> simp [value, hbuild, BuildType.name]

end Settings

end PackageTrial
