import PackageTrial.Configuration.Derived
import PackageTrial.Proofs.Configuration.Sufficient
import PackageTrial.Proofs.Settings.LastValues

/-!
# Settings in layers

The settings of a build are those of the host, over which lie the configuration's and over these the
caller's. A valid configuration refuses nothing, so only the caller's own assignments decide whether
there are settings and, if not, why (`Layers.refused`); if there are, each setting is the one that
is given last in both lists together (`Layers.layered`).
-/

namespace PackageTrial.Configuration

open Settings

/-- What comes of a host, a configuration and the assignments of the caller. -/
structure Layers (c : Configuration) (host : Host) (assignments : List String) : Prop where
  /-- There are settings when every text that the caller gives is an assignment. -/
  accepted : (∃ s, c.buildSettings host assignments = .ok s) ↔ ∀ a ∈ assignments, IsAssignment a
  /-- Otherwise the first that is none tells why, whatever the host and the configuration. -/
  refused (e : SettingsError) :
    c.buildSettings host assignments = .error e ↔ FirstRefused assignments e
  layered (s : Settings) : c.buildSettings host assignments = .ok s →
    Layered host (c.settings.assignments ++ assignments) s

/-- **The layering law.** A valid section of settings lies between the host and the caller, on every
host and for all assignments; and an assignment that is refused leaves the settings unchanged. -/
theorem buildSettings_layers {c : Configuration} (h : c.settings.validate = .ok ()) :
    (∀ host assignments, c.Layers host assignments) ∧
      ∀ (s t : Settings) (before after : List String) (a : String) (e : SettingsError),
        s.assignAll before = .ok t → Refuses a e →
          s.assignUpTo (before ++ a :: after) = (t, some e) := by
  refine ⟨fun host assignments => ?_, fun s t before after a e hbefore ha =>
    assignUpTo_of_refuses hbefore ha after⟩
  obtain ⟨base, hbase, hlast⟩ := exists_base h host
  refine ⟨?accepted, fun e => ?refused, fun s hs => ?layered⟩
  case accepted => rw [hlast, exists_assignAll_iff]
  case refused => rw [hlast, assignAll_eq_error_iff]
  case layered =>
    rw [hlast] at hs
    exact layered_of_assignAll (assignAll_append_eq_ok_iff.2 ⟨base, hbase, hs⟩)

/-- A configuration for another processor, with a compiler, its version and its library. -/
def crossing : Configuration :=
  { Configuration.default (.ofString "/work/project") with
    settings := ⟨none, some " ARM64 ", some "gcc", some "12", some "libstdc++11", none⟩ }

/-- The caller's compiler takes the place of the configuration's, whose version and library count no
more; nor does the version that the caller gave before it. -/
theorem crossing_layers : crossing.settings.validate = .ok () ∧
    crossing.Layers ⟨.freeBsd, .x86x64⟩
      ["compiler.version=13", " compiler = clang=next ", "build_type=debug", "compiler.libcxx=libc++"] ∧
    crossing.buildSettings ⟨.freeBsd, .x86x64⟩
      ["compiler.version=13", " compiler = clang=next ", "build_type=debug", "compiler.libcxx=libc++"] =
        .ok ⟨.freeBsd, .armv8, ⟨"clang=next", none, some "libc++"⟩, .debug⟩ := by
  have hvalid : crossing.settings.validate = .ok () := by decide +kernel
  exact ⟨hvalid, (buildSettings_layers hvalid).1 _ _, by decide +kernel⟩

end PackageTrial.Configuration
