import PackageTrial.Main
import PackageTrial.Rehearsal
import PackageTrial.Scenario
import PackageTrial.Serialization.Decode
import PackageTrial.Telemetry
import PackageTrial.Proofs.Configuration.Sufficient
import PackageTrial.Proofs.Environment.Repeated
import PackageTrial.Proofs.Graph.Environments
import PackageTrial.Proofs.Layout.Binaries
import PackageTrial.Proofs.CMake.Packages
import PackageTrial.Proofs.CMake.Toolchain
import PackageTrial.Proofs.Messages.Parts
import PackageTrial.Proofs.Layout.Separation
import PackageTrial.Proofs.Reference.Rules
import PackageTrial.Proofs.Repository.Causes
import PackageTrial.Proofs.Repository.Directories
import PackageTrial.Proofs.Repository.Pins
import PackageTrial.Proofs.Repository.Reordered
import PackageTrial.Proofs.Trial.Exit
import PackageTrial.Proofs.Trial.Line
import PackageTrial.Proofs.Trial.Stages
import PackageTrial.Proofs.Settings.Written
import PackageTrial.Proofs.Settings.LastValues
import PackageTrial.Proofs.Configuration.Layers
import PackageTrial.Proofs.Capability
import PackageTrial.Proofs.Configuration.Emulators
import PackageTrial.Proofs.Configuration.Loading
import PackageTrial.Proofs.Text.Display
import PackageTrial.Proofs.Trial.Invocation
import PackageTrial.Proofs.Configuration.Limits
import PackageTrial.Proofs.Configuration.Anchored
import PackageTrial.Proofs.Environment.Composition
import PackageTrial.Proofs.Resolution.Walk
import PackageTrial.Proofs.CMake.Writing
