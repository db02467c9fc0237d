import PackageTrial.Text.Blank

/-!
# Platforms

Operating systems and architectures. Each is read from any of its spellings, in any ASCII case and
with blanks around it, and written in one canonical spelling; what is not known is kept in lower
case. A host is the platform on which the trial itself runs.
-/

namespace PackageTrial

/-! ## Operating systems -/

/-- An operating system. -/
inductive Os
  | linux
  | macos
  | windows
  | freeBsd
  | android
  /-- No operating system: firmware. -/
  | baremetal
  /-- Any other, in lower case. -/
  | other (name : String)
  deriving DecidableEq, Inhabited

namespace Os

/-- Reads an operating system. -/
def parse (value : String) : Os :=
  let name := Text.lower (Text.trim value)
  if name = "linux" then .linux
  else if name = "macos" ∨ name = "darwin" then .macos
  else if name = "windows" then .windows
  else if name = "freebsd" then .freeBsd
  else if name = "android" then .android
  else if name = "baremetal" ∨ name = "none" ∨ name = "generic" then .baremetal
  else .other name

/-- The canonical spelling. -/
def name : Os → String
  | .linux => "Linux"
  | .macos => "Macos"
  | .windows => "Windows"
  | .freeBsd => "FreeBSD"
  | .android => "Android"
  | .baremetal => "baremetal"
  | .other name => name

/-- The name by which the build system knows it. -/
def systemName : Os → String
  | .linux => "Linux"
  | .macos => "Darwin"
  | .windows => "Windows"
  | .freeBsd => "FreeBSD"
  | .android => "Android"
  | .baremetal => "Generic"
  | .other name => name

/-- What is appended to the name of an executable. -/
def executableSuffix : Os → String
  | .windows => ".exe"
  | _ => ""

/-- The variable in which the dynamic loader looks for directories. -/
def libraryVariable : Os → String
  | .macos => "DYLD_LIBRARY_PATH"
  | .windows => "PATH"
  | _ => "LD_LIBRARY_PATH"

/-- One of the named systems. -/
def isKnown : Os → Bool
  | .other _ => false
  | _ => true

end Os

/-! ## Architectures -/

/-- A processor architecture. -/
inductive Arch
  | x86
  | x86x64
  | armv6
  /-- Soft float. -/
  | armv7
  /-- Hard float. -/
  | armv7hf
  | armv8
  /-- A microcontroller core, such as `m4f`. -/
  | cortexM (core : String)
  | riscv32
  | riscv64
  | wasm
  /-- Any other, in lower case. -/
  | other (name : String)
  deriving DecidableEq, Inhabited

namespace Arch

/-- The core that a lower-case name such as `cortex-m4f` names. -/
def microcontrollerCore? (name : String) : Option String :=
  match name.toList with
  | 'c' :: 'o' :: 'r' :: 't' :: 'e' :: 'x' :: '-' :: 'm' :: c :: rest =>
    some (String.ofList ('m' :: c :: rest))
  | _ => none

/-- Reads an architecture. -/
def parse (value : String) : Arch :=
  let name := Text.lower (Text.trim value)
  match microcontrollerCore? name with
  | some core => .cortexM core
  | none =>
    if name = "x86" ∨ name = "i386" ∨ name = "i686" then .x86
    else if name = "x86_64" ∨ name = "amd64" then .x86x64
    else if name = "armv6" then .armv6
    else if name = "armv7" ∨ name = "arm" then .armv7
    else if name = "armv7hf" then .armv7hf
    else if name = "armv8" ∨ name = "aarch64" ∨ name = "arm64" then .armv8
    else if name = "riscv32" then .riscv32
    else if name = "riscv64" then .riscv64
    else if name = "wasm" ∨ name = "wasm32" then .wasm
    else .other name

/-- The canonical spelling. -/
def name : Arch → String
  | .x86 => "x86"
  | .x86x64 => "x86_64"
  | .armv6 => "armv6"
  | .armv7 => "armv7"
  | .armv7hf => "armv7hf"
  | .armv8 => "armv8"
  | .cortexM core => "cortex-" ++ core
  | .riscv32 => "riscv32"
  | .riscv64 => "riscv64"
  | .wasm => "wasm"
  | .other name => name

/-- The name by which the build system knows the processor. -/
def processor : Arch → String
  | .x86 => "x86"
  | .x86x64 => "x86_64"
  | .armv6 | .armv7 | .armv7hf | .cortexM _ => "arm"
  | .armv8 => "aarch64"
  | .riscv32 => "riscv32"
  | .riscv64 => "riscv64"
  | .wasm => "wasm32"
  | .other name => name

/-- A core that never runs a process of an operating system. -/
def isMicrocontroller : Arch → Bool
  | .cortexM _ => true
  | _ => false

/-- One of the named architectures. -/
def isKnown : Arch → Bool
  | .other _ => false
  | _ => true

end Arch

/-! ## Hosts -/

/-- The platform on which the trial runs. -/
structure Host where
  os : Os
  arch : Arch
  deriving DecidableEq, Inhabited

/-- The platform for which this program is built. -/
def Host.detected : Host := ⟨.linux, .x86x64⟩

end PackageTrial
