import LateBinding.Config
import LateBinding.Library.Guard

/-!
**What a process sees of the world.**

The files, what contributes to the search for the library, and the environment variable that
replaces the configured path. All code of a process shares one guard; **a configuration that
cannot be used is ignored there, and the variable with it**.

Main definitions:

* `LateBinding.Host`;
* `LateBinding.Host.ambientConfig` — the configuration of the process-wide guard;
* `LateBinding.Host.sharedGuard` — the process-wide guard before anything is loaded.
-/

set_option autoImplicit false

namespace LateBinding

/-- What a process sees of the world. -/
structure Host where
  files : FileSystem
  environment : Library.Environment := {}
  pathOverride : Option (List UInt8) := none

namespace Host

/-- The configuration for the working directory, the default if it cannot be used. -/
def ambientConfig (h : Host) : Config :=
  match Config.loadNearest h.files h.pathOverride with
  | .ok c => c
  | .error _ => {}

/-- The process-wide guard before anything is loaded. -/
def sharedGuard (h : Host) : Library.Guard := { locator := h.ambientConfig.locator }

end Host

end LateBinding
