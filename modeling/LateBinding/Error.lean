import LateBinding.Native.Enumeration
import LateBinding.Path

/-!
**Errors of binding and of native calls.**

The first three arise while the library is found, opened and bound; they are settled once and for
all. The other two belong to a single call.

Main definitions:

* `LateBinding.Error`, `LateBinding.Error.message`;
* `LateBinding.Error.missingSymbol?`, `LateBinding.Error.isLoadError`;
* `LateBinding.Error.alike` — equality up to the writing of paths;
* `LateBinding.Error.ofResultCode` — the outcome that a result code stands for.
-/

set_option autoImplicit false

namespace LateBinding

/-- Why binding or a native call failed. -/
inductive Error where
  | notFound (searched : List Path)
  | openFailed (path : Path) (reason : String)
  | symbolMissing (symbol : String)
  | platformUnsupported (operation : String)
  | nativeCallFailure (code : Int) (name : String)
deriving DecidableEq, Repr

namespace Error

/-- Places in a message. -/
def displayPlaces (places : List Path) : String :=
  if places.isEmpty then "<nothing>" else ", ".intercalate (places.map Path.display)

/-- The wording of an error. -/
def message : Error → String
  | .notFound searched => "cronet: library not found (searched: " ++ displayPlaces searched ++ ")"
  | .openFailed path reason =>
    "cronet: failed to load library " ++ path.display ++ ": " ++ reason
  | .symbolMissing symbol => "cronet: symbol " ++ symbol ++ " not found"
  | .platformUnsupported operation =>
    "cronet: " ++ operation ++ " not supported on 32-bit platforms"
  | .nativeCallFailure code name =>
    "cronet: native call failed with " ++ name ++ " (" ++ toString code ++ ")"

/-- The symbol that is missing, if that is the error. -/
def missingSymbol? : Error → Option String
  | .symbolMissing symbol => some symbol
  | _ => none

/-- Whether an error arises from loading. -/
def isLoadError : Error → Bool
  | .notFound _ => true
  | .openFailed _ _ => true
  | .symbolMissing _ => true
  | _ => false

/-- Whether lists of paths are alike, place by place. -/
def placesAlike : List Path → List Path → Bool
  | [], [] => true
  | p :: ps, q :: qs => p.alike q && placesAlike ps qs
  | _, _ => false

/-- Whether errors are equal, paths being compared by their components. -/
def alike : Error → Error → Bool
  | .notFound ps, .notFound qs => placesAlike ps qs
  | .openFailed p r, .openFailed q s => p.alike q && r == s
  | e, f => e == f

/-- The outcome that a result code stands for: zero is success. -/
def ofResultCode (raw : Int) : Except Error Unit :=
  if raw = 0 then .ok ()
  else .error (.nativeCallFailure raw ((Native.resultCode.name? raw).getD "UNKNOWN"))

end Error

end LateBinding
