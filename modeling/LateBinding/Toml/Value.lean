/-!
**TOML values.**

Numbers with a fraction and dates are kept as they were written: nothing here computes with them.

Main definitions:

* `LateBinding.Toml`;
* `LateBinding.Toml.get?` — the value under a key of a table.
-/

set_option autoImplicit false

namespace LateBinding

/-- A TOML value. -/
inductive Toml where
  | string (s : String)
  | integer (n : Int)
  | float (written : String)
  | boolean (b : Bool)
  | dateTime (written : String)
  | array (items : List Toml)
  | table (entries : List (String × Toml))
deriving Inhabited

namespace Toml

/-- The value under a key. -/
def lookup (key : String) : List (String × Toml) → Option Toml
  | [] => none
  | (k, v) :: rest => if k = key then some v else lookup key rest

/-- The value under a key of a table. -/
def get? (key : String) : Toml → Option Toml
  | .table entries => lookup key entries
  | _ => none

end Toml

end LateBinding
