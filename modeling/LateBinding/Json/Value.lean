import LateBinding.Json.Number

/-!
**JSON values.**

The members of an object stand in ascending order of their keys, each key once. The order is that
of the characters' code points, which is also the order of the bytes in UTF-8. Objects that hold
the same members are therefore equal values.

Main definitions:

* `LateBinding.Json`;
* `LateBinding.Json.Members` — the members of an object, with `get?`, `put` and `remove`;
* `LateBinding.Json.nesting` — how many arrays and objects stand inside one another.
-/

set_option autoImplicit false

namespace LateBinding

/-- A JSON value. -/
inductive Json where
  | null
  | bool (b : Bool)
  | number (n : Json.Number)
  | string (s : String)
  | array (items : List Json)
  | object (members : List (String × Json))
deriving Inhabited

namespace Json

/-- The members of an object, in ascending order of their keys. -/
abbrev Members := List (String × Json)

namespace Members

/-- The value under a key. -/
def get? (key : String) : Members → Option Json
  | [] => none
  | (k, v) :: rest => if k = key then some v else get? key rest

/-- The members with a key mapped to a value, in its place in the order. -/
def put (key : String) (value : Json) : Members → Members
  | [] => [(key, value)]
  | (k, v) :: rest =>
    if key = k then (key, value) :: rest
    else if key < k then (key, value) :: (k, v) :: rest
    else (k, v) :: put key value rest

/-- The members without a key. -/
def remove (key : String) : Members → Members
  | [] => []
  | (k, v) :: rest => if k = key then rest else (k, v) :: remove key rest

/-- The members of a list of pairs; of two pairs with one key the later one counts. -/
def ofList (pairs : List (String × Json)) : Members :=
  pairs.foldl (fun m p => put p.1 p.2 m) []

end Members

/-- The object with the given members, of equal keys the last. -/
def ofPairs (pairs : List (String × Json)) : Json :=
  .object (Members.ofList pairs)

/-- What kind of value stands where an object is expected, in words. -/
def kind : Json → String
  | .null => "null"
  | .bool _ => "a boolean"
  | .number _ => "a number"
  | .string _ => "a string"
  | .array _ => "an array"
  | .object _ => "an object"

mutual

/-- How many arrays and objects stand inside one another. -/
def nesting : Json → Nat
  | .array items => itemsNesting items + 1
  | .object members => membersNesting members + 1
  | _ => 0

/-- The greatest nesting among items. -/
def itemsNesting : List Json → Nat
  | [] => 0
  | v :: rest => max v.nesting (itemsNesting rest)

/-- The greatest nesting among members. -/
def membersNesting : List (String × Json) → Nat
  | [] => 0
  | (_, v) :: rest => max v.nesting (membersNesting rest)

end

end Json

end LateBinding
