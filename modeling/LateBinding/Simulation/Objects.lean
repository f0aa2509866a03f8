import LateBinding.Client.Operation

/-!
**The objects of a simulated library.**

The simulated library keeps what it is told and does nothing on its own. An object is the number of
its making. A field of an object is named by the function that works on it, without the ending: what
`X_set` stores, `X_get` answers, and the same for the client's context; `X_add`, `X_size`, `X_at`
and `X_clear` work on a list. Buffers have memory. All other functions answer nothing.

Main definitions:

* `LateBinding.Simulation.Objects` — the state of the objects;
* `LateBinding.Simulation.isMaker` — whether a function makes an object;
* `LateBinding.Simulation.Objects.respond` — what a function that makes none does and answers.
-/

set_option autoImplicit false

namespace LateBinding.Simulation

open Native (Address Word)

/-- A field of an object. -/
abbrev Field := Address × String

/-- The state of the objects: how many were made, the values and lists in their fields, and the size
and memory of buffers. -/
structure Objects where
  made : Nat := 0
  values : List (Field × Word) := []
  lists : List (Field × List Word) := []
  buffers : List (Address × Nat × Option (List UInt8)) := []

/-- The value under a key, the newest first. -/
def find? {κ α : Type} [DecidableEq κ] (key : κ) (entries : List (κ × α)) : Option α :=
  (entries.find? fun e => e.1 = key).map (·.2)

/-- The entries with a value under a key. -/
def put {κ α : Type} [DecidableEq κ] (key : κ) (value : α) (entries : List (κ × α)) :
    List (κ × α) :=
  (key, value) :: entries.filter fun e => e.1 ≠ key

/-- A name without an ending, if it has that ending. -/
def dropEnding? (ending name : String) : Option String :=
  let n := name.toList
  let e := ending.toList
  if e.reverse.isPrefixOf n.reverse then some (String.ofList (n.take (n.length - e.length)))
  else none

/-- Whether a text holds another one. -/
def holds (part : List Char) : List Char → Bool
  | [] => part.isEmpty
  | c :: rest => part.isPrefixOf (c :: rest) || holds part rest

/-- Whether a function makes an object. -/
def isMaker (symbol : String) : Bool :=
  (dropEnding? "_Create" symbol).isSome || holds "_CreateWith".toList symbol.toList ||
    "Cronet_CreateCertVerifier".toList.isPrefixOf symbol.toList ||
    symbol == "bidirectional_stream_create"

/-- The first handle that a function is given. -/
def owner (args : List Word) : Address := (args.headD .unit).address

/-- The word that a function is given at a place. -/
def argument (args : List Word) (i : Nat) : Word := args.getD i .unit

/-- A word as the library keeps it: of a text, a copy of what it sees. -/
def keep : Word → Word
  | .text (some memory) => .text (some (memory.takeWhile (· != 0) ++ [0]))
  | w => w

/-- The word that a function answers when it has nothing to answer. -/
def nothing (symbol : String) : Word :=
  match Symbol.allSlots.find? fun s => s.symbol == symbol with
  | some slot => Word.zero slot.result
  | none => .unit

/-- The largest buffer that gets memory. -/
def maxBuffer : Nat := 65536

/-- The memory of a new buffer: its bytes count up, from zero again and again. -/
def freshMemory (size : Nat) : Option (List UInt8) :=
  if 1 ≤ size && size ≤ maxBuffer then some ((List.range size).map UInt8.ofNat) else none

/-- What a function does with a field of an object. -/
inductive Access where
  | store (name : String)
  | fetch (name : String)
  | append (name : String)
  | count (name : String)
  | item (name : String)
  | clear (name : String)
deriving DecidableEq, Repr

/-- The endings of functions that work on fields. -/
def endings : List (String × (String → Access)) :=
  [("_SetClientContext", .store), ("_GetClientContext", .fetch), ("_set", .store), ("_get", .fetch),
    ("_add", .append), ("_size", .count), ("_at", .item), ("_clear", .clear)]

/-- What a function does with a field, if it works on one. -/
def access? (symbol : String) : Option Access :=
  endings.findSome? fun e => (dropEnding? e.1 symbol).map e.2

namespace Objects

/-- The list in a field. -/
def listAt (s : Objects) (field : Field) : List Word := (find? field s.lists).getD []

/-- What a function does with a field, and what it answers. -/
def touch (s : Objects) (symbol : String) (args : List Word) : Access → Objects × Word
  | .store name =>
    ({ s with values := put (owner args, name) (keep (argument args 1)) s.values }, nothing symbol)
  | .fetch name => (s, (find? (owner args, name) s.values).getD (nothing symbol))
  | .append name =>
    let field := (owner args, name)
    ({ s with lists := put field (s.listAt field ++ [keep (argument args 1)]) s.lists },
      nothing symbol)
  | .count name => (s, .int (s.listAt (owner args, name)).length)
  | .item name =>
    (s, ((s.listAt (owner args, name))[(argument args 1).number.toNat]?).getD (nothing symbol))
  | .clear name => ({ s with lists := put (owner args, name) [] s.lists }, nothing symbol)

/-- What a function that makes no object does, and what it answers. -/
def respond (s : Objects) (symbol : String) (args : List Word) : Objects × Word :=
  let buffer := owner args
  if symbol = "Cronet_Buffer_InitWithAlloc" then
    let size := (argument args 1).number.toNat
    ({ s with buffers := put buffer (size, freshMemory size) s.buffers }, .unit)
  else if symbol = "Cronet_Buffer_InitWithDataAndCallback" then
    let size := (argument args 2).number.toNat
    ({ s with buffers := put buffer (size, (argument args 1).memory) s.buffers }, .unit)
  else if symbol = "Cronet_Buffer_GetSize" then
    (s, .int ((find? buffer s.buffers).map (·.1) |>.getD 0))
  else if symbol = "Cronet_Buffer_GetData" then
    (s, .data ((find? buffer s.buffers).bind (·.2)))
  else
    match access? symbol with
    | some access => s.touch symbol args access
    | none => (s, nothing symbol)

/-- A new object. -/
def make (s : Objects) : Objects × Address :=
  ({ s with made := s.made + 1 }, UInt64.ofNat (s.made + 1))

end Objects

end LateBinding.Simulation
