import LateBinding.Callback.Trampoline
import LateBinding.Client.Program
import LateBinding.Options
import LateBinding.Symbol.Table

/-!
**The operations of the client.**

Most operations call one native function: their arguments go out as words, and the word that comes
back is decoded. The others make or destroy objects that have handlers, pass memory, or put several
calls together. Every operation demands the library before it does anything else, but for one: there
is no time in the null date.

Main definitions:

* `LateBinding.Client.Operation` — the operations;
* `LateBinding.Client.Result` — their answers;
* `LateBinding.Client.Operation.program` — **what an operation asks for**.
-/

set_option autoImplicit false

namespace LateBinding.Client

open Native (Address Word Value CString)
open Callback (Key ObjectKind Target)
open LateBinding.Symbol (Slot Kind)

/-- What an object's callbacks go to: the handler of the registry, or functions of the caller. -/
inductive Backing where
  | handler
  | raw
deriving DecidableEq, Repr

/-- What the function leads to that is given for a callback. A caller has a function for every
callback but those of a stream after the first. -/
def Backing.target : Backing → Callback.Name → Target
  | .handler, n => Callback.handlerFunctions n
  | .raw, n => if n.owner = .stream ∧ n ≠ .streamReady then .null else .caller

/-- An operation with its arguments. -/
inductive Operation where
  | direct (slot : Slot) (args : List Value)
  | create (kind : ObjectKind) (backing : Backing) (args : List Value)
  | destroy (kind : ObjectKind) (object : Address)
  | initBuffer (buffer : Address) (data : List UInt8) (callback : Address)
  | hasBufferData (buffer : Address)
  | copyBufferBytes (buffer : Address) (length : Nat)
  | startStream (stream : Address) (url : String) (priority : Int) (method : String)
      (headers : List (String × String)) (endOfStream : Bool)
  | readStream (stream : Address) (capacity : Int)
  | writeStream (stream : Address) (data : List UInt8) (endOfStream : Bool)
  | makeKeyVerifier (hashes : List (List UInt8))
  | installKeyVerifier (engine : Address) (hashes : List (List UInt8))
  | responseHeaders (info : Address)
  | dateTimeMillis (date : Address)
  | timestamps (metrics : Address)
  | setOption (params : Address) (key : String) (value : Option Json)
  | setFeature (params : Address) (feature : Options.Feature)

/-- The answer of an operation. -/
inductive Result where
  | value (v : Value)
  | millis (n : Option Int)
  | timestamps (ts : List (String × Option Int))
  | edited (e : Except Options.Error Unit)

/-- The null handle. -/
def nullHandle : Address := 0

/-! ### Objects with handlers -/

/-- The words for the functions that an object is made from: a pointer to each, or to the table of a
stream. -/
def functions (kind : ObjectKind) (backing : Backing) : List Word :=
  let targets := (Callback.passed kind).map backing.target
  match kind with
  | .stream => [@Word.function targets]
  | _ => targets.map fun t => @Word.function [t]

/-- Makes an object. A handler is registered for it unless it is null. -/
def create (kind : ObjectKind) (backing : Backing) (args : List Value) : Program Result := do
  let w ← Program.native kind.createSymbol (args.map Value.toWord ++ functions kind backing)
  let answer : Program Result := .done (.value (.handle w.address))
  match backing with
  | .raw => answer
  | .handler => if w.address = nullHandle then answer else .register ⟨kind, w.address⟩ answer

/-- What the destruction of an object answers: a stream answers a code, the others nothing. -/
def destroyed (kind : ObjectKind) (w : Word) : Result :=
  match kind with
  | .stream => .value (w.decode (.code .netError))
  | _ => .value .unit

/-! ### Buffers -/

/-- Copies of the first bytes of a buffer, no more than it has. -/
def copyBufferBytes (buffer : Address) (length : Nat) : Program Result := do
  let size ← Program.native "Cronet_Buffer_GetSize" [.handle buffer]
  let data ← Program.native "Cronet_Buffer_GetData" [.handle buffer]
  .done (.value (.bytes (Native.readBytes data.memory (min size.number.toNat length))))

/-! ### Certificate verifiers -/

/-- Makes a verifier from the hashes of public keys; none from no hashes. -/
def makeKeyVerifier (hashes : List (List UInt8)) : Program Address :=
  .demand <|
    match hashes with
    | [] => .done nullHandle
    | _ =>
      .call "Cronet_CreateCertVerifierWithPublicKeySHA256"
        [.pointers (Native.PointerArray.ofList hashes), .int hashes.length]
        fun w => .done w.address

/-- Installs a verifier made from the hashes of public keys, if it can be made. -/
def installKeyVerifier (engine : Address) (hashes : List (List UInt8)) : Program Bool := do
  let verifier ← makeKeyVerifier hashes
  if verifier = nullHandle then .done false
  else
    let _ ← Program.native "Cronet_Engine_SetMockCertVerifierForTesting"
      [.handle engine, .handle verifier]
    .done true

/-! ### Responses -/

/-- The header of a response at an index. -/
def headerAt (info : Address) (index : Nat) : Program (String × String) := do
  let h ← Program.native "Cronet_UrlResponseInfo_all_headers_list_at" [.handle info, .int index]
  let name ← Program.native "Cronet_HttpHeader_name_get" [.handle h.address]
  let value ← Program.native "Cronet_HttpHeader_value_get" [.handle h.address]
  .done (Native.readCString name.memory, Native.readCString value.memory)

/-- The headers at some indices, in order. -/
def headersAt (info : Address) : List Nat → Program (List (String × String))
  | [] => .done []
  | index :: rest => do
    let h ← headerAt info index
    let hs ← headersAt info rest
    .done (h :: hs)

/-- All headers of a response, in order. -/
def responseHeaders (info : Address) : Program (List (String × String)) := do
  let size ← Program.native "Cronet_UrlResponseInfo_all_headers_list_size" [.handle info]
  headersAt info (List.range size.number.toNat)

/-! ### Times -/

/-- The milliseconds of a date; none for the null date. -/
def dateTimeMillis (date : Address) : Program (Option Int) :=
  if date = nullHandle then .done none
  else do
    let w ← Program.native "Cronet_DateTime_value_get" [.handle date]
    .done (some w.number)

/-- The names of the points in time that metrics have, in order. -/
def timestampNames : List String :=
  ["request_start", "dns_start", "dns_end", "connect_start", "connect_end", "ssl_start", "ssl_end",
    "sending_start", "sending_end", "push_start", "push_end", "response_start", "request_end"]

/-- The function of the library that an operation calls. -/
def functionOf (operation : String) : Slot :=
  (Symbol.slot? operation).getD ⟨"", operation, operation, [], .unit⟩

/-- The operations that get and set points in time of metrics. -/
def timestampAccessors : List (String × String) :=
  [("metrics_request_start_get", "metrics_request_start_set"),
    ("metrics_dns_start_get", "metrics_dns_start_set"),
    ("metrics_dns_end_get", "metrics_dns_end_set"),
    ("metrics_connect_start_get", "metrics_connect_start_set"),
    ("metrics_connect_end_get", "metrics_connect_end_set"),
    ("metrics_ssl_start_get", "metrics_ssl_start_set"),
    ("metrics_ssl_end_get", "metrics_ssl_end_set"),
    ("metrics_sending_start_get", "metrics_sending_start_set"),
    ("metrics_sending_end_get", "metrics_sending_end_set"),
    ("metrics_push_start_get", "metrics_push_start_set"),
    ("metrics_push_end_get", "metrics_push_end_set"),
    ("metrics_response_start_get", "metrics_response_start_set"),
    ("metrics_request_end_get", "metrics_request_end_set")]

/-- The operations whose answers stand beside the names, in order. -/
def timestampGetters : List String :=
  ["metrics_request_start_get", "metrics_dns_start_get", "metrics_dns_end_get",
    "metrics_connect_start_get", "metrics_connect_end_get", "metrics_ssl_start_get",
    "metrics_ssl_end_get", "metrics_sending_start_get", "metrics_sending_end_get",
    "metrics_push_start_get", "metrics_push_end_get", "metrics_response_start_get",
    "metrics_request_end_get"]

/-- The dates that some operations get. -/
def timestampDates (metrics : Address) : List String → Program (List Address)
  | [] => .done []
  | getter :: rest => do
    let w ← Program.native (functionOf getter).symbol [.handle metrics]
    let dates ← timestampDates metrics rest
    .done (w.address :: dates)

/-- The milliseconds of named dates. -/
def namedMillis : List (String × Address) → Program (List (String × Option Int))
  | [] => .done []
  | (name, date) :: rest => do
    let n ← dateTimeMillis date
    let ns ← namedMillis rest
    .done ((name, n) :: ns)

/-- The points in time of metrics: first all dates are fetched, then their milliseconds. -/
def timestamps (metrics : Address) : Program (List (String × Option Int)) := do
  let dates ← timestampDates metrics timestampGetters
  namedMillis (timestampNames.zip dates)

/-! ### Options -/

/-- Edits the options of an engine's parameters. Nothing is stored if they cannot be edited. -/
def setOption (params : Address) (key : String) (value : Option Json) :
    Program (Except Options.Error Unit) := do
  let current ← Program.native "Cronet_EngineParams_experimental_options_get" [.handle params]
  match Options.edit (Native.readCString current.memory) key value with
  | .error e => .done (.error e)
  | .ok text =>
    let _ ← Program.native "Cronet_EngineParams_experimental_options_set"
      [.handle params, (CString.ofText text).toWord]
    .done (.ok ())

/-! ### All operations -/

/-- What an operation asks for. -/
def Operation.program : Operation → Program Result
  | .direct slot args => do
    let w ← Program.native slot.symbol (args.map Value.toWord)
    .done (.value (w.decode slot.result))
  | .create kind backing args => LateBinding.Client.create kind backing args
  | .destroy kind object =>
    .demand (.destroy ⟨kind, object⟩ kind.destroySymbol [.handle object] fun w =>
      .done (destroyed kind w))
  | .initBuffer buffer data callback => do
    let _ ← Program.native "Cronet_Buffer_InitWithDataAndCallback"
      [.handle buffer, .data (some data), .int data.length, .handle callback]
    .done (.value .unit)
  | .hasBufferData buffer => do
    let w ← Program.native "Cronet_Buffer_GetData" [.handle buffer]
    .done (.value (w.decode .data))
  | .copyBufferBytes buffer length => LateBinding.Client.copyBufferBytes buffer length
  | .startStream stream url priority method headers endOfStream => do
    let w ← Program.native "bidirectional_stream_start"
      [.handle stream, (CString.ofText url).toWord, .int priority, (CString.ofText method).toWord,
        .headers (some (Native.HeaderArray.ofList headers)), .bool endOfStream]
    .done (.value (w.decode (.code .netError)))
  | .readStream stream capacity => do
    let w ← Program.native "bidirectional_stream_read"
      [.handle stream, .data (some []), .int capacity]
    .done (.value (w.decode (.code .netError)))
  | .writeStream stream data endOfStream => do
    let w ← Program.native "bidirectional_stream_write"
      [.handle stream, .data (some data), .int data.length, .bool endOfStream]
    .done (.value (w.decode (.code .netError)))
  | .makeKeyVerifier hashes => do
    let verifier ← LateBinding.Client.makeKeyVerifier hashes
    .done (.value (.handle verifier))
  | .installKeyVerifier engine hashes => do
    let installed ← LateBinding.Client.installKeyVerifier engine hashes
    .done (.value (.bool installed))
  | .responseHeaders info => do
    let hs ← LateBinding.Client.responseHeaders info
    .done (.value (.headers hs))
  | .dateTimeMillis date => do
    let n ← LateBinding.Client.dateTimeMillis date
    .done (.millis n)
  | .timestamps metrics => do
    let ts ← LateBinding.Client.timestamps metrics
    .done (.timestamps ts)
  | .setOption params key value => do
    let e ← LateBinding.Client.setOption params key value
    .done (.edited e)
  | .setFeature params feature => do
    let e ← LateBinding.Client.setOption params feature.key feature.value
    .done (.edited e)

end LateBinding.Client
