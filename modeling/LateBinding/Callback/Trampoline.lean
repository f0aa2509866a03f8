import LateBinding.Callback.Registry

/-!
**The client's own functions for callbacks.**

Each of these functions looks up the handler of the object that it is passed and calls one method of
that handler. When an object is made for a handler, a function is given for each of its callbacks,
and the functions are passed to the library one after the other, or in a table. **What each function
does, which is given for which callback, and in which order they are passed are three lists**, and
nothing else says that a callback ends at the method of its name.

Main definitions:

* `LateBinding.Callback.Trampoline.body` — what each function does;
* `LateBinding.Callback.handlerFunctions` — which function is given for which callback;
* `LateBinding.Callback.passed` — the order in which they are passed;
* `LateBinding.Callback.Incoming` — a call of such a function, with `key`, `delivery` and `event`.
-/

set_option autoImplicit false

namespace LateBinding.Callback

open LateBinding.Symbol (Kind)
open Native (Address Word)

/-- What such a function does: it looks for a handler of some kind, decodes the words that it is
passed, and calls a method of the handler; and if this may happen once only, the handler is retired
afterwards. -/
structure Body where
  registry : ObjectKind
  once : Bool
  params : List Kind
  method : Name

/-- The method is called whenever the function is. -/
def Body.dispatch (registry : ObjectKind) (params : List Kind) (method : Name) : Body :=
  ⟨registry, false, params, method⟩

/-- The method is called, and then the handler is retired. -/
def Body.dispatchOnce (registry : ObjectKind) (params : List Kind) (method : Name) : Body :=
  ⟨registry, true, params, method⟩

/-- What each of the functions does. -/
def Trampoline.body : Trampoline → Body
  | .execute => .dispatch .executor [.handle .executor, .handle .runnable] .execute
  | .run => .dispatchOnce .runnable [.handle .runnable] .run
  | .bufferRelease =>
    .dispatchOnce .bufferCallback [.handle .bufferCallback, .handle .buffer] .release
  | .status =>
    .dispatchOnce .statusListener [.handle .urlRequestStatusListener, .code .requestStatus] .status
  | .requestFinished =>
    .dispatch .finishedListener
      [.handle .requestFinishedInfoListener, .handle .requestFinishedInfo, .handle .urlResponseInfo,
        .handle .error] .finished
  | .redirectReceived =>
    .dispatch .requestCallback
      [.handle .urlRequestCallback, .handle .urlRequest, .handle .urlResponseInfo, .text]
      .redirectReceived
  | .responseStarted =>
    .dispatch .requestCallback
      [.handle .urlRequestCallback, .handle .urlRequest, .handle .urlResponseInfo] .responseStarted
  | .readCompleted =>
    .dispatch .requestCallback
      [.handle .urlRequestCallback, .handle .urlRequest, .handle .urlResponseInfo, .handle .buffer,
        .uint64] .readCompleted
  | .succeeded =>
    .dispatchOnce .requestCallback
      [.handle .urlRequestCallback, .handle .urlRequest, .handle .urlResponseInfo] .succeeded
  | .failed =>
    .dispatchOnce .requestCallback
      [.handle .urlRequestCallback, .handle .urlRequest, .handle .urlResponseInfo, .handle .error]
      .failed
  | .canceled =>
    .dispatchOnce .requestCallback
      [.handle .urlRequestCallback, .handle .urlRequest, .handle .urlResponseInfo] .canceled
  | .uploadLength => .dispatch .uploadProvider [.handle .uploadDataProvider] .length
  | .uploadRead =>
    .dispatch .uploadProvider
      [.handle .uploadDataProvider, .handle .uploadDataSink, .handle .buffer] .read
  | .uploadRewind =>
    .dispatch .uploadProvider [.handle .uploadDataProvider, .handle .uploadDataSink] .rewind
  | .uploadClose => .dispatch .uploadProvider [.handle .uploadDataProvider] .close
  | .streamReady => .dispatch .stream [.handle .bidirectionalStream] .streamReady
  | .streamHeaders =>
    .dispatch .stream [.handle .bidirectionalStream, .headers, .text] .streamHeaders
  | .streamRead =>
    .dispatch .stream [.handle .bidirectionalStream, .rawPointer, .int32] .streamRead
  | .streamWrite => .dispatch .stream [.handle .bidirectionalStream, .rawPointer] .streamWrite
  | .streamTrailers => .dispatch .stream [.handle .bidirectionalStream, .headers] .streamTrailers
  | .streamSucceeded => .dispatchOnce .stream [.handle .bidirectionalStream] .streamSucceeded
  | .streamFailed =>
    .dispatchOnce .stream [.handle .bidirectionalStream, .code .netError] .streamFailed
  | .streamCanceled => .dispatchOnce .stream [.handle .bidirectionalStream] .streamCanceled

/-- The functions that an object with a handler is made from, each given for a callback. -/
def handlerFunctions : Name → Target
  | .execute => .own .execute
  | .run => .own .run
  | .release => .own .bufferRelease
  | .redirectReceived => .own .redirectReceived
  | .responseStarted => .own .responseStarted
  | .readCompleted => .own .readCompleted
  | .succeeded => .own .succeeded
  | .failed => .own .failed
  | .canceled => .own .canceled
  | .status => .own .status
  | .length => .own .uploadLength
  | .read => .own .uploadRead
  | .rewind => .own .uploadRewind
  | .close => .own .uploadClose
  | .finished => .own .requestFinished
  | .streamReady => .own .streamReady
  | .streamHeaders => .own .streamHeaders
  | .streamRead => .own .streamRead
  | .streamWrite => .own .streamWrite
  | .streamTrailers => .own .streamTrailers
  | .streamSucceeded => .own .streamSucceeded
  | .streamFailed => .own .streamFailed
  | .streamCanceled => .own .streamCanceled

/-- The callbacks whose functions are passed when an object is made, in the order in which they are
passed; those of a stream stand in one table, in this order. -/
def passed : ObjectKind → List Name
  | .executor => [.execute]
  | .runnable => [.run]
  | .bufferCallback => [.release]
  | .requestCallback =>
    [.redirectReceived, .responseStarted, .readCompleted, .succeeded, .failed, .canceled]
  | .statusListener => [.status]
  | .uploadProvider => [.length, .read, .rewind, .close]
  | .finishedListener => [.finished]
  | .stream =>
    [.streamReady, .streamHeaders, .streamRead, .streamWrite, .streamTrailers, .streamSucceeded,
      .streamFailed, .streamCanceled]

/-- A callback as it comes in: the client's function that the library calls, and the words that it
passes. -/
structure Incoming where
  trampoline : Trampoline
  args : List Word
deriving DecidableEq, Repr

namespace Incoming

/-- The method of the handler that is called. -/
def name (c : Incoming) : Name := c.trampoline.body.method

/-- The address of the object that a callback is for. -/
def address (c : Incoming) : Address := (c.args.headD .unit).address

/-- The object that a callback is for. -/
def key (c : Incoming) : Key := ⟨c.trampoline.body.registry, c.address⟩

/-- What the handler is told: every word decoded by its kind. -/
def event (c : Incoming) : Event :=
  ⟨c.name, (c.trampoline.body.params.zip c.args).map fun p => p.2.decode p.1⟩

/-- A callback on its way. -/
def delivery (c : Incoming) : Delivery Incoming := ⟨c.key, c.trampoline.body.once, c⟩

end Incoming

end LateBinding.Callback
