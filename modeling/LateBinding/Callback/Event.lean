import LateBinding.Native.Word

/-!
**Callbacks of the library and the events that they become.**

The library calls back for an object: an executor, a runnable and so on. It is given a function for
each callback when the object is made, and each function is passed the object first. What the
object's handler gets is an event, which names one of the handler's methods and has the words
decoded. Some callbacks are the last that an object gets.

All this is what the library and the handlers agree on. What the client's own functions make of it
is in `LateBinding.Callback.Trampoline`.

Main definitions:

* `LateBinding.Callback.ObjectKind` — the kinds of objects that have handlers;
* `LateBinding.Callback.Name` — the callbacks, with `owner`, `isFinal` and `signature`;
* `LateBinding.Callback.ObjectKind.entryPoints` — the callbacks of a kind, in the library's order;
* `LateBinding.Callback.Event` — what a handler is told.
-/

set_option autoImplicit false

namespace LateBinding.Callback

open LateBinding.Symbol (HandleType Kind)
open Native (Value)

/-- The kinds of objects that have handlers. -/
inductive ObjectKind where
  | executor
  | runnable
  | bufferCallback
  | requestCallback
  | statusListener
  | uploadProvider
  | finishedListener
  | stream
deriving DecidableEq, Repr

namespace ObjectKind

/-- All kinds. -/
def all : List ObjectKind :=
  [executor, runnable, bufferCallback, requestCallback, statusListener, uploadProvider,
    finishedListener, stream]

/-- The name of a kind in the names of its operations. -/
def operationStem : ObjectKind → String
  | executor => "executor"
  | runnable => "runnable"
  | bufferCallback => "buffer_callback"
  | requestCallback => "url_request_callback"
  | statusListener => "url_request_status_listener"
  | uploadProvider => "upload_data_provider"
  | finishedListener => "request_finished_info_listener"
  | stream => "bidirectional_stream"

/-- The function that makes an object from callbacks. -/
def createSymbol : ObjectKind → String
  | executor => "Cronet_Executor_CreateWith"
  | runnable => "Cronet_Runnable_CreateWith"
  | bufferCallback => "Cronet_BufferCallback_CreateWith"
  | requestCallback => "Cronet_UrlRequestCallback_CreateWith"
  | statusListener => "Cronet_UrlRequestStatusListener_CreateWith"
  | uploadProvider => "Cronet_UploadDataProvider_CreateWith"
  | finishedListener => "Cronet_RequestFinishedInfoListener_CreateWith"
  | stream => "bidirectional_stream_create"

/-- The function that destroys an object. -/
def destroySymbol : ObjectKind → String
  | executor => "Cronet_Executor_Destroy"
  | runnable => "Cronet_Runnable_Destroy"
  | bufferCallback => "Cronet_BufferCallback_Destroy"
  | requestCallback => "Cronet_UrlRequestCallback_Destroy"
  | statusListener => "Cronet_UrlRequestStatusListener_Destroy"
  | uploadProvider => "Cronet_UploadDataProvider_Destroy"
  | finishedListener => "Cronet_RequestFinishedInfoListener_Destroy"
  | stream => "bidirectional_stream_destroy"

/-- The type of an object's handle. -/
def handleType : ObjectKind → HandleType
  | executor => .executor
  | runnable => .runnable
  | bufferCallback => .bufferCallback
  | requestCallback => .urlRequestCallback
  | statusListener => .urlRequestStatusListener
  | uploadProvider => .uploadDataProvider
  | finishedListener => .requestFinishedInfoListener
  | stream => .bidirectionalStream

end ObjectKind

/-- The callbacks. -/
inductive Name where
  | execute
  | run
  | release
  | redirectReceived
  | responseStarted
  | readCompleted
  | succeeded
  | failed
  | canceled
  | status
  | length
  | read
  | rewind
  | close
  | finished
  | streamReady
  | streamHeaders
  | streamRead
  | streamWrite
  | streamTrailers
  | streamSucceeded
  | streamFailed
  | streamCanceled
deriving DecidableEq, Repr

namespace Name

/-- All callbacks. -/
def all : List Name :=
  [execute, run, release, redirectReceived, responseStarted, readCompleted, succeeded, failed,
    canceled, status, length, read, rewind, close, finished, streamReady, streamHeaders,
    streamRead, streamWrite, streamTrailers, streamSucceeded, streamFailed, streamCanceled]

/-- The word for a callback. -/
def label : Name → String
  | execute => "execute"
  | run => "run"
  | release => "release"
  | redirectReceived => "redirect_received"
  | responseStarted => "response_started"
  | readCompleted => "read_completed"
  | succeeded => "succeeded"
  | failed => "failed"
  | canceled => "canceled"
  | status => "status"
  | length => "length"
  | read => "read"
  | rewind => "rewind"
  | close => "close"
  | finished => "finished"
  | streamReady => "stream_ready"
  | streamHeaders => "stream_headers"
  | streamRead => "stream_read"
  | streamWrite => "stream_write"
  | streamTrailers => "stream_trailers"
  | streamSucceeded => "stream_succeeded"
  | streamFailed => "stream_failed"
  | streamCanceled => "stream_canceled"

/-- The kind of object that a callback belongs to. -/
def owner : Name → ObjectKind
  | execute => .executor
  | run => .runnable
  | release => .bufferCallback
  | redirectReceived => .requestCallback
  | responseStarted => .requestCallback
  | readCompleted => .requestCallback
  | succeeded => .requestCallback
  | failed => .requestCallback
  | canceled => .requestCallback
  | status => .statusListener
  | length => .uploadProvider
  | read => .uploadProvider
  | rewind => .uploadProvider
  | close => .uploadProvider
  | finished => .finishedListener
  | streamReady => .stream
  | streamHeaders => .stream
  | streamRead => .stream
  | streamWrite => .stream
  | streamTrailers => .stream
  | streamSucceeded => .stream
  | streamFailed => .stream
  | streamCanceled => .stream

/-- Whether a callback is the last one for its object: those that an object gets once, and those
that end a request or a stream. -/
def isFinal : Name → Bool
  | run => true
  | release => true
  | status => true
  | succeeded => true
  | failed => true
  | canceled => true
  | streamSucceeded => true
  | streamFailed => true
  | streamCanceled => true
  | _ => false

/-- What the library passes for a callback. The object itself comes first. -/
def signature : Name → List Kind
  | execute => [.handle .executor, .handle .runnable]
  | run => [.handle .runnable]
  | release => [.handle .bufferCallback, .handle .buffer]
  | redirectReceived =>
    [.handle .urlRequestCallback, .handle .urlRequest, .handle .urlResponseInfo, .text]
  | responseStarted => [.handle .urlRequestCallback, .handle .urlRequest, .handle .urlResponseInfo]
  | readCompleted =>
    [.handle .urlRequestCallback, .handle .urlRequest, .handle .urlResponseInfo, .handle .buffer,
      .uint64]
  | succeeded => [.handle .urlRequestCallback, .handle .urlRequest, .handle .urlResponseInfo]
  | failed =>
    [.handle .urlRequestCallback, .handle .urlRequest, .handle .urlResponseInfo, .handle .error]
  | canceled => [.handle .urlRequestCallback, .handle .urlRequest, .handle .urlResponseInfo]
  | status => [.handle .urlRequestStatusListener, .code .requestStatus]
  | length => [.handle .uploadDataProvider]
  | read => [.handle .uploadDataProvider, .handle .uploadDataSink, .handle .buffer]
  | rewind => [.handle .uploadDataProvider, .handle .uploadDataSink]
  | close => [.handle .uploadDataProvider]
  | finished =>
    [.handle .requestFinishedInfoListener, .handle .requestFinishedInfo, .handle .urlResponseInfo,
      .handle .error]
  | streamReady => [.handle .bidirectionalStream]
  | streamHeaders => [.handle .bidirectionalStream, .headers, .text]
  | streamRead => [.handle .bidirectionalStream, .rawPointer, .int32]
  | streamWrite => [.handle .bidirectionalStream, .rawPointer]
  | streamTrailers => [.handle .bidirectionalStream, .headers]
  | streamSucceeded => [.handle .bidirectionalStream]
  | streamFailed => [.handle .bidirectionalStream, .code .netError]
  | streamCanceled => [.handle .bidirectionalStream]

end Name

/-- The callbacks of a kind of object, in the order in which the library is given the functions for
them: as parameters of the function that makes the object, or as the slots of a stream's table. -/
def ObjectKind.entryPoints : ObjectKind → List Name
  | executor => [.execute]
  | runnable => [.run]
  | bufferCallback => [.release]
  | requestCallback =>
    [.redirectReceived, .responseStarted, .readCompleted, .succeeded, .failed, .canceled]
  | statusListener => [.status]
  | uploadProvider => [.length, .read, .rewind, .close]
  | finishedListener => [.finished]
  | stream =>
    [.streamReady, .streamHeaders, .streamRead, .streamWrite, .streamTrailers, .streamSucceeded,
      .streamFailed, .streamCanceled]

/-- The place of a callback among those of its kind of object. -/
def Name.place (n : Name) : Nat := n.owner.entryPoints.idxOf n

/-- What a handler is told: which of its methods is called, and the values that the method gets. -/
structure Event where
  name : Name
  values : List Value
deriving DecidableEq, Repr

end LateBinding.Callback
