import LateBinding.Native.Enumeration

/-!
**Native functions and their signatures.**

A slot is one function of the library: the symbol that it is exported under, the group that it
belongs to, the name of the operation that calls it, and what crosses the boundary in a call.

Main definitions:

* `LateBinding.Symbol.HandleType` — the kinds of objects that handles refer to;
* `LateBinding.Symbol.Kind` — the kinds of arguments and results;
* `LateBinding.Symbol.Slot`.
-/

set_option autoImplicit false

namespace LateBinding.Symbol

/-- The kinds of objects that handles refer to. -/
inductive HandleType where
  | buffer
  | bufferCallback
  | runnable
  | executor
  | engine
  | engineParams
  | urlRequest
  | urlRequestParams
  | urlRequestCallback
  | urlRequestStatusListener
  | uploadDataProvider
  | uploadDataSink
  | urlResponseInfo
  | error
  | httpHeader
  | quicHint
  | publicKeyPins
  | dateTime
  | metrics
  | requestFinishedInfo
  | requestFinishedInfoListener
  | certVerifier
  | streamEngine
  | bidirectionalStream
deriving DecidableEq, Repr

/-- The name of a handle type. -/
def HandleType.name : HandleType → String
  | .buffer => "BufferHandle"
  | .bufferCallback => "BufferCallbackHandle"
  | .runnable => "RunnableHandle"
  | .executor => "ExecutorHandle"
  | .engine => "EngineHandle"
  | .engineParams => "EngineParamsHandle"
  | .urlRequest => "UrlRequestHandle"
  | .urlRequestParams => "UrlRequestParamsHandle"
  | .urlRequestCallback => "UrlRequestCallbackHandle"
  | .urlRequestStatusListener => "UrlRequestStatusListenerHandle"
  | .uploadDataProvider => "UploadDataProviderHandle"
  | .uploadDataSink => "UploadDataSinkHandle"
  | .urlResponseInfo => "UrlResponseInfoHandle"
  | .error => "ErrorHandle"
  | .httpHeader => "HttpHeaderHandle"
  | .quicHint => "QuicHintHandle"
  | .publicKeyPins => "PublicKeyPinsHandle"
  | .dateTime => "DateTimeHandle"
  | .metrics => "MetricsHandle"
  | .requestFinishedInfo => "RequestFinishedInfoHandle"
  | .requestFinishedInfoListener => "RequestFinishedInfoListenerHandle"
  | .certVerifier => "CertVerifierHandle"
  | .streamEngine => "StreamEngineHandle"
  | .bidirectionalStream => "BidirectionalStreamHandle"

/-- All handle types. -/
def HandleType.all : List HandleType :=
  [.buffer, .bufferCallback, .runnable, .executor, .engine, .engineParams, .urlRequest,
    .urlRequestParams, .urlRequestCallback, .urlRequestStatusListener, .uploadDataProvider,
    .uploadDataSink, .urlResponseInfo, .error, .httpHeader, .quicHint, .publicKeyPins, .dateTime,
    .metrics, .requestFinishedInfo, .requestFinishedInfoListener, .certVerifier, .streamEngine,
    .bidirectionalStream]

/-- A handle in a diagnostic: the name of its type, and its address in hexadecimal. -/
def debugHandle (type : String) (address : UInt64) : String :=
  type ++ "(0x" ++ String.ofList (Nat.toDigits 16 address.toNat) ++ ")"

/-- The enumerations that cross the boundary. -/
inductive CodeType where
  | resultCode
  | httpCacheMode
  | requestPriority
  | idempotency
  | requestStatus
  | finishedReason
  | errorCode
  | netError
deriving DecidableEq, Repr

/-- The values of an enumeration. -/
def CodeType.enumeration : CodeType → Native.Enumeration
  | .resultCode => Native.resultCode
  | .httpCacheMode => Native.httpCacheMode
  | .requestPriority => Native.requestPriority
  | .idempotency => Native.idempotency
  | .requestStatus => Native.requestStatus
  | .finishedReason => Native.finishedReason
  | .errorCode => Native.errorCode
  | .netError => Native.netError

/-- What crosses the boundary at one place of a call. A raw pointer is only passed on. -/
inductive Kind where
  | unit
  | handle (type : HandleType)
  | context
  | rawPointer
  | int32
  | int64
  | uint32
  | uint64
  | bool
  | double
  | code (type : CodeType)
  | text
  | path
  | data
  | headers
  | pointers
  | function
deriving DecidableEq, Repr

/-- A native function. -/
structure Slot where
  group : String
  operation : String
  symbol : String
  params : List Kind
  result : Kind
deriving DecidableEq, Repr

/-- The functions of a group, each given by its operation, symbol, parameters and result. -/
def inGroup (group : String) (rows : List (String × String × List Kind × Kind)) : List Slot :=
  rows.map fun r => ⟨group, r.1, r.2.1, r.2.2.1, r.2.2.2⟩

end LateBinding.Symbol
