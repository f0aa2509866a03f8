/-!
**Enumerations whose values the native side may extend.**

A value is a number. The numbers that are known have names; any other number is kept as it is and
passed on, because a newer library may know more of them.

Main definitions:

* `LateBinding.Native.Enumeration` — a type's name and its known values, in order;
* `LateBinding.Native.Enumeration.name?`, `display` and `debug`;
* `LateBinding.Native.resultCode`, `LateBinding.Native.netError` and the other six.
-/

set_option autoImplicit false

namespace LateBinding.Native

/-- An enumeration: the name of its type, and its known values with their names, in order. -/
structure Enumeration where
  type : String
  known : List (Int × String)
deriving DecidableEq, Repr

namespace Enumeration

/-- The name of a known value. -/
def name? (e : Enumeration) (raw : Int) : Option String :=
  (e.known.find? fun v => v.1 == raw).map (·.2)

/-- A value in a message. -/
def display (e : Enumeration) (raw : Int) : String :=
  match e.name? raw with
  | some name => name
  | none => "UNKNOWN(" ++ toString raw ++ ")"

/-- A value with the name of its type. -/
def debug (e : Enumeration) (raw : Int) : String :=
  e.type ++ "::" ++ e.display raw

end Enumeration

/-- What a call that can fail answers. -/
def resultCode : Enumeration where
  type := "ResultCode"
  known :=
    [(0, "SUCCESS"), (-100, "ILLEGAL_ARGUMENT"),
      (-101, "ILLEGAL_ARGUMENT_STORAGE_PATH_MUST_EXIST"), (-102, "ILLEGAL_ARGUMENT_INVALID_PIN"),
      (-103, "ILLEGAL_ARGUMENT_INVALID_HOSTNAME"), (-104, "ILLEGAL_ARGUMENT_INVALID_HTTP_METHOD"),
      (-105, "ILLEGAL_ARGUMENT_INVALID_HTTP_HEADER"), (-200, "ILLEGAL_STATE"),
      (-201, "ILLEGAL_STATE_STORAGE_PATH_IN_USE"),
      (-202, "ILLEGAL_STATE_CANNOT_SHUTDOWN_ENGINE_FROM_NETWORK_THREAD"),
      (-203, "ILLEGAL_STATE_ENGINE_ALREADY_STARTED"),
      (-204, "ILLEGAL_STATE_REQUEST_ALREADY_STARTED"),
      (-205, "ILLEGAL_STATE_REQUEST_NOT_INITIALIZED"),
      (-206, "ILLEGAL_STATE_REQUEST_ALREADY_INITIALIZED"),
      (-207, "ILLEGAL_STATE_REQUEST_NOT_STARTED"), (-208, "ILLEGAL_STATE_UNEXPECTED_REDIRECT"),
      (-209, "ILLEGAL_STATE_UNEXPECTED_READ"), (-210, "ILLEGAL_STATE_READ_FAILED"),
      (-300, "NULL_POINTER"), (-301, "NULL_POINTER_HOSTNAME"), (-302, "NULL_POINTER_SHA256_PINS"),
      (-303, "NULL_POINTER_EXPIRATION_DATE"), (-304, "NULL_POINTER_ENGINE"),
      (-305, "NULL_POINTER_URL"), (-306, "NULL_POINTER_CALLBACK"), (-307, "NULL_POINTER_EXECUTOR"),
      (-308, "NULL_POINTER_METHOD"), (-309, "NULL_POINTER_HEADER_NAME"),
      (-310, "NULL_POINTER_HEADER_VALUE"), (-311, "NULL_POINTER_PARAMS"),
      (-312, "NULL_POINTER_REQUEST_FINISHED_INFO_LISTENER_EXECUTOR")]

/-- How responses are cached. -/
def httpCacheMode : Enumeration where
  type := "HttpCacheMode"
  known :=
    [(0, "DISABLED"), (1, "IN_MEMORY"), (2, "DISK_NO_HTTP"), (3, "DISK")]

/-- How urgent a request is. -/
def requestPriority : Enumeration where
  type := "RequestPriority"
  known :=
    [(0, "IDLE"), (1, "LOWEST"), (2, "LOW"), (3, "MEDIUM"), (4, "HIGHEST")]

/-- Whether a request may be repeated. -/
def idempotency : Enumeration where
  type := "Idempotency"
  known :=
    [(0, "DEFAULT_IDEMPOTENCY"), (1, "IDEMPOTENT"), (2, "NOT_IDEMPOTENT")]

/-- What a request is waiting for. -/
def requestStatus : Enumeration where
  type := "RequestStatus"
  known :=
    [(-1, "INVALID"), (0, "IDLE"), (1, "WAITING_FOR_STALLED_SOCKET_POOL"),
      (2, "WAITING_FOR_AVAILABLE_SOCKET"), (3, "WAITING_FOR_DELEGATE"), (4, "WAITING_FOR_CACHE"),
      (5, "DOWNLOADING_PAC_FILE"), (6, "RESOLVING_PROXY_FOR_URL"),
      (7, "RESOLVING_HOST_IN_PAC_FILE"), (8, "ESTABLISHING_PROXY_TUNNEL"), (9, "RESOLVING_HOST"),
      (10, "CONNECTING"), (11, "SSL_HANDSHAKE"), (12, "SENDING_REQUEST"),
      (13, "WAITING_FOR_RESPONSE"), (14, "READING_RESPONSE")]

/-- How a request ended. -/
def finishedReason : Enumeration where
  type := "FinishedReason"
  known :=
    [(0, "SUCCEEDED"), (1, "FAILED"), (2, "CANCELED")]

/-- Why a request failed. -/
def errorCode : Enumeration where
  type := "ErrorCode"
  known :=
    [(0, "ERROR_CALLBACK"), (1, "ERROR_HOSTNAME_NOT_RESOLVED"), (2, "ERROR_INTERNET_DISCONNECTED"),
      (3, "ERROR_NETWORK_CHANGED"), (4, "ERROR_TIMED_OUT"), (5, "ERROR_CONNECTION_CLOSED"),
      (6, "ERROR_CONNECTION_TIMED_OUT"), (7, "ERROR_CONNECTION_REFUSED"),
      (8, "ERROR_CONNECTION_RESET"), (9, "ERROR_ADDRESS_UNREACHABLE"),
      (10, "ERROR_QUIC_PROTOCOL_FAILED"), (11, "ERROR_OTHER")]

/-- What went wrong in the network; zero is no error. -/
def netError : Enumeration where
  type := "NetError"
  known :=
    [(0, "OK"), (-1, "ERR_IO_PENDING"), (-2, "ERR_FAILED"), (-3, "ERR_ABORTED"),
      (-4, "ERR_INVALID_ARGUMENT"), (-7, "ERR_TIMED_OUT"), (-9, "ERR_UNEXPECTED"),
      (-10, "ERR_ACCESS_DENIED"), (-11, "ERR_NOT_IMPLEMENTED"), (-15, "ERR_SOCKET_NOT_CONNECTED"),
      (-21, "ERR_NETWORK_CHANGED"), (-100, "ERR_CONNECTION_CLOSED"),
      (-101, "ERR_CONNECTION_RESET"), (-102, "ERR_CONNECTION_REFUSED"),
      (-103, "ERR_CONNECTION_ABORTED"), (-104, "ERR_CONNECTION_FAILED"),
      (-105, "ERR_NAME_NOT_RESOLVED"), (-106, "ERR_INTERNET_DISCONNECTED"),
      (-107, "ERR_SSL_PROTOCOL_ERROR"), (-108, "ERR_ADDRESS_INVALID"),
      (-109, "ERR_ADDRESS_UNREACHABLE"), (-111, "ERR_TUNNEL_CONNECTION_FAILED"),
      (-118, "ERR_CONNECTION_TIMED_OUT"), (-130, "ERR_PROXY_CONNECTION_FAILED"),
      (-137, "ERR_NAME_RESOLUTION_FAILED"), (-150, "ERR_SSL_PINNED_KEY_NOT_IN_CERT_CHAIN"),
      (-200, "ERR_CERT_COMMON_NAME_INVALID"), (-201, "ERR_CERT_DATE_INVALID"),
      (-202, "ERR_CERT_AUTHORITY_INVALID"), (-206, "ERR_CERT_REVOKED"), (-207, "ERR_CERT_INVALID"),
      (-300, "ERR_INVALID_URL"), (-302, "ERR_UNKNOWN_URL_SCHEME"),
      (-310, "ERR_TOO_MANY_REDIRECTS"), (-320, "ERR_INVALID_RESPONSE"),
      (-324, "ERR_EMPTY_RESPONSE"), (-337, "ERR_HTTP2_PROTOCOL_ERROR"),
      (-356, "ERR_QUIC_PROTOCOL_ERROR"), (-358, "ERR_QUIC_HANDSHAKE_FAILED")]

/-- All enumerations. -/
def enumerations : List Enumeration :=
  [resultCode, httpCacheMode, requestPriority, idempotency, requestStatus, finishedReason,
    errorCode, netError]

/-! ### Network errors -/

/-- Whether a network error is none. -/
def isOk (raw : Int) : Bool := raw == 0

/-- Whether an operation is still going on. -/
def isPending (raw : Int) : Bool := raw == -1

/-- Whether time ran out, in general or while connecting. -/
def isTimeout (raw : Int) : Bool := raw == -7 || raw == -118

/-- A known name in words: without its first part, in lower case, with spaces. -/
def inWords (name : String) : String :=
  let cs := name.toList
  let cs := if "ERR_".toList.isPrefixOf cs then cs.drop 4 else cs
  String.ofList (cs.map fun c => if c = '_' then ' ' else c.toLower)

/-- A network error in words. -/
def netErrorMessage (raw : Int) : String :=
  match netError.name? raw with
  | some name => inWords name
  | none => "network error " ++ toString raw

end LateBinding.Native
