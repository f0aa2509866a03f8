/-!
**Functions that the library is given.**

The library knows functions only, not handlers. So for each callback the client has a function of
its own, and it passes pointers to these, or to functions of its caller, or null.

Main definitions:

* `LateBinding.Callback.Trampoline` — the client's own functions;
* `LateBinding.Callback.Target` — what a pointer to a function leads to.
-/

set_option autoImplicit false

namespace LateBinding.Callback

/-- The client's functions for callbacks. -/
inductive Trampoline where
  | execute
  | run
  | bufferRelease
  | status
  | requestFinished
  | redirectReceived
  | responseStarted
  | readCompleted
  | succeeded
  | failed
  | canceled
  | uploadLength
  | uploadRead
  | uploadRewind
  | uploadClose
  | streamReady
  | streamHeaders
  | streamRead
  | streamWrite
  | streamTrailers
  | streamSucceeded
  | streamFailed
  | streamCanceled
deriving DecidableEq, Repr

/-- What a pointer to a function leads to: a function of the client, one of its caller, or
nothing. -/
inductive Target where
  | own (t : Trampoline)
  | caller
  | null
deriving DecidableEq, Repr

end LateBinding.Callback
