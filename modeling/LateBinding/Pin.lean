import LateBinding.Bytes.Hex
import LateBinding.Pin.Certificate
import LateBinding.Pin.Pem
import LateBinding.Text.Quoted

/-!
**Public-key pins.**

A pin names a public key by the SHA-256 digest of its information in a certificate. It is written as
`sha256/` and the base64 of the digest, in exactly one way.

Main definitions:

* `LateBinding.Pin.Error`;
* `LateBinding.Pin.render`, `LateBinding.Pin.parse` — a digest as a pin and back;
* `LateBinding.Pin.ofDer` — the digest for one certificate;
* `LateBinding.Pin.ofPem` — the digests for all certificates of an armoured text, or an error.
-/

set_option autoImplicit false

namespace LateBinding.Pin

/-- Why there is no digest. -/
inductive Error where
  | pem
  | certificate
  | noCertificates
  | invalidPin (pin : String)
deriving DecidableEq, Repr

/-- The wording of an error; that of the first two goes on with what is wrong, which is not
fixed. -/
def Error.message : Error → String
  | .pem => "Invalid PEM:"
  | .certificate => "Invalid certificate:"
  | .noCertificates => "No certificates found in PEM"
  | .invalidPin pin =>
    "Invalid pin " ++ Text.quote pin ++ ": expected sha256/<base64 of 32 bytes>"

/-- How every pin starts. -/
def scheme : List Char := "sha256/".toList

/-- The number of bytes of a digest. -/
def digestSize : Nat := 32

/-- The pin of a digest. -/
def render (digest : List UInt8) : String :=
  String.ofList (scheme ++ Base64.encode digest)

/-- The digest that a text pins. -/
def digest? (pin : String) : Option (List UInt8) :=
  let cs := pin.toList
  if scheme.isPrefixOf cs then
    match Base64.decode? (cs.drop scheme.length) with
    | some bs => if bs.length = digestSize then some bs else none
    | none => none
  else none

/-- The digest that a text pins, or an error that carries the whole text. -/
def parse (pin : String) : Except Error (List UInt8) :=
  match digest? pin with
  | some digest => .ok digest
  | none => .error (.invalidPin pin)

/-- The digest for a certificate. -/
def ofDer (certificate : List UInt8) : Except Error (List UInt8) :=
  match Certificate.keyHash? certificate with
  | some digest => .ok digest
  | none => .error .certificate

/-- The digests for the certificates of an armoured text, in order. Nothing is computed before the
whole text has been read. -/
def ofPem (pem : String) : Except Error (List (List UInt8)) :=
  match Pem.certificates? pem.toList with
  | none => .error .pem
  | some [] => .error .noCertificates
  | some certificates => certificates.mapM ofDer

end LateBinding.Pin
