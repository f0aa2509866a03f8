import LateBinding.Json.Parser
import LateBinding.Json.Printer
import LateBinding.Text.Blank

/-!
**Editing a text of experimental options.**

An engine takes its experimental options as the text of one JSON object. An edit sets or removes
one key of it and leaves the others alone. A blank text is the empty object; any other text must
read as an object.

Main definitions:

* `LateBinding.Options.Error` — why a text cannot be edited;
* `LateBinding.Options.read` — the object that a text writes;
* `LateBinding.Options.edit` — the text with one key set or removed;
* `LateBinding.Options.Feature` — the options that have an operation of their own.
-/

set_option autoImplicit false

namespace LateBinding.Options

/-- Why a text cannot be edited: it is no JSON, or JSON of another kind than an object. -/
inductive Error where
  | malformed
  | notAnObject (kind : String)
deriving DecidableEq, Repr

/-- The wording of an error; that of a malformed text is not fixed. -/
def Error.message : Error → String
  | .malformed => "experimental options are not valid JSON"
  | .notAnObject kind => "experimental options must be a JSON object, found " ++ kind

/-- The members of the object that a text writes. -/
def read (current : String) : Except Error Json.Members :=
  match Text.trimBlank current.toList with
  | [] => .ok []
  | c :: s =>
    match Json.parseChars? (c :: s) with
    | none => .error .malformed
    | some (.object members) => .ok members
    | some other => .error (.notAnObject other.kind)

/-- One edit of an object: a value sets the key, none removes it. -/
def apply (key : String) (value : Option Json) (members : Json.Members) : Json.Members :=
  match value with
  | some v => members.put key v
  | none => members.remove key

/-- The text of options with one key set or removed. -/
def edit (current key : String) (value : Option Json) : Except Error String := do
  let members ← read current
  return (Json.object (apply key value members)).render

/-- The options that have an operation of their own. -/
inductive Feature where
  | asyncDns (enable : Bool)
  | dnsServerOverride (servers : List String)
  | hostResolverRules (rules : String)
  | httpsRecords (enable : Bool)
deriving DecidableEq, Repr

/-- The key of a feature. -/
def Feature.key : Feature → String
  | .asyncDns _ => "AsyncDNS"
  | .dnsServerOverride _ => "DnsServerOverride"
  | .hostResolverRules _ => "HostResolverRules"
  | .httpsRecords _ => "UseDnsHttpsSvcb"

/-- The value of a feature; where its setting is the default there is none, and the key is
removed. -/
def Feature.value : Feature → Option Json
  | .asyncDns true => some (.object [("enable", .bool true)])
  | .asyncDns false => none
  | .dnsServerOverride [] => none
  | .dnsServerOverride servers =>
    some (.object [("nameservers", .array (servers.map .string))])
  | .hostResolverRules rules =>
    if rules = "" then none else some (.object [("host_resolver_rules", .string rules)])
  | .httpsRecords enable => some (.object [("enable", .bool enable)])

end LateBinding.Options
