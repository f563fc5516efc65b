import Unseal.Json.Reader

/-!
# Payloads

An event arrives as a JSON value or as the text of one. Sources often nest serialized JSON in
string fields, so what an envelope yields may be text again.
-/

set_option autoImplicit false

namespace Unseal

inductive Payload where
  | value (v : Json)
  | text (t : String)
deriving Repr, Inhabited

namespace Payload

def toJson : Payload → Except Json.Fault Json
  | value v => .ok v
  | text t => Json.read t

def kindName : Payload → String
  | value v => v.kind.name
  | text _ => "text"

end Payload
end Unseal
