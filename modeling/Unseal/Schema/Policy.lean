import Unseal.Json.Basic
import Unseal.Text.Blank

/-!
# Unknown members

What a schema model does with top-level members that its schema does not name. Only the root
of the schema document is rewritten.
-/

set_option autoImplicit false

namespace Unseal

inductive UnknownFields where
  | inherit | allow | deny
deriving DecidableEq, Repr, Inhabited

namespace UnknownFields

def name : UnknownFields → String
  | inherit => "inherit"
  | allow => "allow"
  | deny => "deny"

def label : UnknownFields → String
  | inherit => "Inherit"
  | allow => "Allow"
  | deny => "Deny"

def ofName (text : String) : Except String UnknownFields :=
  let name := Text.lower text
  if name = "inherit" then .ok inherit
  else if name = "allow" then .ok allow
  else if name = "deny" then .ok deny
  else .error ("unknown fields policy must be one of inherit, allow, deny; got '" ++ name ++ "'")

/-- The root under the policy. To deny, a root that lets additional members pass, or constrains
them, loses that rule, since a member it evaluates would no longer count as unknown. -/
def applyTo (policy : UnknownFields) (root : Members Json) : Members Json :=
  match policy with
  | inherit => root
  | allow => (root.insert "additionalProperties" (.bool true)).insert "unevaluatedProperties"
      (.bool true)
  | deny =>
    let root := match root.find? "additionalProperties" with
      | some (.bool false) => root
      | _ => root.erase "additionalProperties"
    root.insert "unevaluatedProperties" (.bool false)

def apply (policy : UnknownFields) : Json → Json
  | .obj root => .obj (policy.applyTo root)
  | v => v

end UnknownFields
end Unseal
