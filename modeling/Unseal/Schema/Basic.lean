import Unseal.Json.Writer
import Unseal.Schema.Regex.Reader
import Unseal.Schema.Uri

/-!
# Schemas

A schema is a verdict, or a list of rules, each from one keyword of the document and in the
order of the keywords. References to other schemas are kept as references, so a schema is a
finite tree even where it is recursive.
-/

set_option autoImplicit false

namespace Unseal

inductive SimpleType where
  | array | boolean | integer | null | number | object | string
deriving DecidableEq, Repr

namespace SimpleType

def all : List SimpleType := [array, boolean, integer, null, number, object, string]

def name : SimpleType → String
  | array => "array"
  | boolean => "boolean"
  | integer => "integer"
  | null => "null"
  | number => "number"
  | object => "object"
  | string => "string"

def ofName? (name : String) : Option SimpleType := all.find? fun t => t.name == name

/-- A float without a fractional part is an integer too. -/
def holds : SimpleType → Json → Bool
  | array, .arr _ => true
  | boolean, .bool _ => true
  | integer, .num n => n.isIntegral
  | null, .null => true
  | number, .num _ => true
  | object, .obj _ => true
  | string, .str _ => true
  | _, _ => false

end SimpleType

inductive Bound where
  | maximum | minimum | exclusiveMaximum | exclusiveMinimum
deriving DecidableEq, Repr

namespace Bound

def keyword : Bound → String
  | maximum => "maximum"
  | minimum => "minimum"
  | exclusiveMaximum => "exclusiveMaximum"
  | exclusiveMinimum => "exclusiveMinimum"

/-- Numbers are compared exactly. -/
def holds (b : Bound) (limit x : Number) : Bool :=
  match b with
  | maximum => decide (x.units ≤ limit.units)
  | minimum => decide (limit.units ≤ x.units)
  | exclusiveMaximum => decide (x.units < limit.units)
  | exclusiveMinimum => decide (limit.units < x.units)

def complaint : Bound → String
  | maximum => " is greater than the maximum of "
  | minimum => " is less than the minimum of "
  | exclusiveMaximum => " is greater than or equal to the maximum of "
  | exclusiveMinimum => " is less than or equal to the minimum of "

end Bound

inductive Measure where
  | characters | items | members
deriving DecidableEq, Repr

namespace Measure

def count? : Measure → Json → Option Nat
  | characters, .str s => some s.length
  | items, .arr vs => some vs.length
  | members, .obj ms => some ms.length
  | _, _ => none

def keyword : Measure → Bool → String
  | characters, true => "maxLength"
  | characters, false => "minLength"
  | items, true => "maxItems"
  | items, false => "minItems"
  | members, true => "maxProperties"
  | members, false => "minProperties"

def unit : Measure → Nat → String
  | characters, 1 => " character"
  | characters, _ => " characters"
  | items, 1 => " item"
  | items, _ => " items"
  | members, 1 => " property"
  | members, _ => " properties"

def complaint : Measure → Bool → String
  | characters, true => " is longer than "
  | characters, false => " is shorter than "
  | _, true => " has more than "
  | _, false => " has less than "

end Measure

structure Pattern where
  source : String
  regex : Regex
deriving DecidableEq, Repr

def Pattern.matches (p : Pattern) (text : String) : Bool := p.regex.isMatch text

/-- The place that a reference names: a document and what follows the number sign. -/
structure Reference where
  document : Uri
  fragment : String
deriving DecidableEq, Repr

inductive SchemaFault where
  | dangling (d : Uri.Dangling)
  | unavailable (uri reason : String)
  | noAnchor (name : String)
  | badAnchor (name : String)
  | noPointer (pointer : String)
  | badIndex (pointer index : String)
  | wrongType (found : Json) (wanted : List SimpleType)
  | notRegex (found : Json)
  | refused (message : String)
deriving Repr

def typeNames (ts : List SimpleType) : String :=
  match ts with
  | [t] => " is not of type \"" ++ t.name ++ "\""
  | ts => " is not of types " ++ String.intercalate ", " (ts.map fun t => "\"" ++ t.name ++ "\"")

namespace SchemaFault

def message : SchemaFault → String
  | dangling d => d.message
  | unavailable uri reason =>
    "Resource '" ++ uri ++ "' is not present in a registry and retrieving it failed: " ++ reason
  | noAnchor name => "Anchor '" ++ name ++ "' does not exist"
  | badAnchor name => "Anchor '" ++ name ++ "' is invalid"
  | noPointer pointer => "Pointer '" ++ pointer ++ "' does not exist"
  | badIndex pointer index =>
    "Failed to parse array index '" ++ index ++ "' in pointer '" ++ pointer ++ "'"
  | wrongType found wanted => found.compact ++ typeNames wanted
  | notRegex found => found.compact ++ " is not a \"regex\""
  | refused message => message

end SchemaFault

mutual
inductive Schema where
  | always (verdict : Bool)
  /-- The rules of one document node, under the base that its references have. -/
  | rules (base : Uri) (rs : List Rule)
  | broken (fault : SchemaFault)

inductive Rule where
  | link (keyword : String) (target : Reference)
  | types (ts : List SimpleType)
  | constant (v : Json)
  | enumeration (vs : List Json)
  | bound (b : Bound) (limit : Number)
  | multiple (divisor : Number)
  /-- At most `n`, or at least `n`. -/
  | count (measure : Measure) (most : Bool) (n : Nat)
  | pattern (p : Pattern)
  | unique
  | contains (s : Schema) (least most : Option Nat)
  | firstItems (ss : List Schema)
  /-- All items but the first `skip`. -/
  | items (skip : Nat) (s : Schema)
  | properties (ps : List (String × Schema))
  | patterns (ps : List (Pattern × Schema))
  | additional (s : Schema)
  | names (s : Schema)
  | required (keys : List String)
  | dependentRequired (ds : List (String × List String))
  | dependentSchemas (ds : List (String × Schema))
  /-- What a key brings with it: further keys, and a schema. -/
  | dependencies (ds : List (String × List String × Schema))
  | allOf (ss : List Schema)
  | anyOf (ss : List Schema)
  | oneOf (ss : List Schema)
  | negation (source : Json) (s : Schema)
  | conditional (test : Schema) (positive negative : Option Schema)
  | unevaluatedItems (s : Schema)
  | unevaluatedProperties (s : Schema)
  | broken (fault : SchemaFault)
end

instance : Inhabited Schema := ⟨.always true⟩

namespace Schema

/-- A schema with rules, as opposed to a bare verdict. -/
def isNode : Schema → Bool
  | .rules _ _ => true
  | _ => false

/-- A schema that can refuse a value. -/
def restricts : Schema → Bool
  | .always false => true
  | .rules _ _ => true
  | _ => false

def withKey (key : String) (ps : List (String × Schema)) : List Schema :=
  ps.filterMap fun p => if p.1 = key then some p.2 else none

end Schema

namespace Rule

/-! ## What the rules of one node say about a key -/

def named (rs : List Rule) (key : String) : List Schema :=
  rs.flatMap fun
    | .properties ps => Schema.withKey key ps
    | _ => []

def matching (rs : List Rule) (key : String) : List (Pattern × Schema) :=
  rs.flatMap fun
    | .patterns ps => ps.filter fun p => p.1.matches key
    | _ => []

/-- A key with neither a schema of its own nor a pattern. -/
def leaves (rs : List Rule) (key : String) : Bool :=
  (named rs key).isEmpty && (matching rs key).isEmpty

def isClosed (rs : List Rule) : Bool :=
  rs.any fun
    | .additional s => s.restricts
    | _ => false

def namesMembers (rs : List Rule) : Bool :=
  rs.any fun
    | .properties _ => true
    | .patterns _ => true
    | _ => false

end Rule

end Unseal
