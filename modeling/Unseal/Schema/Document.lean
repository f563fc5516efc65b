import Unseal.Schema.Basic
import Unseal.Json.Pointer

/-!
# Schemas in documents

The rules of a document node come from its keywords in key order. A keyword that no rule
comes from is an annotation. Where a value is not what its keyword needs, the rule is broken,
which is found when a schema that contains it is put to use.
-/

set_option autoImplicit false

namespace Unseal.Schema

inductive Content where
  | one | many | named | other
deriving DecidableEq, Repr

def contentOf (keyword : String) : Content :=
  if ["additionalProperties", "contains", "else", "if", "items", "not", "propertyNames", "then",
    "unevaluatedItems", "unevaluatedProperties"].contains keyword then .one
  else if ["allOf", "anyOf", "oneOf", "prefixItems"].contains keyword then .many
  else if ["dependentSchemas", "patternProperties", "properties"].contains keyword then .named
  else .other

def formOf (keyword : String) : Content :=
  if keyword = "dependencies" then .named else contentOf keyword

inductive Part where
  | one (s : Schema)
  | many (ss : List Schema)
  | named (ss : List (String × Schema))
  | other

/-- The base of a node and all in it: an identifier of its own changes it. -/
def baseOf (base : Uri) (ms : Members Json) : Except Uri.Dangling Uri :=
  match ms.find? "$id" with
  | some (.str id) => base.resolve (trimHash id)
  | _ => .ok base
where
  /-- Number signs at the end mean nothing. -/
  trimHash (id : String) : String :=
    String.ofList (id.toList.reverse.dropWhile (· == '#')).reverse

/-- A count that a keyword gives; a float without a fractional part will do. -/
def countOf : Json → Except SchemaFault Nat
  | .num (.int n) =>
    if 0 ≤ n then .ok n.toNat
    else .error (.refused ((Json.num (.int n)).compact ++ " is less than the minimum of 0"))
  | .num (.float x) =>
    if x.isIntegral && !x.negative then .ok (x.magnitude / Binary64.unit)
    else .error (.wrongType (.num (.float x)) [.integer])
  | v => .error (.wrongType v [.integer])

def stringsOf : List Json → Except SchemaFault (List String)
  | [] => .ok []
  | .str s :: vs => (stringsOf vs).map (s :: ·)
  | v :: _ => .error (.wrongType v [.string])

def typesOf : Json → Except SchemaFault (List SimpleType)
  | .str name =>
    match SimpleType.ofName? name with
    | some t => .ok [t]
    | none => .error (.refused "Unexpected type")
  | .arr vs => do
    let names ← stringsOf vs
    let ts ← names.mapM fun name =>
      match SimpleType.ofName? name with
      | some t => .ok t
      | none => .error (.refused "Unexpected type")
    .ok (SimpleType.all.filter ts.contains)
  | v => .error (.wrongType v [.string, .array])

def patternOf (source : String) (found : Json) : Except SchemaFault Pattern :=
  match Regex.read? source with
  | some r => .ok ⟨source, r⟩
  | none => .error (.notRegex found)

def referenceOf (base : Uri) (text : String) : Except SchemaFault Reference :=
  match text.toList with
  | '#' :: fragment => .ok ⟨base, String.ofList fragment⟩
  | cs =>
    let back := cs.reverse.takeWhile (· != '#')
    let (document, fragment) :=
      if back.length = cs.length then (cs, [])
      else (cs.take (cs.length - back.length - 1), back.reverse)
    match base.resolve (String.ofList document) with
    | .ok uri => .ok ⟨uri, String.ofList fragment⟩
    | .error d => .error (.dangling d)

def ruleOrBroken : Except SchemaFault Rule → Rule
  | .ok r => r
  | .error f => .broken f

def withNumber (v : Json) (f : Number → Rule) : Rule :=
  match v with
  | .num n => f n
  | v => .broken (.wrongType v [.number])

def withArray (v : Json) (f : List Json → Except SchemaFault Rule) : Rule :=
  match v with
  | .arr vs => ruleOrBroken (f vs)
  | v => .broken (.wrongType v [.array])

def containsLimit (keyword : String) (ms : Members Json) : Except SchemaFault (Option Nat) :=
  match ms.find? keyword with
  | some v => (countOf v).map some
  | none => .ok none

def dependentRequiredOf : List (String × Json) → Except SchemaFault (List (String × List String))
  | [] => .ok []
  | (k, .arr vs) :: rest => do
    let keys ← stringsOf vs
    let more ← dependentRequiredOf rest
    .ok ((k, keys) :: more)
  | (_, v) :: _ => .error (.wrongType v [.array])

/-- Dependencies from their values, and the schemas read from those that are no lists. -/
def dependenciesOf (ms : Members Json) :
    List (String × Schema) → Except SchemaFault (List (String × List String × Schema))
  | [] => .ok []
  | (k, s) :: rest => do
    let more ← dependenciesOf ms rest
    match ms.find? k with
    | some (.arr vs) =>
      let keys ← stringsOf vs
      .ok ((k, keys, .always true) :: more)
    | _ => .ok ((k, [], s) :: more)

def patternsOf (ms : Members Json) :
    List (String × Schema) → Except SchemaFault (List (Pattern × Schema))
  | [] => .ok []
  | (source, s) :: rest => do
    let p ← patternOf source ((ms.find? source).getD .null)
    let ps ← patternsOf ms rest
    .ok ((p, s) :: ps)

def partOne (parts : List (String × Part)) (keyword : String) : Option Schema :=
  match parts.lookup keyword with
  | some (.one s) => some s
  | _ => none

def firstItemCount (ms : Members Json) : Nat :=
  match ms.find? "prefixItems" with
  | some (.arr vs) => vs.length
  | _ => 0

def ruleOfOne (ms : Members Json) (parts : List (String × Part)) (keyword : String) (v : Json)
    (s : Schema) : Option Rule :=
  match keyword with
  | "additionalProperties" => some (.additional s)
  | "contains" => some <| ruleOrBroken do
    let least ← containsLimit "minContains" ms
    let most ← containsLimit "maxContains" ms
    .ok (.contains s least most)
  | "items" => some (.items (firstItemCount ms) s)
  | "not" => some (.negation v s)
  | "if" => some (.conditional s (partOne parts "then") (partOne parts "else"))
  | "propertyNames" => some (.names s)
  | "unevaluatedItems" => some (.unevaluatedItems s)
  | "unevaluatedProperties" => some (.unevaluatedProperties s)
  | _ => none

def ruleOfMany (keyword : String) (ss : List Schema) : Option Rule :=
  match keyword with
  | "allOf" => some (.allOf ss)
  | "anyOf" => some (.anyOf ss)
  | "oneOf" => some (.oneOf ss)
  | "prefixItems" => some (.firstItems ss)
  | _ => none

def ruleOfNamed (keyword : String) (v : Json) (ss : List (String × Schema)) : Option Rule :=
  match keyword, v with
  | "dependentSchemas", _ => some (.dependentSchemas ss)
  | "properties", _ => some (.properties ss)
  | "patternProperties", .obj ms => some (ruleOrBroken ((patternsOf ms ss).map .patterns))
  | "dependencies", .obj ms => some (ruleOrBroken ((dependenciesOf ms ss).map .dependencies))
  | _, _ => none

def ruleOfValue (base : Uri) (keyword : String) (v : Json) : Option Rule :=
  let count (m : Measure) (most : Bool) := some (ruleOrBroken ((countOf v).map (.count m most)))
  match keyword with
  | "$ref" => some (link keyword)
  | "$dynamicRef" => some (link keyword)
  | "const" => some (.constant v)
  | "dependentRequired" => some <|
    match v with
    | .obj ms => ruleOrBroken ((dependentRequiredOf ms).map .dependentRequired)
    | v => .broken (.wrongType v [.object])
  | "enum" => some (withArray v fun vs => .ok (.enumeration vs))
  | "exclusiveMaximum" => some (withNumber v (.bound .exclusiveMaximum))
  | "exclusiveMinimum" => some (withNumber v (.bound .exclusiveMinimum))
  | "maximum" => some (withNumber v (.bound .maximum))
  | "minimum" => some (withNumber v (.bound .minimum))
  | "multipleOf" => some (withNumber v .multiple)
  | "maxItems" => count .items true
  | "maxLength" => count .characters true
  | "maxProperties" => count .members true
  | "minItems" => count .items false
  | "minLength" => count .characters false
  | "minProperties" => count .members false
  | "pattern" => some <|
    match v with
    | .str source => ruleOrBroken ((patternOf source v).map .pattern)
    | v => .broken (.wrongType v [.string])
  | "required" => some (withArray v fun vs => (stringsOf vs).map .required)
  | "type" => some (ruleOrBroken ((typesOf v).map .types))
  | "uniqueItems" =>
    match v with
    | .bool true => some .unique
    | _ => none
  | _ => none
where
  link (keyword : String) : Rule :=
    match v with
    | .str text => ruleOrBroken ((referenceOf base text).map (.link keyword))
    | v => .broken (.wrongType v [.string])

/-- The rule of a keyword that should hold schemas and does not. -/
def ruleOfOther (keyword : String) (v : Json) : Option Rule :=
  match formOf keyword with
  | .many => some (.broken (.wrongType v [.array]))
  | .named => some (.broken (.wrongType v [.object]))
  | _ => none

def assemble (base : Uri) (ms : Members Json) (parts : List (String × Part)) : List Rule :=
  ms.filterMap fun (keyword, v) =>
    match parts.lookup keyword with
    | some (.one s) => ruleOfOne ms parts keyword v s
    | some (.many ss) => ruleOfMany keyword ss
    | some (.named ss) => ruleOfNamed keyword v ss
    | _ => (ruleOfValue base keyword v).or (ruleOfOther keyword v)

mutual
def ofJson (base : Uri) : Json → Schema
  | .bool b => .always b
  | .obj ms =>
    match baseOf base ms with
    | .ok base => .rules base (assemble base ms (partsOf base ms))
    | .error d => .broken (.dangling d)
  | .null => .broken (.wrongType .null [.boolean, .object])
  | .num n => .broken (.wrongType (.num n) [.boolean, .object])
  | .str s => .broken (.wrongType (.str s) [.boolean, .object])
  | .arr vs => .broken (.wrongType (.arr vs) [.boolean, .object])

def partsOf (base : Uri) : List (String × Json) → List (String × Part)
  | [] => []
  | (keyword, v) :: rest =>
    (keyword,
      match formOf keyword with
      | .one => .one (ofJson base v)
      | .many =>
        match v with
        | .arr vs => .many (listOf base vs)
        | _ => .other
      | .named =>
        match v with
        | .obj ms => .named (membersOf base ms)
        | _ => .other
      | .other => .other) :: partsOf base rest

def listOf (base : Uri) : List Json → List Schema
  | [] => []
  | v :: vs => ofJson base v :: listOf base vs

def membersOf (base : Uri) : List (String × Json) → List (String × Schema)
  | [] => []
  | (k, v) :: rest => (k, ofJson base v) :: membersOf base rest
end

end Unseal.Schema
