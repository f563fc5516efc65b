import Unseal.Binary64.Shortest
import Unseal.Error
import Unseal.Json.Pointer
import Unseal.Schema.Judgement

/-!
# Reporting violations

Every rule that a value breaks is reported with the place in the value and the place of the
rule. A rule about the whole value reports itself; a rule about its parts reports what it finds
there. A rule on how many parts or schemas match looks no further than its report needs, and a rule
on the parts that nothing has looked at lists them all.
-/

set_option autoImplicit false

namespace Unseal

/-- A place in a value and the place of a rule, as tokens from the innermost outwards. -/
structure Site where
  instancePath : List String
  rulePath : List String
deriving DecidableEq, Repr

namespace Site

def root : Site := ⟨[], []⟩

def rule (site : Site) (token : String) : Site := { site with rulePath := token :: site.rulePath }

def inside (site : Site) (token : String) : Site :=
  { site with instancePath := token :: site.instancePath }

def pathText (tokens : List String) : String :=
  String.ofList (Json.Pointer.ofTokens tokens.reverse)

def violation (site : Site) (message : String) : Violation :=
  ⟨pathText site.instancePath, pathText site.rulePath, message⟩

def refusal (site : Site) (v : Json) : Violation :=
  site.violation ("False schema does not allow " ++ v.compact)

end Site

def unexpectedList (texts : List String) : String :=
  " (" ++ String.intercalate ", " (texts.map fun t => "'" ++ t ++ "'") ++
    (if texts.length = 1 then " was" else " were") ++ " unexpected)"

/-- The number of items that match, counted no further than to a limit. -/
def countTo (p : Json → Bool) : Nat → List Json → Nat
  | 0, _ => 0
  | _ + 1, [] => 0
  | n + 1, v :: vs => if p v then countTo p n vs + 1 else countTo p (n + 1) vs

/-- The keyword that too few or too many matching items break. They are counted as far as it takes
to tell. -/
def containsFault? (p : Json → Bool) (least most : Option Nat) (vs : List Json) : Option String :=
  match least, most with
  | none, none => if vs.any p then none else some "contains"
  | some least, none => if countTo p least vs < least then some "minContains" else none
  | none, some most =>
    let n := countTo p (most + 1) vs
    if most < n ∨ n = 0 then some "maxContains" else none
  | some least, some most =>
    let n := countTo p (most + 1) vs
    if most < n then some "maxContains" else if n < least then some "minContains" else none

namespace Judgement

def complaint (r : Rule) (v : Json) : String × String :=
  let shown := v.compact
  match r with
  | .types ts => ("type", shown ++ typeNames ts)
  | .constant c => ("const", c.compact ++ " was expected")
  | .enumeration vs => ("enum", shown ++ " is not one of " ++ (Json.arr vs).compact)
  | .bound b limit => (b.keyword, shown ++ b.complaint ++ (Json.num limit).compact)
  | .multiple divisor =>
    ("multipleOf", shown ++ " is not a multiple of " ++
      String.ofList divisor.toBinary64.positional)
  | .count measure most n =>
    (measure.keyword most, shown ++ measure.complaint most ++ toString n ++ measure.unit n)
  | .pattern p => ("pattern", shown ++ " does not match \"" ++ p.source ++ "\"")
  | .unique => ("uniqueItems", shown ++ " has non-unique elements")
  | .anyOf _ =>
    ("anyOf", shown ++ " is not valid under any of the schemas listed in the 'anyOf' keyword")
  | .negation source _ => ("not", source.compact ++ " is not allowed for " ++ shown)
  | _ => ("", "")

variable (j : Judgement) (links : Links) (scope : List Uri)

def unseenMembers (rs : List Rule) (ms : Members Json) : List (String × Json) :=
  ms.filter fun m => !j.nodeSees links scope rs (.obj ms) (.member m.1 m.2)

def unseenItems (rs : List Rule) (vs : List Json) : List Json :=
  (vs.zipIdx.filter fun x => !j.nodeSees links scope rs (.arr vs) (.item x.2 x.1)).map (·.1)

abbrev Reporter := Site → List Uri → Schema → Json → List Violation

variable (report : Reporter)

def namedReport (rs : List Rule) (site : Site) (key : String) (x : Json) : List Violation :=
  let here := site.inside key
  ((Rule.named rs key).flatMap fun s =>
    report ((here.rule "properties").rule key) scope s x) ++
  (Rule.matching rs key).flatMap fun p =>
    report ((here.rule "patternProperties").rule p.1.source) scope p.2 x

/-- The report on all members where additional ones have to pass `s`. Where they are forbidden
and nothing is named, only the first is reported. -/
def closedReport (rs : List Rule) (s : Schema) (site : Site) (ms : Members Json) :
    List Violation :=
  match s with
  | .always _ =>
    if Rule.namesMembers rs then
      let extra := ms.filter fun m => Rule.leaves rs m.1
      (ms.flatMap fun m => namedReport scope report rs site m.1 m.2) ++
        if extra.isEmpty then []
        else [(site.rule "additionalProperties").violation
          ("Additional properties are not allowed" ++ unexpectedList (extra.map (·.1)))]
    else (ms.take 1).map fun m => (site.rule "additionalProperties").refusal m.2
  | s =>
    ms.flatMap fun m =>
      namedReport scope report rs site m.1 m.2 ++
        if Rule.leaves rs m.1 then
          report ((site.inside m.1).rule "additionalProperties") scope s m.2
        else []

def missing (site : Site) (keyword key : String) : Violation :=
  (site.rule keyword).violation ((Json.str key).compact ++ " is a required property")

def indexedReport (site : Site) (ss : List Schema) (v : Json) : List Violation :=
  ss.zipIdx.flatMap fun s => report (site.rule (toString s.2)) scope s.1 v

def ruleReport (rs : List Rule) (site : Site) (r : Rule) (v : Json) : List Violation :=
  match r, v with
  | .link keyword target, v => report (site.rule keyword) scope (links scope target) v
  | .contains s least most, .arr vs =>
    match containsFault? (j.passes scope s) least most vs with
    | none => []
    | some keyword =>
      [(site.rule keyword).violation
        ("None of " ++ v.compact ++ " are valid under the given schema")]
  | .firstItems ss, .arr vs =>
    (ss.zip vs).zipIdx.flatMap fun p =>
      let index := toString p.2
      report (((site.inside index).rule "prefixItems").rule index) scope p.1.1 p.1.2
  | .items skip s, .arr vs =>
    ((vs.drop skip).zipIdx skip).flatMap fun x =>
      report ((site.inside (toString x.2)).rule "items") scope s x.1
  | .properties ps, .obj ms =>
    if Rule.isClosed rs then []
    else ps.flatMap fun p => ms.flatMap fun m =>
      if m.1 = p.1 then report (((site.inside p.1).rule "properties").rule p.1) scope p.2 m.2
      else []
  | .patterns ps, .obj ms =>
    if Rule.isClosed rs then []
    else ps.flatMap fun p => ms.flatMap fun m =>
      if p.1.matches m.1 then
        report (((site.inside m.1).rule "patternProperties").rule p.1.source) scope p.2 m.2
      else []
  | .additional s, .obj ms =>
    if s.restricts then closedReport scope report rs s site ms else []
  | .names s, .obj ms =>
    match s with
    | .always false => if ms.isEmpty then [] else [(site.rule "propertyNames").refusal v]
    | s => ms.flatMap fun m => report (site.rule "propertyNames") scope s (.str m.1)
  | .required keys, .obj ms =>
    (keys.filter fun k => !Members.contains k ms).map (missing site "required")
  | .dependentRequired ds, .obj ms =>
    ds.flatMap fun d =>
      if Members.contains d.1 ms then
        (d.2.filter fun k => !Members.contains k ms).map (missing site "dependentRequired")
      else []
  | .dependentSchemas ds, .obj ms =>
    ds.flatMap fun d =>
      if Members.contains d.1 ms then
        report ((site.rule "dependentSchemas").rule d.1) scope d.2 v
      else []
  | .dependencies ds, .obj ms =>
    ds.flatMap fun d =>
      if Members.contains d.1 ms then
        (d.2.1.filter fun k => !Members.contains k ms).map (missing site "dependencies") ++
          report ((site.rule "dependencies").rule d.1) scope d.2.2 v
      else []
  | .allOf ss, v => indexedReport scope report (site.rule "allOf") ss v
  | .oneOf ss, v =>
    let breach (number : String) : List Violation := [(site.rule "oneOf").violation
      (v.compact ++ " is " ++ number ++ " of the schemas listed in the 'oneOf' keyword")]
    match ss.dropWhile fun s => !j.passes scope s v with
    | [] => breach "not valid under any"
    | _ :: others =>
      if others.any fun s => j.passes scope s v then breach "valid under more than one" else []
  | .conditional test positive negative, v =>
    if j.passes scope test v then
      positive.toList.flatMap fun s => report (site.rule "then") scope s v
    else negative.toList.flatMap fun s => report (site.rule "else") scope s v
  | .unevaluatedItems _, .arr vs =>
    match j.unseenItems links scope rs vs with
    | [] => []
    | unseen => [(site.rule "unevaluatedItems").violation
        ("Unevaluated items are not allowed" ++ unexpectedList (unseen.map Json.compact))]
  | .unevaluatedProperties _, .obj ms =>
    match j.unseenMembers links scope rs ms with
    | [] => []
    | unseen => [(site.rule "unevaluatedProperties").violation
        ("Unevaluated properties are not allowed" ++ unexpectedList (unseen.map (·.1)))]
  | r, v =>
    if j.rulePasses links scope rs r v then []
    else
      let (keyword, message) := complaint r v
      [(site.rule keyword).violation message]

end Judgement

namespace Schema

def report (links : Links) : Nat → Judgement.Reporter
  | 0 => fun site _ s v =>
    match s with
    | .always false => [site.refusal v]
    | _ => []
  | n + 1 => fun site scope s v =>
    match s with
    | .always true => []
    | .always false => [site.refusal v]
    | .broken _ => []
    | .rules base rs =>
      rs.flatMap fun r =>
        (Judgement.ofDepth links n).ruleReport links (enter base scope) (report links n) rs site r v

end Schema
end Unseal
