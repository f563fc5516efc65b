import Unseal.Schema.Judgement
import Unseal.Schema.Library

/-!
# What a schema needs

A schema is usable when no rule of it, or of a schema it refers to, is broken and every
reference has a target. The first fault in the order of the rules is the one that is named.
-/

set_option autoImplicit false

namespace Unseal.Schema

inductive Need where
  | fault (f : SchemaFault)
  | link (scope : List Uri) (target : Reference)

/-- Where additional members are restricted, the rules on named members are read with the rule
on additional ones, patterns first; references come before all others. -/
def rank : Rule → Nat
  | .link _ _ => 0
  | .patterns _ => 1
  | .additional _ => 2
  | .properties _ => 3
  | _ => 4

def inReadingOrder (rs : List Rule) (needs : List (Nat × List Need)) : List Need :=
  if Rule.isClosed rs then
    (List.range 5).flatMap fun k => (needs.filter fun n => n.1 == k).flatMap (·.2)
  else needs.flatMap (·.2)

mutual
def needs (scope : List Uri) : Schema → List Need
  | .always _ => []
  | .broken f => [.fault f]
  | .rules base rs => inReadingOrder rs (needsOfRules (enter base scope) rs)

def needsOfRules (scope : List Uri) : List Rule → List (Nat × List Need)
  | [] => []
  | r :: rs => (rank r, needsOfRule scope r) :: needsOfRules scope rs

def needsOfRule (scope : List Uri) : Rule → List Need
  | .link _ target => [.link scope target]
  | .contains s _ _ => needs scope s
  | .firstItems ss => needsOfAll scope ss
  | .items _ s => needs scope s
  | .properties ps => needsOfNamed scope ps
  | .patterns ps => needsOfPatterns scope ps
  | .additional s => needs scope s
  | .names s => needs scope s
  | .dependentSchemas ds => needsOfNamed scope ds
  | .dependencies ds => needsOfDependencies scope ds
  | .allOf ss => needsOfAll scope ss
  | .anyOf ss => needsOfAll scope ss
  | .oneOf ss => needsOfAll scope ss
  | .negation _ s => needs scope s
  | .conditional test positive negative =>
    needs scope test ++ needsOfOption scope positive ++ needsOfOption scope negative
  | .unevaluatedItems s => needs scope s
  | .unevaluatedProperties s => needs scope s
  | .broken f => [.fault f]
  | _ => []

def needsOfAll (scope : List Uri) : List Schema → List Need
  | [] => []
  | s :: ss => needs scope s ++ needsOfAll scope ss

def needsOfNamed (scope : List Uri) : List (String × Schema) → List Need
  | [] => []
  | (_, s) :: ps => needs scope s ++ needsOfNamed scope ps

def needsOfDependencies (scope : List Uri) : List (String × List String × Schema) → List Need
  | [] => []
  | (_, _, s) :: ds => needs scope s ++ needsOfDependencies scope ds

def needsOfPatterns (scope : List Uri) : List (Pattern × Schema) → List Need
  | [] => []
  | (_, s) :: ps => needs scope s ++ needsOfPatterns scope ps

def needsOfOption (scope : List Uri) : Option Schema → List Need
  | none => []
  | some s => needs scope s
end

/-- The first fault among needs, those of referred schemas in the place of the reference. Each
reference is followed once. -/
def faultAmong (lib : Library) : Nat → List Reference → List Need → Option SchemaFault
  | 0, _, _ => none
  | _ + 1, _, [] => none
  | _ + 1, _, .fault f :: _ => some f
  | n + 1, visited, .link scope target :: rest =>
    if visited.contains target then faultAmong lib n visited rest
    else
      match lib.lookup scope target with
      | .error f => some f
      | .ok s => faultAmong lib n (target :: visited) (needs scope s ++ rest)

/-- The first fault of a schema. There are no more references than values in the library, and
none has more needs than that. -/
def fault? (lib : Library) (s : Schema) : Option SchemaFault :=
  faultAmong lib ((lib.size + 2) * (lib.size + 2) * (lib.size + 2)) [] (needs [] s)

end Unseal.Schema
