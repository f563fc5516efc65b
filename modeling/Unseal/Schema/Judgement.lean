import Unseal.Schema.Basic
import Unseal.Schema.Equality

/-!
# Judging values

Whether a value passes a schema, and which parts of it the schema has looked at, so that a rule
on what is left can find the rest. A judgement of depth `n` follows at most `n` schemas into
each other; at the end of its depth it lets everything pass but what a bare verdict refuses.
-/

set_option autoImplicit false

namespace Unseal

abbrev Links := List Uri → Reference → Schema

inductive Spot where
  | member (key : String) (value : Json)
  | item (index : Nat) (value : Json)

structure Judgement where
  passes : List Uri → Schema → Json → Bool
  sees : List Uri → Schema → Json → Spot → Bool

/-- A node in another document, or under another base, is one document further on the way. -/
def enter (base : Uri) : List Uri → List Uri
  | [] => [base]
  | scope@(last :: _) => if last = base then scope else base :: scope

/-- Whether the number of matching items is within the limits; without a lower limit there has
to be one. -/
def withinContains (least most : Option Nat) (n : Nat) : Bool :=
  decide (least.getD 1 ≤ n) && (match most with | some m => decide (n ≤ m) | none => true)

namespace Judgement

def blank : Judgement where
  passes := fun _ s _ =>
    match s with
    | .always verdict => verdict
    | _ => true
  sees := fun _ _ _ _ => false

variable (j : Judgement) (links : Links) (scope : List Uri)

def matchCount (s : Schema) (vs : List Json) : Nat := vs.countP (j.passes scope s)

/-- Whether a rule has looked at a part of a value. Rules on members look at a member whose
value they accept; patterns look at every key that matches. Combined schemas count together
when all of them, or any, pass, and only the one that passes where there must be one; bare
verdicts never count. -/
def ruleSees (whole : Json) (spot : Spot) (r : Rule) : Bool :=
  match r, spot with
  | .link _ target, spot => j.sees scope (links scope target) whole spot
  | .properties ps, .member key x => (Schema.withKey key ps).any fun s => j.passes scope s x
  | .patterns ps, .member key _ => ps.any fun p => p.1.matches key
  | .additional s, .member _ x => j.passes scope s x
  | .unevaluatedProperties s, .member _ x => j.passes scope s x
  | .dependentSchemas ds, spot =>
    match whole with
    | .obj ms => ds.any fun d => Members.contains d.1 ms && j.sees scope d.2 whole spot
    | _ => false
  | .firstItems ss, .item i _ => decide (i < ss.length)
  | .items _ _, .item _ _ => true
  | .contains s _ _, .item _ x => j.passes scope s x
  | .unevaluatedItems s, .item _ x => j.passes scope s x
  | .conditional test positive negative, spot =>
    if test.isNode then
      if j.passes scope test whole then
        j.sees scope test whole spot || positive.any fun s => j.sees scope s whole spot
      else negative.any fun s => j.sees scope s whole spot
    else false
  | .allOf ss, spot =>
    (ss.all fun s => !s.isNode || j.passes scope s whole) &&
      ss.any fun s => j.sees scope s whole spot
  | .anyOf ss, spot =>
    (ss.any fun s => s.isNode && j.passes scope s whole) &&
      ss.any fun s => j.sees scope s whole spot
  | .oneOf ss, spot =>
    match ss.filter fun s => s.isNode && j.passes scope s whole with
    | [s] => j.sees scope s whole spot
    | _ => false
  | _, _ => false

def nodeSees (rs : List Rule) (whole : Json) (spot : Spot) : Bool :=
  rs.any (j.ruleSees links scope whole spot)

/-- Whether a value passes a rule of a node. Values of a kind that the rule is not about pass. -/
def rulePasses (rs : List Rule) (r : Rule) (v : Json) : Bool :=
  match r, v with
  | .link _ target, v => j.passes scope (links scope target) v
  | .types ts, v => ts.any fun t => t.holds v
  | .constant c, v => c.admits v
  | .enumeration vs, v => vs.any fun c => c.equals v
  | .bound b limit, .num x => b.holds limit x
  | .multiple divisor, .num x => divisor.isMultiple x
  | .count measure most n, v =>
    match measure.count? v with
    | some k => if most then decide (k ≤ n) else decide (n ≤ k)
    | none => true
  | .pattern p, .str s => p.matches s
  | .unique, .arr vs => Json.distinct vs
  | .contains s least most, .arr vs => withinContains least most (j.matchCount scope s vs)
  | .firstItems ss, .arr vs => (ss.zip vs).all fun p => j.passes scope p.1 p.2
  | .items skip s, .arr vs => (vs.drop skip).all fun x => j.passes scope s x
  | .properties ps, .obj ms =>
    ms.all fun m => (Schema.withKey m.1 ps).all fun s => j.passes scope s m.2
  | .patterns ps, .obj ms =>
    ms.all fun m => ps.all fun p => !p.1.matches m.1 || j.passes scope p.2 m.2
  | .additional s, .obj ms =>
    ms.all fun m => !Rule.leaves rs m.1 || j.passes scope s m.2
  | .names s, .obj ms => ms.all fun m => j.passes scope s (.str m.1)
  | .required keys, .obj ms => keys.all fun k => Members.contains k ms
  | .dependentRequired ds, .obj ms =>
    ds.all fun d => !Members.contains d.1 ms || d.2.all fun k => Members.contains k ms
  | .dependentSchemas ds, .obj ms =>
    ds.all fun d => !Members.contains d.1 ms || j.passes scope d.2 v
  | .dependencies ds, .obj ms =>
    ds.all fun d => !Members.contains d.1 ms ||
      (d.2.1.all fun k => Members.contains k ms) && j.passes scope d.2.2 v
  | .allOf ss, v => ss.all fun s => j.passes scope s v
  | .anyOf ss, v => ss.any fun s => j.passes scope s v
  | .oneOf ss, v => ss.countP (fun s => j.passes scope s v) == 1
  | .negation _ s, v => !j.passes scope s v
  | .conditional test positive negative, v =>
    if j.passes scope test v then positive.all fun s => j.passes scope s v
    else negative.all fun s => j.passes scope s v
  | .unevaluatedItems _, .arr vs =>
    vs.zipIdx.all fun x => j.nodeSees links scope rs (.arr vs) (.item x.2 x.1)
  | .unevaluatedProperties _, .obj ms =>
    ms.all fun m => j.nodeSees links scope rs (.obj ms) (.member m.1 m.2)
  | _, _ => true

def deepen : Judgement where
  passes := fun scope s v =>
    match s with
    | .always verdict => verdict
    | .rules base rs => rs.all fun r => j.rulePasses links (enter base scope) rs r v
    | .broken _ => true
  sees := fun scope s whole spot =>
    match s with
    | .rules base rs => j.nodeSees links (enter base scope) rs whole spot
    | _ => false

def ofDepth (links : Links) : Nat → Judgement
  | 0 => blank
  | n + 1 =>
    ⟨fun scope s v => ((ofDepth links n).deepen links).passes scope s v,
      fun scope s whole spot => ((ofDepth links n).deepen links).sees scope s whole spot⟩

end Judgement

def depthLimit : Nat := 100000

end Unseal
