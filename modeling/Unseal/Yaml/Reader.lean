import Unseal.Json.Basic
import Unseal.Record.Mismatch
import Unseal.Yaml.Document
import Unseal.Yaml.Plain

/-!
# Reading YAML as JSON

A document becomes a JSON value. Keys are taken as they are written, whatever they look like;
tags of the document's own have no counterpart and are refused.
-/

set_option autoImplicit false

namespace Unseal.Yaml

def invalidType {α : Type} (found expected : String) : Except Trouble α :=
  .error (.mismatch ("invalid type: " ++ found ++ ", expected " ++ expected) none)

def invalidValue {α : Type} (text expected : String) : Except Trouble α :=
  .error (.mismatch ("invalid value: string " ++ Text.quoted text ++ ", expected " ++ expected)
    none)

/-- The name of a tag of the document's own: what follows its exclamation mark, if anything. -/
def ownTag? : Option String → Option String
  | none => none
  | some tag =>
    match tag.toList with
    | '!' :: [] => some "!"
    | '!' :: rest => some (String.ofList rest)
    | _ => none

def standardTag (name : String) : String := "tag:yaml.org,2002:" ++ name

def scalarMeaning (tag : Option String) (text : String) (plain tagged : Bool) :
    Except Trouble Meaning :=
  let untagged : Except Trouble Meaning := .ok (if plain then meaning text else .text)
  match tag with
  | none => untagged
  | some tag =>
    if tagged then untagged
    else if tag = standardTag "bool" then
      match bool? text with
      | some b => .ok (.bool b)
      | none => invalidValue text "a boolean"
    else if tag = standardTag "int" then
      match int? text.toList with
      | some n => .ok (.int n)
      | none => invalidValue text "an integer"
    else if tag = standardTag "float" then
      match realMeaning? text with
      | some m => .ok m
      | none => invalidValue text "a float"
    else if tag = standardTag "null" then
      if isNull text then .ok .null else invalidValue text "null"
    else if tag.startsWith "!" then untagged
    else .ok .text

def Meaning.found (m : Meaning) (text : String) : String :=
  match m with
  | .null => "unit value"
  | .bool b => (Found.bool b).text
  | .int n =>
    if Number.inRange n then (Found.num (.int n)).text
    else "integer \x60" ++ toString n ++ "\x60 as " ++ if n < 0 then "i128" else "u128"
  | .float x => (Found.num (.float x)).text
  | .nonFinite name => "floating point \x60" ++ name ++ "\x60"
  | .text => (Found.str text).text

/-- A number without end has no counterpart and becomes null. -/
def Meaning.toJson (m : Meaning) (text : String) : Except Trouble Json :=
  match m with
  | .null => .ok .null
  | .bool b => .ok (.bool b)
  | .int n =>
    if Number.inRange n then .ok (.num (.int n))
    else .error (.mismatch "JSON number out of range" none)
  | .float x => .ok (.num (.float x))
  | .nonFinite _ => .ok .null
  | .text => .ok (.str text)

def unexpectedItem {α : Type} (i : Item) (expected : String) : Except Trouble α :=
  match i with
  | .scalar tag text plain =>
    match scalarMeaning tag text plain false with
    | .ok m => invalidType (m.found text) expected
    | .error t => .error t
  | .sequence _ => invalidType "sequence" expected
  | .mapping _ => invalidType "map" expected
  | _ => invalidType "unit value" expected

def placing {α : Type} (m : Mark) (path : Path) : Except Trouble α → Except Trouble α
  | .ok x => .ok x
  | .error t => .error (t.placed m path)

structure Place where
  position : Nat
  jumps : Nat

namespace Document

def item (d : Document) (position : Nat) : Except Trouble (Item × Mark) :=
  match d.items[position]? with
  | some x => .ok x
  | none => .error (d.fault.getD .noValue)

def follow (d : Document) (number : Nat) (here : Place) : Except Trouble Place :=
  let jumps := here.jumps + 1
  if d.items.size * 100 < jumps then .error .tooOften
  else match d.targets.lookup number with
    | some position => .ok ⟨position, jumps⟩
    | none => .error .noValue

/-- Hands the item of a node to `read` with its mark and the place behind it. Of an alias it is
the node that the alias leads to, and the place to go on from is behind the alias. -/
def readNode {α : Type} (d : Document) (read : Item → Mark → Place → Except Trouble (α × Place)) :
    Nat → Place → Except Trouble (α × Place)
  | 0, _ => .error .tooOften
  | n + 1, here => do
    let (i, m) ← d.item here.position
    match i with
    | .alias number =>
      let (x, after) ← readNode d read n (← d.follow number here)
      .ok (x, ⟨here.position + 1, after.jumps⟩)
    | i => read i m ⟨here.position + 1, here.jumps⟩

def readText (d : Document) (expected : String) (path : Path) (fuel : Nat) (here : Place) :
    Except Trouble ((String × Mark) × Place) :=
  d.readNode (fun i m next =>
    match i with
    | .scalar _ text _ => .ok ((text, m), next)
    | i => placing m path (unexpectedItem i expected)) fuel here

/-- The step to the value of a key: an alias or a collection has no name. -/
def keyStep : Item → Step
  | .scalar _ text _ => .key text
  | _ => .unnamed

def depthLimit : Nat := 128

mutual
def readJson (d : Document) : Nat → Nat → Path → Place → Except Trouble (Json × Place)
  | 0, _, _, _ => .error .tooOften
  | n + 1, depth, path, here => do
    let (i, m) ← d.item here.position
    let next : Place := ⟨here.position + 1, here.jumps⟩
    let tagged (tag : Option String) : Except Trouble Unit :=
      if (ownTag? tag).isSome then placing m path (invalidType "enum" "any valid JSON value")
      else .ok ()
    match i with
    | .alias number =>
      let (v, after) ← readJson d n depth path (← d.follow number here)
      .ok (v, ⟨here.position + 1, after.jumps⟩)
    | .scalar tag text plain =>
      tagged tag
      let v ← placing m path (do
        let meaning ← scalarMeaning tag text plain false
        meaning.toJson text)
      .ok (v, next)
    | .sequence tag =>
      tagged tag
      match depth with
      | 0 => .error (.tooDeep m)
      | depth + 1 =>
        let (vs, after) ← readItems d n depth path 0 next
        .ok (.arr vs, after)
    | .mapping tag =>
      tagged tag
      match depth with
      | 0 => .error (.tooDeep m)
      | depth + 1 =>
        let (ms, after) ← readMembers d n depth path true next
        .ok (.mkObj ms, after)
    | _ => .ok (.null, next)

def readItems (d : Document) :
    Nat → Nat → Path → Nat → Place → Except Trouble (List Json × Place)
  | 0, _, _, _, _ => .error .tooOften
  | n + 1, depth, path, index, here => do
    let (i, _) ← d.item here.position
    match i with
    | .sequenceEnd => .ok ([], ⟨here.position + 1, here.jumps⟩)
    | _ =>
      let (v, here) ← readJson d n depth (.index index :: path) here
      let (vs, here) ← readItems d n depth path (index + 1) here
      .ok (v :: vs, here)

def readMembers (d : Document) :
    Nat → Nat → Path → Bool → Place → Except Trouble (List (String × Json) × Place)
  | 0, _, _, _, _ => .error .tooOften
  | n + 1, depth, path, first, here => do
    let (i, _) ← d.item here.position
    match i with
    | .mappingEnd => .ok ([], ⟨here.position + 1, here.jumps⟩)
    | i =>
      let ((key, _), here) ← d.readText (if first then "a string key" else "a string") path n here
      let (v, here) ← readJson d n depth (keyStep i :: path) here
      let (ms, here) ← readMembers d n depth path false here
      .ok ((key, v) :: ms, here)
end

/-- More steps than a reader can take that follows each alias no more often than allowed. -/
def fuel (d : Document) : Nat := 300 * (d.items.size + 2) * (d.items.size + 2)

end Document

def read (text : String) : Except Trouble Json :=
  Document.readWith text fun d => do
    let (v, _) ← d.readJson d.fuel Document.depthLimit [] ⟨0, 0⟩
    .ok v

end Unseal.Yaml
