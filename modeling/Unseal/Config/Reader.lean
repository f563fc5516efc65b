import Unseal.Config.Basic
import Unseal.Yaml.Reader

/-!
# Reading configurations

A configuration is written as a YAML mapping. All of its fields may be absent and no others may
occur. Paths in it are meant as seen from the directory of its file.
-/

set_option autoImplicit false

namespace Unseal.Config

open Yaml Yaml.Document

inductive Field where
  | schema | schemaDirectory | model | envelopes | unknownFields
deriving DecidableEq, Repr

namespace Field

def all : List Field := [schema, schemaDirectory, model, envelopes, unknownFields]

def name : Field → String
  | schema => "schema"
  | schemaDirectory => "schema_dir"
  | model => "model"
  | envelopes => "envelopes"
  | unknownFields => "unknown_fields"

def ofName? (name : String) : Option Field := all.find? fun f => f.name == name

end Field

def policies : List UnknownFields := [.inherit, .allow, .deny]

def policyOf (name : String) : Except Trouble UnknownFields :=
  match policies.find? fun p => p.name == name with
  | some p => .ok p
  | none => .error (.mismatch ("unknown variant " ++ Mismatch.ticked name ++ ", " ++
      Mismatch.oneOf (policies.map UnknownFields.name)) none)

/-- A text that may be left out or null. A tag makes a text of anything. -/
def readOptional (d : Document) (expected : String) (path : Yaml.Path) (fuel : Nat) (here : Place) :
    Except Trouble (Option String × Place) :=
  d.readNode (fun i m next =>
    match i with
    | .scalar tag text plain =>
      if !plain then .ok (some text, next)
      else match tag with
        | none => .ok (if text.isEmpty || isNull text then none else some text, next)
        | some tag =>
          if tag ≠ standardTag "null" then .ok (some text, next)
          else if isNull text then .ok (none, next)
          else invalidValue text "null"
    | .void => .ok (none, next)
    | i => placing m path (unexpectedItem i expected)) fuel here

def readEntries (d : Document) (path : Yaml.Path) :
    Nat → Nat → Place → Except Trouble (List String × Place)
  | 0, _, _ => .error .tooOften
  | n + 1, index, here => do
    let (i, _) ← d.item here.position
    match i with
    | .sequenceEnd => .ok ([], ⟨here.position + 1, here.jumps⟩)
    | _ =>
      let ((s, _), here) ← d.readText "a string" (.index index :: path) n here
      let (ss, here) ← readEntries d path n (index + 1) here
      .ok (s :: ss, here)

def readList (d : Document) (path : Yaml.Path) (fuel : Nat) (here : Place) :
    Except Trouble (List String × Place) :=
  d.readNode (fun i m next =>
    match i with
    | .sequence _ => readEntries d path fuel 0 next
    | i => placing m path (unexpectedItem i "a sequence")) fuel here

/-- A policy by its name, or by a tag with nothing after it. -/
def readPolicy (d : Document) (path : Yaml.Path) (fuel : Nat) (here : Place) :
    Except Trouble (UnknownFields × Place) :=
  d.readNode (fun i m next =>
    match i with
    | .scalar tag text plain =>
      match ownTag? tag with
      | none => do
        let p ← placing m path (policyOf text)
        .ok (p, next)
      | some name => do
        let p ← policyOf name
        if plain && (text.isEmpty || isNull text) then .ok (p, next)
        else placing m path (invalidValue text "null")
    | .sequence tag => collection i m tag
    | .mapping tag => collection i m tag
    | _ => .error .noValue) fuel here
where
  collection (i : Item) (m : Mark) (tag : Option String) : Except Trouble (UnknownFields × Place) :=
    match ownTag? tag with
    | none => placing m path (unexpectedItem i "a YAML tag starting with '!'")
    | some name => do
      let _ ← policyOf name
      placing m path (unexpectedItem i "unit")

def readField (d : Document) (f : Field) (path : Yaml.Path) (fuel : Nat) (c : Config)
    (here : Place) : Except Trouble (Config × Place) :=
  match f with
  | .schema => (readOptional d "path string" path fuel here).map fun (x, s) =>
    ({ c with schema := x }, s)
  | .schemaDirectory => (readOptional d "path string" path fuel here).map fun (x, s) =>
    ({ c with schemaDirectory := x }, s)
  | .model =>
    (readOptional d "a string" path fuel here).map fun (x, s) => ({ c with model := x }, s)
  | .envelopes => (readList d path fuel here).map fun (x, s) => ({ c with envelopes := x }, s)
  | .unknownFields => (readPolicy d path fuel here).map fun (x, s) =>
    ({ c with unknownFields := x }, s)

/-- The fields of a mapping up to its end, given those already read. -/
def readFields (d : Document) :
    Nat → List Field → Config → Place → Except Trouble (Config × Place)
  | 0, _, _, _ => .error .tooOften
  | n + 1, seen, c, here => do
    let (i, _) ← d.item here.position
    match i with
    | .mappingEnd => .ok (c, ⟨here.position + 1, here.jumps⟩)
    | i =>
      let ((key, m), here) ← d.readText "field identifier" [] n here
      match Field.ofName? key with
      | none => placing m [] (.error (.mismatch
          (Mismatch.unknown key (Field.all.map Field.name)).message none))
      | some f =>
        if seen.contains f then .error (.mismatch (Mismatch.duplicate key).message none)
        else
          let (c, here) ← readField d f [keyStep i] n c here
          readFields d n (f :: seen) c here

def ofDocument (d : Document) : Except Trouble Config := do
  let (c, _) ← d.readNode (fun i m next =>
    match i with
    | .mapping _ => placing m [] (readFields d d.fuel [] Config.empty next)
    | .void => .ok (Config.empty, next)
    | i => placing m [] (unexpectedItem i "struct ParserConfig")) d.fuel ⟨0, 0⟩
  .ok c

def read (text : String) : Except Trouble Config := Document.readWith text ofDocument

section
variable {m : Type → Type} [Monad m] (files : FileAccess m)

def load (path : String) : ExceptT Failure m Config := do
  match ← files.readText path with
  | .error f => throw ((Failure.plain f.message).within ("cannot read config file " ++ path))
  | .ok text =>
    match read text with
    | .error t => throw ((Failure.plain t.message).within ("invalid config file " ++ path))
    | .ok c => pure (c.within ((Path.parent? path).getD "."))

end
end Unseal.Config
