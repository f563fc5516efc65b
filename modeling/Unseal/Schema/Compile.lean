import Unseal.Model
import Unseal.Schema.Needs
import Unseal.Schema.Policy
import Unseal.Schema.Report

/-!
# Schema models

A schema document becomes a model when it is a schema by the schema of schemas and all that it
refers to is at hand. The model only judges: what it accepts it returns unchanged.
-/

set_option autoImplicit false

namespace Unseal

structure SchemaModel where
  name : String
  /-- The document after the policy on unknown members. -/
  document : Json
  unknownFields : UnknownFields
  library : Schema.Library
  schema : Schema

namespace SchemaModel

def links (m : SchemaModel) : Links := m.library.follow

def isValid (m : SchemaModel) (v : Json) : Bool :=
  (Judgement.ofDepth m.links depthLimit).passes [] m.schema v

def violations (m : SchemaModel) (v : Json) : List Violation :=
  Schema.report m.links depthLimit Site.root [] m.schema v

def check (m : SchemaModel) (v : Json) : Except ValidationError Json :=
  match m.violations v with
  | [] => .ok v
  | violations => .error ⟨m.name, violations⟩

def model (m : SchemaModel) : Model Json := .ofCheck m.name m.check

def label (m : SchemaModel) : String :=
  "JsonSchemaModel \x7b name: " ++ Text.quoted m.name ++ ", unknown_fields: " ++
    m.unknownFields.label ++ ", .. \x7d"

/-- Why a document is no schema by the schema of schemas: its first violation. -/
def draftFault? (document : Json) : Option SchemaFault :=
  match Schema.Library.baseOfDocument Schema.Draft.joined with
  | .error f => some f
  | .ok base =>
    let joined := Schema.ofJson base Schema.Draft.joined
    (Schema.report Schema.Library.draft.follow depthLimit Site.root [] joined document).head?.map
      fun v => .refused v.message

def assemble (index : Index) (name : String) (document : Json) (policy : UnknownFields) :
    Except SchemaFault SchemaModel := do
  let base ← Schema.Library.baseOfDocument document
  let library ← Schema.Library.ofDocument index document
  orFault (draftFault? document)
  let schema := Schema.ofJson base document
  orFault (schema.fault? library)
  .ok ⟨name, document, policy, library, schema⟩
where
  orFault : Option SchemaFault → Except SchemaFault Unit
    | none => .ok ()
    | some f => .error f

/-- The model of a document under a policy, with the documents of an index at hand. -/
def compile (index : Index) (name : String) (document : Json) (policy : UnknownFields) :
    Except ParseError SchemaModel :=
  if document.kind = .object ∨ document.kind = .boolean then
    match assemble index name (policy.apply document) policy with
    | .ok m => .ok m
    | .error f => .error (.invalidModel name f.message)
  else
    .error (.invalidModel name
      ("schema document must be a JSON object or boolean, found " ++ document.kind.name))

end SchemaModel
end Unseal
