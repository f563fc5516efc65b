import Unseal.Failure
import Unseal.Files.Path
import Unseal.Schema.Directory

/-!
# Configurations

What a run is set up with: where its schema is, the envelopes to open and the policy on unknown
members. The schema is one file, or one of a directory by its name.
-/

set_option autoImplicit false

namespace Unseal

structure Config where
  schema : Option String
  schemaDirectory : Option String
  model : Option String
  envelopes : List String
  unknownFields : UnknownFields
deriving DecidableEq, Repr

namespace Config

def empty : Config := ⟨none, none, none, [], .inherit⟩

def within (c : Config) (directory : String) : Config :=
  { c with
    schema := c.schema.map (Path.join directory)
    schemaDirectory := c.schemaDirectory.map (Path.join directory) }

inductive Source where
  | file (path : String)
  | named (directory name : String)
deriving DecidableEq, Repr

/-- The one source that a configuration names. -/
def source (c : Config) : Except String Source :=
  match c.schema, c.schemaDirectory, c.model with
  | some path, none, none => .ok (.file path)
  | none, some directory, some name => .ok (.named directory name)
  | none, some _, none => .error "schema_dir is set but no model name was given"
  | none, none, some name => .error ("model " ++ name ++ " needs a schema_dir")
  | none, none, none => .error "no schema configured: set schema, or schema_dir and model"
  | some _, _, _ => .error "schema cannot be combined with schema_dir or model"

section
variable {m : Type → Type} [Monad m] (files : FileAccess m)

def buildModel (c : Config) : ExceptT Failure m SchemaModel := do
  match c.source with
  | .error reason => throw (.plain reason)
  | .ok (.file path) =>
    match ← (loadSchema files path c.unknownFields).run with
    | .ok s => pure s
    | .error e => throw ((Failure.ofFiles e).within ("cannot build model from " ++ path))
  | .ok (.named path name) =>
    match ← (SchemaDirectory.load files path).run with
    | .error e => throw (.ofFiles e)
    | .ok d =>
      match d.model name c.unknownFields with
      | .ok s => pure s
      | .error e => throw ((Failure.ofFiles e).within ("cannot build model " ++ name))

end
end Config
end Unseal
