import Unseal.Files.Basic
import Unseal.Files.Path
import Unseal.Json.Reader
import Unseal.Schema.Compile
import Unseal.Yaml.Reader

/-!
# Schemas in files

Documents are read as JSON, or as YAML where the name of the file says so. A directory of
schemas holds all documents whose names end in `.schema.json`; they may refer to each other.
-/

set_option autoImplicit false

namespace Unseal

inductive FilesError where
  | schema (name reason : String)
  | notFound (name directory : String)
  | document (path reason : String)
  | model (e : ParseError)
  | io (f : FileFault)
deriving DecidableEq, Repr

def FilesError.message : FilesError → String
  | schema name reason => "schema load error for '" ++ name ++ "': " ++ reason
  | notFound name directory => "schema '" ++ name ++ "' not found in " ++ directory
  | document path reason => "document load error for '" ++ path ++ "': " ++ reason
  | model e => e.message
  | io f => "io error: " ++ f.message

/-! ## Single documents -/

def readDocument (text : String) (yaml : Bool) : Except String Json :=
  if yaml then
    match Yaml.read text with
    | .ok v => .ok v
    | .error t => .error ("invalid YAML: " ++ t.message)
  else
    match Json.read text with
    | .ok v => .ok v
    | .error f => .error ("invalid JSON: " ++ f.message)

def isYamlPath (path : String) : Bool :=
  Path.extension path == "yaml" || Path.extension path == "yml"

section
variable {m : Type → Type} [Monad m] (files : FileAccess m)

def loadDocument (path : String) : ExceptT FilesError m Json := do
  match ← files.readText path with
  | .error f => throw (.document path ("cannot read file: " ++ f.message))
  | .ok text =>
    match readDocument text (isYamlPath path) with
    | .ok v => pure v
    | .error reason => throw (.document path reason)

def loadSchema (path : String) (policy : UnknownFields) : ExceptT FilesError m SchemaModel := do
  let document ← loadDocument files path
  match SchemaModel.compile .empty ((Path.fileName? path).getD "schema") document policy with
  | .ok s => pure s
  | .error e => throw (.model e)

/-! ## Directories of schemas -/

/-- The schemas of a directory by file name, in the order in which they were read. -/
structure SchemaDirectory where
  path : String
  schemas : List (String × Json)

namespace SchemaDirectory

def ending : String := ".schema.json"

def loadOne (path : String) (d : SchemaDirectory) (name : String) :
    ExceptT FilesError m SchemaDirectory := do
  match ← files.readText (Path.join path name) with
  | .error f => throw (.io f)
  | .ok text =>
    match Json.read text with
    | .ok v => pure { d with schemas := d.schemas ++ [(name, v)] }
    | .error f => throw (.schema name ("invalid JSON: " ++ f.message))

def load (path : String) : ExceptT FilesError m SchemaDirectory := do
  match ← files.list path with
  | .error f => throw (.schema path ("cannot read schema directory: " ++ f.message))
  | .ok names => (names.filter fun n => n.endsWith ending).foldlM (loadOne files path) ⟨path, []⟩

end SchemaDirectory
end

namespace SchemaDirectory

def count (d : SchemaDirectory) : Nat := d.schemas.length

def names (d : SchemaDirectory) : List String :=
  (d.schemas.map (·.1)).mergeSort fun a b => decide (a ≤ b)

def find? (d : SchemaDirectory) (name : String) : Option Json := d.schemas.lookup name

def index (d : SchemaDirectory) : Index := .ofFiles d.schemas

/-- The model of a schema of the directory, the others being at hand for its references. -/
def model (d : SchemaDirectory) (name : String) (policy : UnknownFields) :
    Except FilesError SchemaModel :=
  match d.find? name with
  | none => .error (.notFound name d.path)
  | some document =>
    match SchemaModel.compile d.index name document policy with
    | .ok s => .ok s
    | .error e => .error (.model e)

end SchemaDirectory
end Unseal
