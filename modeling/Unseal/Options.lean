import Unseal.Config.Reader

/-!
# Options

What a run is told on the command line. Options prevail over the configuration: one that says
where the schema is takes the place of whatever else would say so.
-/

set_option autoImplicit false

namespace Unseal

structure Options where
  event : String
  config : Option String := none
  schema : Option String := none
  schemaDirectory : Option String := none
  model : Option String := none
  envelopes : List String := []
  unknownFields : Option UnknownFields := none
  compact : Bool := false
deriving DecidableEq, Repr

namespace Options

def setSchema (c : Config) : Option String → Config
  | none => c
  | some path => { c with schema := some path, schemaDirectory := none, model := none }

def setSchemaDirectory (c : Config) : Option String → Config
  | none => c
  | some path => { c with schemaDirectory := some path, schema := none }

def setModel (c : Config) : Option String → Config
  | none => c
  | some name => { c with model := some name, schema := none }

/-- The configuration with the options laid over it, those for the schema one after another. -/
def override (o : Options) (c : Config) : Config :=
  let c := setModel (setSchemaDirectory (setSchema c o.schema) o.schemaDirectory) o.model
  { c with
    envelopes := if o.envelopes.isEmpty then c.envelopes else o.envelopes
    unknownFields := o.unknownFields.getD c.unknownFields }

def resolve {m : Type → Type} [Monad m] (files : FileAccess m) (o : Options) :
    ExceptT Failure m Config := do
  match o.config with
  | none => pure (o.override .empty)
  | some path => pure (o.override (← Config.load files path))

end Options
end Unseal
