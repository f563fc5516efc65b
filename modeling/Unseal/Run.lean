import Unseal.Envelope.Named
import Unseal.Handler
import Unseal.Options

/-!
# Runs

A run reads one event, opens its envelopes, checks what is inside against the schema and yields
the result as one JSON value. The configuration, the schema and the names of the envelopes are
settled before the event is read.
-/

set_option autoImplicit false

namespace Unseal

def Parsed.toJson : Parsed Json → Json
  | single v => v
  | many vs => .arr vs

def isInputPath (path : String) : Bool :=
  path.toList.head? == some '-' && Path.parts path == ["-"]

section
variable {m : Type → Type} [Monad m] (files : FileAccess m)

/-- An event: the standard input is taken as it is, a file must hold a document. -/
def readEvent (path : String) : ExceptT Failure m Payload := do
  if isInputPath path then
    match ← files.readInput with
    | .ok text => pure (.text text)
    | .error f => throw ((Failure.plain f.message).within "cannot read event from stdin")
  else
    match ← (loadDocument files path).run with
    | .ok v => pure (.value v)
    | .error e => throw (.ofFiles e)

def Options.run (o : Options) : ExceptT Failure m Json := do
  let config ← o.resolve files
  let schema ← config.buildModel files
  match Envelope.ofNames config.envelopes with
  | .error e => throw (.ofParse e)
  | .ok envelopes =>
    let parser := (EventParser.ofModel schema.model).withEnvelopes envelopes
    match parser.parse (← readEvent files o.event) with
    | .error e => throw (.ofParse e)
    | .ok result => pure result.toJson

end
end Unseal
