import Unseal.Error
import Unseal.Record.Text

/-!
# Models

A model turns a payload into a value of its output type or says why it cannot. Text is
normally read as JSON and then checked; a model of a record reads it in one pass, so that its
faults have places.
-/

set_option autoImplicit false

namespace Unseal

structure Model (α : Type) where
  name : String
  check : Json → Except ValidationError α
  checkText : String → Except ValidationError α

namespace Model

variable {α : Type}

def readJson (name text : String) : Except ValidationError Json :=
  match Json.read text with
  | .ok v => .ok v
  | .error f => .error (.ofReading name f.message)

/-- A model that reads text as JSON first. -/
def ofCheck (name : String) (check : Json → Except ValidationError α) : Model α where
  name := name
  check := check
  checkText := fun t => do
    let v ← readJson name t
    check v

def checkPayload (m : Model α) : Payload → Except ValidationError α
  | .value v => m.check v
  | .text t => m.checkText t

end Model

def Model.recordLabel (name : String) : String := "Typed(" ++ Text.quoted name ++ ")"

namespace Shape

def model (s : Shape) (name : String) : Model s.Carrier where
  name := name
  check := fun v =>
    match s.ofJson v with
    | .ok x => .ok x
    | .error e => .error (.ofReading name e.message)
  checkText := fun t =>
    match s.readText t with
    | .ok x => .ok x
    | .error e => .error (.ofReading name e.message)

end Shape
end Unseal
