import Unseal.Payload

/-!
# Why an event is refused

A value that does not fit a model comes with one violation per fault, in the order the model
found them. The other errors name the envelope or the model that breaks its contract.
-/

set_option autoImplicit false

namespace Unseal

/-- One fault of a value, with the place in the value and the rule's place in the model. A
model that has no document has an empty rule path. -/
structure Violation where
  instancePath : String
  schemaPath : String
  message : String
deriving DecidableEq, Repr

def Violation.text (v : Violation) : String :=
  if v.instancePath = "" then "  (root): " ++ v.message
  else "  " ++ v.instancePath ++ ": " ++ v.message

structure ValidationError where
  model : String
  violations : List Violation
deriving DecidableEq, Repr

namespace ValidationError

def single (model path message : String) : ValidationError := ⟨model, [⟨path, "", message⟩]⟩

def ofReading (model message : String) : ValidationError := .single model "" message

def missing (model path : String) : ValidationError :=
  .single model path ("required field '" ++ path ++ "' is missing")

def message (e : ValidationError) : String :=
  "validation failed against model '" ++ e.model ++ "':\n" ++
    String.intercalate "\n" (e.violations.map Violation.text)

end ValidationError

inductive ParseError where
  | invalid (e : ValidationError)
  | unknownEnvelope (envelope : String)
  | invalidModel (model reason : String)
  /-- A stage of a chain yielded what the next stage cannot take. -/
  | invalidChain (expected received envelope : String)
deriving DecidableEq, Repr

namespace ParseError

def emptyChain : ParseError := invalidChain "at least one envelope" "no envelopes" ""

/-- A chain error that names no envelope is that of the empty chain. -/
def message : ParseError → String
  | invalid e => e.message
  | unknownEnvelope envelope =>
    "envelope must implement the Envelope contract, envelope=" ++ envelope
  | invalidModel model reason =>
    "input model must implement the Model contract, model=" ++ model ++ ": " ++ reason
  | invalidChain expected received envelope =>
    if envelope = "" then "envelope chain is empty: expected " ++ expected
    else
      "return type expected is " ++ expected ++ ", received " ++ received ++
        " from envelope " ++ envelope

end ParseError
end Unseal
