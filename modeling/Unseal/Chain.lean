import Unseal.Envelope.Basic

/-!
# Unwrapping

An event is checked as it is, or unwrapped by one envelope, or by a chain. A chain keeps a
working set of events, at first the given one. Every envelope but the last replaces the set by
all that it takes out of its members, each of which must be a JSON object. What the last takes
out is checked against the model.
-/

set_option autoImplicit false

namespace Unseal

variable {α : Type}

def parse (m : Model α) (p : Payload) : Except ParseError α := orInvalid (m.checkPayload p)

def parseWith (m : Model α) (e : Envelope) (p : Payload) : Except ParseError (Parsed α) := do
  let payloads ← e.extract p
  payloads.mapM fun q => orInvalid (m.checkPayload q)

namespace Chain

/-- The model between stages, which accepts every value. -/
def anyModel : Model Json := .ofCheck "RawEvent" .ok

/-- Only objects can be unwrapped further. -/
def asEvent (e : Envelope) (v : Json) : Except ParseError Payload :=
  if v.isObject then .ok (.value v)
  else .error (.invalidChain "RawEvent or list of RawEvent" v.kind.name e.name)

def unwrapEvent (e : Envelope) (p : Payload) : Except ParseError (List Payload) := do
  let values ← parseWith anyModel e p
  values.toList.mapM (asEvent e)

def stage (e : Envelope) (events : List Payload) : Except ParseError (List Payload) := do
  let nested ← events.mapM (unwrapEvent e)
  .ok nested.flatten

def lastStage (m : Model α) (e : Envelope) (events : List Payload) :
    Except ParseError (List α) := do
  let nested ← events.mapM fun p => do
    let r ← parseWith m e p
    .ok r.toList
  .ok nested.flatten

def run (m : Model α) : List Payload → List Envelope → Except ParseError (List α)
  | _, [] => .error .emptyChain
  | events, [e] => lastStage m e events
  | events, e :: es => do
    let events ← stage e events
    run m events es

end Chain

def parseChain (m : Model α) (es : List Envelope) (p : Payload) : Except ParseError (List α) :=
  Chain.run m [p] es

end Unseal
