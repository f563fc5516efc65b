import Unseal.Envelope.Basic
import Unseal.Json.Pointer

/-!
# Payloads at a fixed place

An envelope for any source that keeps its payload at one JSON pointer.
-/

set_option autoImplicit false

namespace Unseal

/-- With `each` the place holds an array and every element is a payload. With `serialized` a
string is the text of a payload. -/
structure Field where
  name : String
  pointer : String
  each : Bool
  serialized : Bool
deriving DecidableEq, Repr

namespace Field

/-- A pointer is empty or begins with a slash; any other text is the literal key of a member. -/
def pointerOf (place : String) : String :=
  match place.toList with
  | [] => place
  | c :: cs =>
    if c = '/' then place else String.ofList ('/' :: Json.Pointer.escape (c :: cs))

def ofPlace (name place : String) (each serialized : Bool) : Field :=
  ⟨name, pointerOf place, each, serialized⟩

def toPayload (f : Field) : Json → Payload
  | .str t => if f.serialized then .text t else .value (.str t)
  | v => .value v

def extract (f : Field) (p : Payload) : Except ParseError (Parsed Payload) :=
  match p.toJson with
  | .error e => .error (.invalid (.ofReading f.name e.message))
  | .ok v =>
    match Json.Pointer.resolve f.pointer v with
    | none => .error (.invalid (.missing f.name f.pointer))
    | some x =>
      if f.each then
        match x with
        | .arr vs => .ok (.many (vs.map f.toPayload))
        | x => .error (.invalid (.single f.name f.pointer
            ("expected array, found " ++ x.kind.name)))
      else .ok (.single (f.toPayload x))

def envelope (f : Field) : Envelope := ⟨f.name, f.extract⟩

end Field
end Unseal
