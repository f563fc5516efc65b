import Unseal.Model
import Unseal.Parsed

/-!
# Envelopes

An envelope knows where one kind of event keeps the payload that a handler wants, and checks
the outer shape of the event as it takes the payload out.
-/

set_option autoImplicit false

namespace Unseal

structure Envelope where
  name : String
  extract : Payload → Except ParseError (Parsed Payload)

def orInvalid {α : Type} : Except ValidationError α → Except ParseError α
  | .ok x => .ok x
  | .error e => .error (.invalid e)

def Shape.unwrap (s : Shape) (name : String) (p : Payload) : Except ParseError s.Carrier :=
  orInvalid ((s.model name).checkPayload p)

def checkSource (model path actual expected : String) : Except ParseError Unit :=
  if actual = expected then .ok ()
  else .error (.invalid (.single model path
    ("expected event source '" ++ expected ++ "', found '" ++ actual ++ "'")))

/-- Applies `f` to each element and its index, from `i` on, up to the first failure. -/
def eachFrom {α β ε : Type} (f : Nat → α → Except ε β) : Nat → List α → Except ε (List β)
  | _, [] => .ok []
  | i, x :: xs => do
    let y ← f i x
    let ys ← eachFrom f (i + 1) xs
    .ok (y :: ys)

def eachRecord {α β ε : Type} (records : List α) (f : Nat → α → Except ε β) :
    Except ε (List β) :=
  eachFrom f 0 records

def recordPath (i : Nat) (path : String) : String := "/Records/" ++ toString i ++ path

end Unseal
