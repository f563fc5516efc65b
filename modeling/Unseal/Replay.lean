import Unseal.Model

/-!
# Stored results

A handler's result is stored as a JSON object and read back when its event arrives again. A
serializer says how: an object as itself, by two functions, or through a model, which checks a
stored record exactly like a fresh event.
-/

set_option autoImplicit false

namespace Unseal

inductive ReplayError where
  | notObject (found : Kind)
  | noModel
  | unwritable (reason : String)
  | invalid (e : ValidationError)
deriving DecidableEq, Repr

def ReplayError.message : ReplayError → String
  | notObject k => "model type is not serializable to a JSON object: found " ++ k.name
  | noModel => "no serialization model was supplied"
  | unwritable reason => "serialization error: " ++ reason
  | invalid e => e.message

structure Serializer (α : Type) where
  store : α → Except ReplayError (Members Json)
  restore : Members Json → Except ReplayError α

namespace Serializer

variable {α : Type}

def identity : Serializer (Members Json) := ⟨.ok, .ok⟩

def ofFunctions (store : α → Members Json) (restore : Members Json → α) : Serializer α :=
  ⟨fun x => .ok (store x), fun ms => .ok (restore ms)⟩

def functionsLabel : String := "CustomDictSerializer \x7b .. \x7d"

def ofModel (m : Model α) (write : α → Except String Json) : Serializer α where
  store := fun x =>
    match write x with
    | .error reason => .error (.unwritable reason)
    | .ok (.obj ms) => .ok ms
    | .ok v => .error (.notObject v.kind)
  restore := fun ms =>
    match m.check (.obj ms) with
    | .ok x => .ok x
    | .error e => .error (.invalid e)

/-- A serializer needs a model to restore with. -/
def ofModel? (m : Option (Model α)) (write : α → Except String Json) :
    Except ReplayError (Serializer α) :=
  match m with
  | some m => .ok (ofModel m write)
  | none => .error .noModel

end Serializer

def Shape.serializer (s : Shape) (name : String) : Serializer s.Carrier :=
  .ofModel (s.model name) fun x => .ok (s.toJson x)

end Unseal
