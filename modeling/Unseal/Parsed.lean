/-!
# Parsed results

A source of single events yields one value and a batch source any number, in source order.
-/

set_option autoImplicit false

namespace Unseal

inductive Parsed (α : Type) where
  | single (x : α)
  | many (xs : List α)
deriving DecidableEq, Repr

namespace Parsed

variable {α β : Type}

def toList : Parsed α → List α
  | single x => [x]
  | many xs => xs

def length : Parsed α → Nat
  | single _ => 1
  | many xs => xs.length

def isEmpty (r : Parsed α) : Bool := r.length == 0

def iter (r : Parsed α) := r.toList.iter

/-- Applies an effectful function to the values in order. With effects that can fail, the first
failure is the result and nothing after it is visited. -/
def mapM {m : Type → Type} [Monad m] (f : α → m β) : Parsed α → m (Parsed β)
  | single x => do
    let y ← f x
    pure (single y)
  | many xs => do
    let ys ← xs.mapM f
    pure (many ys)

end Parsed
end Unseal
