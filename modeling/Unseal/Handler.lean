import Unseal.Chain
import Unseal.Text.Quoted

/-!
# Event parsers

A model and a chain of envelopes bound together, to parse event after event for a handler. The
number of envelopes decides how: none, the event itself is the payload; one, its shape is kept;
more, the results of the chain are flattened.
-/

set_option autoImplicit false

namespace Unseal

structure EventParser (α : Type) where
  model : Model α
  envelopes : List Envelope

namespace EventParser

variable {α : Type}

def ofModel (m : Model α) : EventParser α := ⟨m, []⟩

def push (parser : EventParser α) (e : Envelope) : EventParser α :=
  { parser with envelopes := parser.envelopes ++ [e] }

def withEnvelopes (parser : EventParser α) (es : List Envelope) : EventParser α :=
  { parser with envelopes := es }

def parse (parser : EventParser α) (p : Payload) : Except ParseError (Parsed α) :=
  match parser.envelopes with
  | [] => (Unseal.parse parser.model p).map .single
  | [e] => parseWith parser.model e p
  | es => (parseChain parser.model es p).map .many

/-- Hands the result of parsing and the context to the handler, which is not called when parsing
fails. -/
def handle {γ ρ : Type} {m : Type → Type} [Monad m] (parser : EventParser α) (p : Payload)
    (context : γ) (handler : Parsed α → γ → m ρ) : m (Except ParseError ρ) :=
  match parser.parse p with
  | .error e => pure (.error e)
  | .ok r => do
    let answer ← handler r context
    pure (.ok answer)

def text (parser : EventParser α) : String :=
  "EventParser \x7b model: " ++ Text.quoted parser.model.name ++ ", envelopes: [" ++
    String.intercalate ", " (parser.envelopes.map fun e => Text.quoted e.name) ++ "] \x7d"

end EventParser
end Unseal
