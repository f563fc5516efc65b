import Unseal.CommandLine
import Unseal.Json.Writer
import Unseal.Run

/-!
# The program

What a command line leads to: the status that the program ends with and what it prints.
-/

set_option autoImplicit false

namespace Unseal

structure Outcome where
  status : Nat
  output : String
  errors : String
deriving DecidableEq, Repr

namespace Outcome

def success (output : String) : Outcome := ⟨0, output, ""⟩

def failure (f : Failure) : Outcome := ⟨1, "", f.report⟩

def usage : Outcome := ⟨2, "",
  "usage: unseal parse EVENT [--config FILE] [--schema FILE] [--schema-dir DIRECTORY]\n" ++
  "         [--model NAME] [-e ENVELOPE]... [--unknown-fields POLICY] [--compact] [--log-json]\n" ++
  "       unseal envelopes [--log-json]\n"⟩

end Outcome

def envelopeNames : String := String.join (Source.all.map fun s => s.name ++ "\n")

def runProgram {m : Type → Type} [Monad m] (files : FileAccess m) (words : List String) :
    m Outcome :=
  match Command.ofWords words with
  | none => pure .usage
  | some .envelopes => pure (.success envelopeNames)
  | some (.parse o) => do
    match ← (o.run files).run with
    | .ok v => pure (.success (v.render o.compact ++ "\n"))
    | .error f => pure (.failure f)

end Unseal
