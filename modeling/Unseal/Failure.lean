import Unseal.Schema.Directory

/-!
# Failures

Why a run ended without a result: what could not be done, and below it what caused that.
-/

set_option autoImplicit false

namespace Unseal

structure Failure where
  message : String
  causes : List String
deriving DecidableEq, Repr

namespace Failure

def plain (message : String) : Failure := ⟨message, []⟩

def within (f : Failure) (context : String) : Failure := ⟨context, f.message :: f.causes⟩

def ofParse (e : ParseError) : Failure := plain e.message

def ofFiles : FilesError → Failure
  | .io f => ⟨(FilesError.io f).message, [f.message]⟩
  | e => plain e.message

def chain (f : Failure) : List String := f.message :: f.causes

/-- A text with all its lines but the first moved in. -/
def moveIn (step : String) (text : String) : String :=
  String.ofList (text.toList.flatMap fun c => if c = '\n' then '\n' :: step.toList else [c])

/-- The causes as they are listed: numbered if there are several. -/
def causesText : List String → String
  | [] => ""
  | [cause] => "\n\nCaused by:\n    " ++ moveIn "    " cause
  | causes => "\n\nCaused by:" ++ String.join (causes.zipIdx.map fun (cause, i) =>
      let number := toString i
      "\n" ++ String.ofList (List.replicate (5 - number.length) ' ') ++ number ++ ": " ++
        moveIn "       " cause)

def report (f : Failure) : String := "Error: " ++ f.message ++ causesText f.causes ++ "\n"

end Failure
end Unseal
