import Unseal.Record.Shape
import Unseal.Instant.Reader
import Unseal.Json.Writer
import Unseal.Text.Quoted

/-!
# Mismatches

Why a value does not have a shape.
-/

set_option autoImplicit false

namespace Unseal

inductive Found where
  | null
  | bool (b : Bool)
  | num (n : Number)
  | str (s : String)
  | sequence
  | map
deriving DecidableEq, Repr

namespace Found

def ofJson : Json → Found
  | .null => null
  | .bool b => bool b
  | .num n => num n
  | .str s => str s
  | .arr _ => sequence
  | .obj _ => map

def text : Found → String
  | null => "null"
  | bool b => "boolean `" ++ (if b then "true" else "false") ++ "`"
  | num (.int n) => "integer `" ++ toString n ++ "`"
  | num (.float x) => "floating point `" ++ String.ofList (Json.floatChars x) ++ "`"
  | str s => "string " ++ Text.quoted s
  | sequence => "sequence"
  | map => "map"

end Found

inductive Mismatch where
  | wrongType (found : Found) (expected : String)
  | outOfRange (n : Int) (expected : String)
  | badInstant (t : Instant.Trouble)
  | missing (field : String)
  | duplicate (field : String)
  | unknown (field : String) (known : List String)
  /-- A record written as an array of `found` elements, where it has `wanted` fields. -/
  | tooFew (found : Nat) (record : String) (wanted : Nat)
  | tooMany (found : Nat)
deriving DecidableEq, Repr

namespace Mismatch

def ticked (s : String) : String := "`" ++ s ++ "`"

def oneOf : List String → String
  | [] => "there are no fields"
  | [a] => "expected " ++ ticked a
  | [a, b] => "expected " ++ ticked a ++ " or " ++ ticked b
  | names => "expected one of " ++ String.intercalate ", " (names.map ticked)

def message : Mismatch → String
  | wrongType found expected => "invalid type: " ++ found.text ++ ", expected " ++ expected
  | outOfRange n expected =>
    "invalid value: integer " ++ ticked (toString n) ++ ", expected " ++ expected
  | badInstant t => t.message
  | missing field => "missing field " ++ ticked field
  | duplicate field => "duplicate field " ++ ticked field
  | unknown field known => "unknown field " ++ ticked field ++ ", " ++ oneOf known
  | tooFew found record wanted =>
    "invalid length " ++ toString found ++ ", expected struct " ++ record ++ " with " ++
      toString wanted ++ (if wanted = 1 then " element" else " elements")
  | tooMany found =>
    "invalid length " ++ toString found ++ ", expected fewer elements in array"

end Mismatch
end Unseal
