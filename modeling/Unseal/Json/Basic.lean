import Unseal.Binary64.Basic

/-!
# JSON values

An object is a list of members. Objects built here keep their keys strictly increasing by
code point, so equality of values does not depend on the order in which members arrived, and
a key that arrives twice keeps the later value.
-/

set_option autoImplicit false

namespace Unseal

/-- An integer literal and a fraction are different numbers: `1` is not `1.0`. -/
inductive Number where
  | int (n : Int)
  | float (x : Binary64)
deriving DecidableEq, Repr, Inhabited

inductive Json where
  | null
  | bool (b : Bool)
  | num (n : Number)
  | str (s : String)
  | arr (items : List Json)
  | obj (members : List (String × Json))
deriving Repr, Inhabited

namespace Number

/-- The integers a JSON number keeps as integers: those of 64 bits, signed or unsigned. -/
def inRange (n : Int) : Bool := decide (-0x8000000000000000 ≤ n) && decide (n ≤ 0xffffffffffffffff)

def toBinary64 : Number → Binary64
  | int n => Binary64.ofInt n
  | float x => x

def units : Number → Int
  | int n => n * Binary64.unit
  | float x => x.units

def isIntegral : Number → Bool
  | int _ => true
  | float x => x.isIntegral

end Number

inductive Kind where
  | null | boolean | number | string | array | object
deriving DecidableEq, Repr, Inhabited

def Kind.name : Kind → String
  | null => "null"
  | boolean => "boolean"
  | number => "number"
  | string => "string"
  | array => "array"
  | object => "object"

namespace Json

def kind : Json → Kind
  | null => .null
  | bool _ => .boolean
  | num _ => .number
  | str _ => .string
  | arr _ => .array
  | obj _ => .object

def isObject : Json → Bool
  | obj _ => true
  | _ => false

mutual
/-- Equality of values, members compared in their order. The two zeros are equal and an integer
never equals a float. -/
def same : Json → Json → Bool
  | null, null => true
  | bool a, bool b => a == b
  | num (.int a), num (.int b) => a == b
  | num (.float a), num (.float b) => a.sameValue b
  | str a, str b => a == b
  | arr as, arr bs => sameItems as bs
  | obj as, obj bs => sameMembers as bs
  | _, _ => false

def sameItems : List Json → List Json → Bool
  | [], [] => true
  | a :: as, b :: bs => same a b && sameItems as bs
  | _, _ => false

def sameMembers : List (String × Json) → List (String × Json) → Bool
  | [], [] => true
  | (k, a) :: as, (l, b) :: bs => k == l && (same a b && sameMembers as bs)
  | _, _ => false
end

end Json

abbrev Members (α : Type) := List (String × α)

namespace Members

variable {α : Type}

def find? (key : String) : Members α → Option α
  | [] => none
  | (k, v) :: rest => if k = key then some v else find? key rest

def contains (key : String) (ms : Members α) : Bool := (ms.find? key).isSome

def keys (ms : Members α) : List String := ms.map (·.1)

/-- Puts a member in its place; a key already there takes the new value. -/
def insert (key : String) (value : α) : Members α → Members α
  | [] => [(key, value)]
  | (k, v) :: rest =>
    if key = k then (key, value) :: rest
    else if key < k then (key, value) :: (k, v) :: rest
    else (k, v) :: insert key value rest

def erase (key : String) : Members α → Members α
  | [] => []
  | (k, v) :: rest => if k = key then rest else (k, v) :: erase key rest

/-- Members in any order to members in key order, the last of equal keys winning. -/
def ofList (ms : List (String × α)) : Members α :=
  ms.foldl (fun acc m => Members.insert m.1 m.2 acc) []

end Members

namespace Json

def mkObj (ms : List (String × Json)) : Json := .obj (Members.ofList ms)

def get? (key : String) : Json → Option Json
  | obj ms => Members.find? key ms
  | _ => none

end Json
end Unseal
