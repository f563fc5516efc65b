import Unseal.Json.Basic

/-!
# Equality in schemas

Schemas compare numbers as doubles, so `1` equals `1.0` and large integers equal their
neighbours. A constant allows a difference below `2^-52`.
-/

set_option autoImplicit false

namespace Unseal

namespace Number

def equals (a b : Number) : Bool := a.toBinary64.sameValue b.toBinary64

/-- The difference of the doubles, rounded to a double, is less than `2^-52`. -/
def isNear (a b : Number) : Bool :=
  let gap := (a.toBinary64.units - b.toBinary64.units).natAbs
  match Binary64.ofRatio false gap Binary64.unit with
  | some d => decide (d.magnitude <<< 52 < Binary64.unit)
  | none => false

/-- By an integer, doubles are divided exactly. By a fraction, the rounded quotient must exceed
an integer by less than `2^-52`, and any negative quotient will do; a quotient too large to be
a double is found exactly. -/
def isMultiple (divisor x : Number) : Bool :=
  let d := divisor.toBinary64
  let a := x.toBinary64
  if d.isIntegral then a.units % d.units == 0
  else match a.div d with
    | some q => q.negative || decide ((q.magnitude % Binary64.unit) <<< 52 < Binary64.unit)
    | none => a.units % d.units == 0

end Number

namespace Json

mutual
def equals : Json → Json → Bool
  | null, null => true
  | bool a, bool b => a == b
  | num a, num b => a.equals b
  | str a, str b => a == b
  | arr as, arr bs => equalItems as bs
  | obj as, obj bs => equalMembers as bs
  | _, _ => false

def equalItems : List Json → List Json → Bool
  | [], [] => true
  | a :: as, b :: bs => equals a b && equalItems as bs
  | _, _ => false

def equalMembers : List (String × Json) → List (String × Json) → Bool
  | [], [] => true
  | (k, a) :: as, (l, b) :: bs => k == l && (equals a b && equalMembers as bs)
  | _, _ => false
end

def admits : Json → Json → Bool
  | num a, num b => a.isNear b
  | a, b => a.equals b

def distinct : List Json → Bool
  | [] => true
  | v :: vs => !vs.any v.equals && distinct vs

end Json
end Unseal
