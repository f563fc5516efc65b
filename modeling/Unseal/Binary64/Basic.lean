/-!
# Finite binary floating-point numbers

A number is a sign and a significand below `2^53` shifted left by a scale and divided by
`2^1074`, so every finite double is a pair of naturals and all arithmetic on it is exact
arithmetic on naturals followed by one rounding to nearest, ties to the even significand.
Overflow is `none`; there are no infinities and no NaN here.
-/

set_option autoImplicit false

namespace Unseal

/-- The value is `significand * 2^scale / 2^1074`, negated if `negative`. In normal form the
scale is zero or the significand has all its 53 bits. -/
structure Binary64 where
  negative : Bool
  significand : Nat
  scale : Nat
deriving DecidableEq, Repr, Inhabited

namespace Binary64

def zero (negative : Bool) : Binary64 := ⟨negative, 0, 0⟩

def isZero (x : Binary64) : Bool := x.significand == 0

def magnitude (x : Binary64) : Nat := x.significand <<< x.scale

def unit : Nat := 1 <<< 1074

def normal : Nat := 0x10000000000000

/-- Nearest integer to `num / den`, a half going to the even neighbour. -/
def roundDiv (num den : Nat) : Nat :=
  let q := num / den
  let r := num % den
  if 2 * r < den then q
  else if den < 2 * r then q + 1
  else if q % 2 = 0 then q else q + 1

/-- The scale at which `num / den`, in units of `2^-1074`, has at most 53 bits. -/
def scaleFor (num den : Nat) : Nat :=
  let q := num / den
  if q = 0 then 0 else Nat.log2 q + 1 - 53

def ofRatio (negative : Bool) (num den : Nat) : Option Binary64 :=
  let n := num * unit
  let k := scaleFor n den
  let m := roundDiv n (den <<< k)
  let x : Binary64 := if m = 2 * normal then ⟨negative, normal, k + 1⟩ else ⟨negative, m, k⟩
  if x.scale ≤ 2045 then some x else none

def ofInt (n : Int) : Binary64 := (ofRatio (decide (n < 0)) n.natAbs 1).getD (zero false)

def mul (x y : Binary64) : Option Binary64 :=
  ofRatio (x.negative != y.negative) (x.magnitude * y.magnitude) (unit * unit)

def div (x y : Binary64) : Option Binary64 :=
  if y.isZero then none
  else ofRatio (x.negative != y.negative) x.magnitude y.magnitude

def units (x : Binary64) : Int := if x.negative then -(x.magnitude : Int) else x.magnitude

def sameValue (x y : Binary64) : Bool := x.units == y.units

def isIntegral (x : Binary64) : Bool := x.magnitude % unit == 0

def pow10 (n : Nat) : Binary64 := (ofRatio false (Nat.pow 10 n) 1).getD (zero false)

/-- `significand * 10^exponent` by one rounded multiplication or division by a power of ten,
in steps of `10^308` when the exponent is below `-308`. The result is not always the double
nearest to the exact decimal. -/
def scaleDecimal (x : Binary64) (exponent : Int) : Option Binary64 :=
  let e := exponent.natAbs
  if x.isZero then some x
  else if 0 ≤ exponent then
    if e ≤ 308 then mul x (pow10 e) else none
  else if e ≤ 308 then div x (pow10 e)
  else (div x (pow10 308)).bind fun y =>
    if y.isZero then some y
    else if e - 308 ≤ 308 then div y (pow10 (e - 308))
    else some (zero x.negative)

end Binary64
end Unseal
