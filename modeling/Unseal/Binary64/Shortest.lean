import Unseal.Binary64.Basic

/-!
# Shortest decimal digits of a double

The reals that round to a double form an interval whose ends belong to it exactly when the
significand is even. The digits written are the fewest that name a point of that interval, and
of those the nearest to the value.
-/

set_option autoImplicit false

namespace Unseal.Binary64

/-- A positive decimal `0.d₁d₂… * 10^point` by its digits. -/
structure Decimal where
  digits : List Nat
  point : Int
deriving DecidableEq, Repr

def digitsOf (n : Nat) : List Nat := (Nat.toDigits 10 n).map fun c => c.toNat - 48

def interval (x : Binary64) : Nat × Nat :=
  let v := 4 * x.magnitude
  let up := 2 <<< x.scale
  let down := if x.significand = normal ∧ 0 < x.scale then 1 <<< x.scale else up
  (v - down, v + up)

/-- `p / q * 10^-t` compared on a grid: the multiples of `10^t` beside the value. -/
def neighbours (value den : Nat) (t : Int) : Nat :=
  if 0 ≤ t then value / (den * Nat.pow 10 t.toNat) else value * Nat.pow 10 t.natAbs / den

/-- `d * 10^t` in the same quarters, scaled by `10^|t|` when `t` is negative. -/
def inside (x : Binary64) (d : Nat) (t : Int) : Bool :=
  let (lo, hi) := x.interval
  let den := 4 * unit
  let (p, s) := if 0 ≤ t then (d * Nat.pow 10 t.toNat * den, 1) else (d * den, Nat.pow 10 t.natAbs)
  if x.significand % 2 = 0 then decide (lo * s ≤ p) && decide (p ≤ hi * s)
  else decide (lo * s < p) && decide (p < hi * s)

def distance (x : Binary64) (d : Nat) (t : Int) : Nat :=
  let (p, v) := if 0 ≤ t then (d * Nat.pow 10 t.toNat * unit, x.magnitude)
    else (d * unit, x.magnitude * Nat.pow 10 t.natAbs)
  (p - v) + (v - p)

def onGrid (x : Binary64) (t : Int) : Option Nat :=
  let d := neighbours x.magnitude unit t
  match inside x d t, inside x (d + 1) t with
  | true, true =>
    if x.distance d t < x.distance (d + 1) t then some d
    else if x.distance (d + 1) t < x.distance d t then some (d + 1)
    else some (if d % 2 = 0 then d else d + 1)
  | true, false => some d
  | false, true => some (d + 1)
  | false, false => none

def magnitude10 (x : Binary64) : Int :=
  let q := x.magnitude / unit
  if 0 < q then (digitsOf q).length
  else
    let r := unit / x.magnitude
    1 - ((digitsOf r).length : Int)

def firstGrid (x : Binary64) (top : Int) : Nat → Nat → Option (Nat × Int)
  | 0, _ => none
  | fuel + 1, n =>
    match x.onGrid (top - n) with
    | some d => if d = 0 then firstGrid x top fuel (n + 1) else some (d, top - n)
    | none => firstGrid x top fuel (n + 1)

def dropZeros (ds : List Nat) : List Nat := (ds.reverse.dropWhile (· == 0)).reverse

def shortest (x : Binary64) : Decimal :=
  match x.firstGrid (x.magnitude10 + 1) 21 0 with
  | some (d, t) => let ds := digitsOf d; ⟨dropZeros ds, ds.length + t⟩
  | none => ⟨[0], 1⟩

def positional (x : Binary64) : List Char :=
  let sign := if x.negative then ['-'] else []
  if x.isZero then sign ++ ['0'] else
  let d := x.shortest
  let digits := d.digits.map fun n => Char.ofNat (48 + n)
  let n : Int := d.digits.length
  if d.point ≤ 0 then sign ++ '0' :: '.' :: (List.replicate d.point.natAbs '0' ++ digits)
  else if n ≤ d.point then sign ++ digits ++ List.replicate (d.point - n).toNat '0'
  else sign ++ digits.take d.point.toNat ++ '.' :: digits.drop d.point.toNat

end Unseal.Binary64
