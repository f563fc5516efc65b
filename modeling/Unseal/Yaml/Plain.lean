import Unseal.Binary64.Basic

/-!
# Plain scalars as values

What an unquoted scalar stands for: nothing, a truth value, a number, or else its own text.
Digits after a leading zero are text.
-/

set_option autoImplicit false

namespace Unseal.Yaml

inductive Meaning where
  | null
  | bool (b : Bool)
  | int (n : Int)
  | float (x : Binary64)
  /-- Infinity, its opposite, or no number at all. -/
  | nonFinite (name : String)
  | text
deriving DecidableEq, Repr

def isNull (s : String) : Bool := ["null", "Null", "NULL", "~"].contains s

def bool? (s : String) : Option Bool :=
  if ["true", "True", "TRUE"].contains s then some true
  else if ["false", "False", "FALSE"].contains s then some false
  else none

def digit? (c : Char) : Option Nat :=
  if '0' ≤ c ∧ c ≤ '9' then some (c.toNat - 48)
  else if 'a' ≤ c ∧ c ≤ 'z' then some (c.toNat - 87)
  else if 'A' ≤ c ∧ c ≤ 'Z' then some (c.toNat - 55)
  else none

def natural? (base : Nat) : List Char → Option Nat
  | [] => none
  | cs => cs.foldl (fun acc c => do
      let n ← acc
      let d ← digit? c
      if d < base then some (n * base + d) else none) (some 0)

def isPadded (cs : List Char) : Bool :=
  let digits := match cs with
    | '-' :: cs => cs
    | '+' :: cs => cs
    | cs => cs
  match digits with
  | '0' :: d :: ds => (d :: ds).all Char.isDigit
  | _ => false

def based? : List Char → Option Nat
  | '0' :: 'x' :: cs => natural? 16 cs
  | '0' :: 'o' :: cs => natural? 8 cs
  | '0' :: 'b' :: cs => natural? 2 cs
  | _ => none

/-- Integers of at most 128 bits, signed or unsigned. -/
def int? (cs : List Char) : Option Int :=
  let decimal (cs' : List Char) := if isPadded cs then none else natural? 10 cs'
  match cs with
  | '-' :: cs =>
    ((based? cs).or (decimal cs)).bind fun n =>
      if n ≤ 0x80000000000000000000000000000000 then some (-(n : Int)) else none
  | _ =>
    let digits := match cs with
      | '+' :: ds => ds
      | ds => ds
    ((based? digits).or (decimal digits)).bind fun n =>
      if n ≤ 0xffffffffffffffffffffffffffffffff then some (n : Int) else none

/-- The parts of a decimal: its digits, and the power of ten they are multiplied by. -/
def decimal? (cs : List Char) : Option (Nat × Int) := do
  let whole := cs.takeWhile Char.isDigit
  let rest := cs.drop whole.length
  let (fraction, rest) := match rest with
    | '.' :: after =>
      let ds := after.takeWhile Char.isDigit
      (ds, after.drop ds.length)
    | rest => ([], rest)
  let digits ← natural? 10 (whole ++ fraction)
  let shift : Int := -(fraction.length : Int)
  match rest with
  | [] => some (digits, shift)
  | e :: power =>
    if e = 'e' ∨ e = 'E' then
      let (negative, ds) := match power with
        | '-' :: ds => (true, ds)
        | '+' :: ds => (false, ds)
        | ds => (false, ds)
      if ds.all Char.isDigit then
        let n ← natural? 10 ds
        some (digits, if negative then shift - n else shift + n)
      else none
    else none

/-- The double nearest to a decimal; none if it is too large. Far beyond the range the power
is not worked out. -/
def nearest? (negative : Bool) (digits : Nat) (power : Int) : Option Binary64 :=
  let size : Int := (Nat.toDigits 10 digits).length + power
  if digits = 0 ∨ size < -400 then some (.zero negative)
  else if 400 < size then none
  else if 0 ≤ power then Binary64.ofRatio negative (digits * Nat.pow 10 power.toNat) 1
  else Binary64.ofRatio negative digits (Nat.pow 10 (-power).toNat)

def float? (cs : List Char) : Option Binary64 :=
  match cs with
  | '-' :: cs => (decimal? cs).bind fun (n, e) => nearest? true n e
  | '+' :: cs => (decimal? cs).bind fun (n, e) => nearest? false n e
  | cs => (decimal? cs).bind fun (n, e) => nearest? false n e

def nonFinite? (s : String) : Option String :=
  if [".inf", ".Inf", ".INF", "+.inf", "+.Inf", "+.INF"].contains s then some "inf"
  else if ["-.inf", "-.Inf", "-.INF"].contains s then some "-inf"
  else if [".nan", ".NaN", ".NAN"].contains s then some "NaN"
  else none

def realMeaning? (s : String) : Option Meaning :=
  ((nonFinite? s).map Meaning.nonFinite).or ((float? s.toList).map Meaning.float)

def meaning (s : String) : Meaning :=
  if s.isEmpty || isNull s then .null
  else match bool? s with
    | some b => .bool b
    | none =>
      match int? s.toList with
      | some n => .int n
      | none =>
        if isPadded s.toList then .text else (realMeaning? s).getD .text

end Unseal.Yaml
