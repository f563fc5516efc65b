import Unseal.Json.Basic
import Unseal.Json.Cursor

/-!
# Reading JSON numbers

An integer literal of at most 64 bits is an integer, anything else a float. A float's digits
are gathered into a 64-bit significand as far as they fit, later digits only count, and the
significand is scaled by one power of ten; so a long literal need not read as the nearest
double.
-/

set_option autoImplicit false

namespace Unseal.Json

def isDigit (c : Char) : Bool := decide ('0' ≤ c) && decide (c ≤ '9')

def digitValue (c : Char) : Nat := c.toNat - 48

/-- Appends digits to `value` while the result stays within `limit`; the rest are left. -/
def absorb (limit : Nat) : Nat → List Char → Nat × List Char
  | value, [] => (value, [])
  | value, d :: ds =>
    if value * 10 + digitValue d ≤ limit then absorb limit (value * 10 + digitValue d) ds
    else (value, d :: ds)

def significandLimit : Nat := 0xffffffffffffffff

def exponentLimit : Nat := 0x7fffffff

def floatNumber (negative : Bool) (significand : Nat) (exponent : Int) : Option Number :=
  (Binary64.scaleDecimal (Binary64.ofInt significand) exponent).map fun x =>
    .float { x with negative := negative }

/-- An integer literal: negative zero and what 64 bits cannot hold become floats. -/
def integerNumber (negative : Bool) (significand : Nat) : Number :=
  if negative then
    if significand = 0 ∨ 0x8000000000000000 < significand then
      .float { Binary64.ofInt significand with negative := true }
    else .int (-significand)
  else .int significand

def numberAt (n : Option Number) (c : Cursor) : Except Fault (Number × Cursor) :=
  match n with
  | some n => .ok (n, c)
  | none => .error ⟨.numberOutOfRange, c.place⟩

def floatAt (negative : Bool) (significand : Nat) (exponent : Int) (c : Cursor) :
    Except Fault (Number × Cursor) :=
  numberAt (floatNumber negative significand exponent) c

def readExponentDigits (negative : Bool) (significand : Nat) (exponent : Int) (minus : Bool)
    (c : Cursor) : Except Fault (Number × Cursor) :=
  match c.rest with
  | [] => .error ⟨.eofInValue, c.place⟩
  | d :: _ =>
    if isDigit d then
      let ds := c.rest.takeWhile isDigit
      let next : Cursor := ⟨c.rest.dropWhile isDigit, c.place.skip ds.length⟩
      match absorb exponentLimit 0 ds with
      | (e, []) => floatAt negative significand (if minus then exponent - e else exponent + e) next
      | (_, _ :: more) =>
        if significand ≠ 0 ∧ !minus then
          .error ⟨.numberOutOfRange, c.place.skip (ds.length - more.length)⟩
        else .ok (.float (.zero negative), next)
    else .error ⟨.invalidNumber, c.peekPlace⟩

def readExponent (negative : Bool) (significand : Nat) (exponent : Int) (c : Cursor) :
    Except Fault (Number × Cursor) :=
  match c.rest with
  | '+' :: cs => readExponentDigits negative significand exponent false ⟨cs, c.place.skip 1⟩
  | '-' :: cs => readExponentDigits negative significand exponent true ⟨cs, c.place.skip 1⟩
  | _ => readExponentDigits negative significand exponent false c

def readFraction (negative : Bool) (significand : Nat) (exponent : Int) (c : Cursor) :
    Except Fault (Number × Cursor) :=
  let ds := c.rest.takeWhile isDigit
  if ds.isEmpty then
    .error (if c.rest.isEmpty then ⟨.eofInValue, c.place⟩ else ⟨.invalidNumber, c.peekPlace⟩)
  else
    let (significand, left) := absorb significandLimit significand ds
    let exponent := exponent - (ds.length - left.length : Nat)
    let next : Cursor := ⟨c.rest.dropWhile isDigit, c.place.skip ds.length⟩
    match next.rest with
    | 'e' :: cs => readExponent negative significand exponent ⟨cs, next.place.skip 1⟩
    | 'E' :: cs => readExponent negative significand exponent ⟨cs, next.place.skip 1⟩
    | _ => floatAt negative significand exponent next

/-- After the digits before the point, of which `dropped` did not fit the significand. -/
def readTail (negative : Bool) (significand dropped : Nat) (c : Cursor) :
    Except Fault (Number × Cursor) :=
  match c.rest with
  | '.' :: cs => readFraction negative significand dropped ⟨cs, c.place.skip 1⟩
  | 'e' :: cs => readExponent negative significand dropped ⟨cs, c.place.skip 1⟩
  | 'E' :: cs => readExponent negative significand dropped ⟨cs, c.place.skip 1⟩
  | _ =>
    if dropped = 0 then .ok (integerNumber negative significand, c)
    else floatAt negative significand dropped c

def readNumber (negative : Bool) (c : Cursor) : Except Fault (Number × Cursor) :=
  match c.rest with
  | [] => .error ⟨.eofInValue, c.place⟩
  | d :: cs =>
    if d = '0' then
      let next : Cursor := ⟨cs, c.place.skip 1⟩
      match cs with
      | e :: _ => if isDigit e then .error ⟨.invalidNumber, next.peekPlace⟩
        else readTail negative 0 0 next
      | [] => readTail negative 0 0 next
    else if isDigit d then
      let ds := c.rest.takeWhile isDigit
      let (significand, left) := absorb significandLimit 0 ds
      readTail negative significand left.length
        ⟨c.rest.dropWhile isDigit, c.place.skip ds.length⟩
    else .error ⟨.invalidNumber, c.peekPlace⟩

def skipExponent (c : Cursor) : Except Fault Cursor :=
  let c : Cursor := match c.rest with
    | '+' :: cs => ⟨cs, c.place.skip 1⟩
    | '-' :: cs => ⟨cs, c.place.skip 1⟩
    | _ => c
  match c.rest with
  | [] => .error ⟨.invalidNumber, c.place⟩
  | d :: _ =>
    if isDigit d then
      .ok ⟨c.rest.dropWhile isDigit, c.place.skip (c.rest.takeWhile isDigit).length⟩
    else .error ⟨.invalidNumber, c.peekPlace⟩

def skipFraction (c : Cursor) : Except Fault Cursor :=
  let ds := c.rest.takeWhile isDigit
  if ds.isEmpty then .error ⟨.invalidNumber, c.peekPlace⟩
  else
    let next : Cursor := ⟨c.rest.dropWhile isDigit, c.place.skip ds.length⟩
    match next.rest with
    | 'e' :: cs => skipExponent ⟨cs, next.place.skip 1⟩
    | 'E' :: cs => skipExponent ⟨cs, next.place.skip 1⟩
    | _ => .ok next

def skipTail (c : Cursor) : Except Fault Cursor :=
  match c.rest with
  | '.' :: cs => skipFraction ⟨cs, c.place.skip 1⟩
  | 'e' :: cs => skipExponent ⟨cs, c.place.skip 1⟩
  | 'E' :: cs => skipExponent ⟨cs, c.place.skip 1⟩
  | _ => .ok c

/-- Past a number that nobody reads, its sign already read. No range is checked. -/
def skipNumber (c : Cursor) : Except Fault Cursor :=
  match c.rest with
  | [] => .error ⟨.invalidNumber, c.place⟩
  | d :: cs =>
    if d = '0' then
      let next : Cursor := ⟨cs, c.place.skip 1⟩
      match cs with
      | e :: _ => if isDigit e then .error ⟨.invalidNumber, next.peekPlace⟩ else skipTail next
      | [] => skipTail next
    else if isDigit d then
      skipTail ⟨c.rest.dropWhile isDigit, c.place.skip (c.rest.takeWhile isDigit).length⟩
    else .error ⟨.invalidNumber, c.peekPlace⟩

end Unseal.Json
