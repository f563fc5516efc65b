/-!
# Base64

The standard alphabet with canonical padding. A text is cut into quads of four bytes; only the
last may be padded, and the bits its padding stands for must be zero.
-/

set_option autoImplicit false

namespace Unseal.Base64

def padding : UInt8 := 61

def symbol (n : Nat) : UInt8 :=
  if n < 26 then UInt8.ofNat (65 + n)
  else if n < 52 then UInt8.ofNat (71 + n)
  else if n < 62 then UInt8.ofNat (n - 4)
  else if n = 62 then 43
  else 47

def value? (b : UInt8) : Option Nat :=
  let n := b.toNat
  if 65 ≤ n ∧ n ≤ 90 then some (n - 65)
  else if 97 ≤ n ∧ n ≤ 122 then some (n - 71)
  else if 48 ≤ n ∧ n ≤ 57 then some (n + 4)
  else if n = 43 then some 62
  else if n = 47 then some 63
  else none

def encode : List UInt8 → List UInt8
  | [] => []
  | [a] => [symbol (a.toNat / 4), symbol (a.toNat % 4 * 16), padding, padding]
  | [a, b] =>
    [symbol (a.toNat / 4), symbol (a.toNat % 4 * 16 + b.toNat / 16),
      symbol (b.toNat % 16 * 4), padding]
  | a :: b :: c :: rest =>
    symbol (a.toNat / 4) :: symbol (a.toNat % 4 * 16 + b.toNat / 16) ::
      symbol (b.toNat % 16 * 4 + c.toNat / 64) :: symbol (c.toNat % 64) :: encode rest

inductive Fault where
  | symbol (byte : UInt8) (offset : Nat)
  | lastSymbol (byte : UInt8) (offset : Nat)
  | length (n : Nat)
  | padding
deriving DecidableEq, Repr

def Fault.message : Fault → String
  | symbol b i => "Invalid symbol " ++ toString b.toNat ++ ", offset " ++ toString i ++ "."
  | lastSymbol b i =>
    "Invalid last symbol " ++ toString b.toNat ++ ", offset " ++ toString i ++ "."
  | length n => "Invalid input length: " ++ toString n
  | padding => "Invalid padding"

def valueAt (i : Nat) (b : UInt8) : Except Fault Nat :=
  match value? b with
  | some n => .ok n
  | none => .error (.symbol b i)

def first (p q : Nat) : UInt8 := UInt8.ofNat (p * 4 + q / 16)
def second (q r : Nat) : UInt8 := UInt8.ofNat (q % 16 * 16 + r / 4)
def third (r s : Nat) : UInt8 := UInt8.ofNat (r % 4 * 64 + s)

/-- Two symbols hold one byte and four bits that must be zero. -/
def oneByte (i : Nat) (a b : UInt8) : Except Fault (List UInt8) := do
  let p ← valueAt i a
  let q ← valueAt (i + 1) b
  if q % 16 = 0 then .ok [first p q] else .error (.lastSymbol b (i + 1))

def twoBytes (i : Nat) (a b c : UInt8) : Except Fault (List UInt8) := do
  let p ← valueAt i a
  let q ← valueAt (i + 1) b
  let r ← valueAt (i + 2) c
  if r % 4 = 0 then .ok [first p q, second q r] else .error (.lastSymbol c (i + 2))

def threeBytes (i : Nat) (a b c d : UInt8) : Except Fault (List UInt8) := do
  let p ← valueAt i a
  let q ← valueAt (i + 1) b
  let r ← valueAt (i + 2) c
  let s ← valueAt (i + 3) d
  .ok [first p q, second q r, third r s]

/-- The last quad, which begins at offset `i` and may be short or padded. -/
def decodeLast (i : Nat) : List UInt8 → Except Fault (List UInt8)
  | [] => .ok []
  | [a] => do
    discard (valueAt i a)
    .error (.length (i + 1))
  | [a, b] => do
    discard (valueAt i a)
    discard (valueAt (i + 1) b)
    .error .padding
  | [a, b, c] => do
    discard (valueAt i a)
    discard (valueAt (i + 1) b)
    if c ≠ padding then discard (valueAt (i + 2) c)
    .error .padding
  | a :: b :: c :: d :: _ =>
    if d ≠ padding then
      if c = padding then do
        discard (valueAt i a)
        discard (valueAt (i + 1) b)
        .error (.symbol c (i + 2))
      else threeBytes i a b c d
    else if c = padding then oneByte i a b
    else twoBytes i a b c

def decodeFrom (i : Nat) : List UInt8 → Except Fault (List UInt8)
  | a :: b :: c :: d :: e :: rest => do
    let bytes ← threeBytes i a b c d
    let more ← decodeFrom (i + 4) (e :: rest)
    .ok (bytes ++ more)
  | last => decodeLast i last

/-- A single byte after the last quad is looked at before all else, so that a stray line end
is named. -/
def decode (bs : List UInt8) : Except Fault (List UInt8) :=
  match bs.getLast? with
  | some b =>
    if bs.length % 4 = 1 ∧ b ≠ padding ∧ value? b = none then
      .error (.symbol b (bs.length - 1))
    else decodeFrom 0 bs
  | none => .ok []

end Unseal.Base64
