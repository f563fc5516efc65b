/-!
# UTF-8

Decoding names the first byte that belongs to no character and how many bytes there were the
beginning of one. Surrogates and spellings longer than needed are refused.
-/

set_option autoImplicit false

namespace Unseal.Utf8

def encode (cs : List Char) : List UInt8 := cs.flatMap String.utf8EncodeChar

/-- Where decoding stopped. No length means that the bytes end inside a character. -/
structure Fault where
  index : Nat
  length : Option Nat
deriving DecidableEq, Repr

def Fault.message (f : Fault) : String :=
  match f.length with
  | some n => "invalid utf-8 sequence of " ++ toString n ++ " bytes from index " ++ toString f.index
  | none => "incomplete utf-8 byte sequence from index " ++ toString f.index

def isTail (b : UInt8) : Bool := 0x80 ≤ b && b ≤ 0xBF

/-- The bytes that may follow the first byte of three. -/
def isSecondOfThree (a b : UInt8) : Bool :=
  if a == 0xE0 then 0xA0 ≤ b && b ≤ 0xBF
  else if a == 0xED then 0x80 ≤ b && b ≤ 0x9F
  else isTail b

def isSecondOfFour (a b : UInt8) : Bool :=
  if a == 0xF0 then 0x90 ≤ b && b ≤ 0xBF
  else if a == 0xF4 then 0x80 ≤ b && b ≤ 0x8F
  else isTail b

def pair (a b : UInt8) : Char := Char.ofNat (a.toNat % 32 * 64 + b.toNat % 64)

def triple (a b c : UInt8) : Char :=
  Char.ofNat ((a.toNat % 16 * 64 + b.toNat % 64) * 64 + c.toNat % 64)

def quadruple (a b c d : UInt8) : Char :=
  Char.ofNat (((a.toNat % 8 * 64 + b.toNat % 64) * 64 + c.toNat % 64) * 64 + d.toNat % 64)

def decodeFrom (i : Nat) : List UInt8 → Except Fault (List Char)
  | [] => .ok []
  | a :: rest =>
    if a < 0x80 then (decodeFrom (i + 1) rest).map (Char.ofNat a.toNat :: ·)
    else if a < 0xC2 then .error ⟨i, some 1⟩
    else if a < 0xE0 then
      match rest with
      | [] => .error ⟨i, none⟩
      | b :: rest =>
        if isTail b then (decodeFrom (i + 2) rest).map (pair a b :: ·)
        else .error ⟨i, some 1⟩
    else if a < 0xF0 then
      match rest with
      | [] => .error ⟨i, none⟩
      | [b] => .error ⟨i, if isSecondOfThree a b then none else some 1⟩
      | b :: c :: rest =>
        if !isSecondOfThree a b then .error ⟨i, some 1⟩
        else if !isTail c then .error ⟨i, some 2⟩
        else (decodeFrom (i + 3) rest).map (triple a b c :: ·)
    else if a < 0xF5 then
      match rest with
      | [] => .error ⟨i, none⟩
      | [b] => .error ⟨i, if isSecondOfFour a b then none else some 1⟩
      | [b, c] =>
        .error ⟨i, if !isSecondOfFour a b then some 1 else if isTail c then none else some 2⟩
      | b :: c :: d :: rest =>
        if !isSecondOfFour a b then .error ⟨i, some 1⟩
        else if !isTail c then .error ⟨i, some 2⟩
        else if !isTail d then .error ⟨i, some 3⟩
        else (decodeFrom (i + 4) rest).map (quadruple a b c d :: ·)
    else .error ⟨i, some 1⟩

def decode (bytes : List UInt8) : Except Fault String := (decodeFrom 0 bytes).map String.ofList

end Unseal.Utf8
