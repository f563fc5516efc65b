import Unseal.Json.Cursor

/-!
# Reading the inside of a JSON string

One pass over the characters after the opening quote. What an escape has left open is the
state: a backslash, the digits of a `\u` escape still to come, or a leading surrogate that
must be followed by a trailing one. Skipping a string checks its escapes less: any four
hexadecimal digits do.
-/

set_option autoImplicit false

namespace Unseal.Json

def hexValue? (c : Char) : Option Nat :=
  if '0' ≤ c ∧ c ≤ '9' then some (c.toNat - 48)
  else if 'a' ≤ c ∧ c ≤ 'f' then some (c.toNat - 87)
  else if 'A' ≤ c ∧ c ≤ 'F' then some (c.toNat - 55)
  else none

def simpleEscape? (c : Char) : Option Char :=
  if c = '"' then some '"'
  else if c = '\\' then some '\\'
  else if c = '/' then some '/'
  else if c = 'b' then some '\x08'
  else if c = 'f' then some '\x0c'
  else if c = 'n' then some '\n'
  else if c = 'r' then some '\r'
  else if c = 't' then some '\t'
  else none

def isLeadSurrogate (n : Nat) : Bool := decide (0xD800 ≤ n) && decide (n ≤ 0xDBFF)

def isTrailSurrogate (n : Nat) : Bool := decide (0xDC00 ≤ n) && decide (n ≤ 0xDFFF)

def pairChar (lead trail : Nat) : Char :=
  Char.ofNat (0x10000 + (lead - 0xD800) * 0x400 + (trail - 0xDC00))

/-- What the characters read so far leave open. -/
inductive Pending where
  | plain
  | escape
  /-- `left` bytes of a `\u` escape are to come; `lead` is a surrogate waiting for it. -/
  | hex (lead : Option Nat) (left value : Nat) (bad : Bool)
  | lead (n : Nat)
  | leadEscape (n : Nat)
deriving DecidableEq, Repr

/-- What four hexadecimal digits mean: a character, a surrogate to be completed, or a fault. -/
def completeHex (lead : Option Nat) (value : Nat) (bad : Bool) : Except Problem (Sum Char Nat) :=
  if bad then .error .invalidEscape
  else match lead with
    | none =>
      if isTrailSurrogate value then .error .loneSurrogate
      else if isLeadSurrogate value then .ok (.inr value)
      else .ok (.inl (Char.ofNat value))
    | some n =>
      if isTrailSurrogate value then .ok (.inl (pairChar n value)) else .error .loneSurrogate

def readStringFrom : Pending → List Char → List Char → Place → Except Fault (List Char × Cursor)
  | _, _, [], p => .error ⟨.eofInString, p⟩
  | .plain, acc, c :: cs, p =>
    if c = '"' then .ok (acc.reverse, ⟨cs, p.advance c⟩)
    else if c = '\\' then readStringFrom .escape acc cs (p.advance c)
    else if c.toNat < 0x20 then .error ⟨.controlCharacter, p.advance c⟩
    else readStringFrom .plain (c :: acc) cs (p.advance c)
  | .escape, acc, c :: cs, p =>
    match simpleEscape? c with
    | some x => readStringFrom .plain (x :: acc) cs (p.advance c)
    | none =>
      if c = 'u' then readStringFrom (.hex none 4 0 false) acc cs (p.advance c)
      else .error ⟨.invalidEscape, p.peek (c :: cs)⟩
  | .hex lead left value bad, acc, c :: cs, p =>
    if c.utf8Size = 1 then
      let bad := bad || (hexValue? c).isNone
      let value := value * 16 + (hexValue? c).getD 0
      let p := p.advance c
      if left ≤ 1 then
        match completeHex lead value bad with
        | .ok (.inl x) => readStringFrom .plain (x :: acc) cs p
        | .ok (.inr n) => readStringFrom (.lead n) acc cs p
        | .error e => .error ⟨e, p⟩
      else readStringFrom (.hex lead (left - 1) value bad) acc cs p
    else if left ≤ c.utf8Size then .error ⟨.invalidEscape, p.skip left⟩
    else readStringFrom (.hex lead (left - c.utf8Size) value true) acc cs (p.advance c)
  | .lead n, acc, c :: cs, p =>
    if c = '\\' then readStringFrom (.leadEscape n) acc cs (p.advance c)
    else .error ⟨.unexpectedEndOfHexEscape, p.peek (c :: cs)⟩
  | .leadEscape n, acc, c :: cs, p =>
    if c = 'u' then readStringFrom (.hex (some n) 4 0 false) acc cs (p.advance c)
    else .error ⟨.unexpectedEndOfHexEscape, p.peek (c :: cs)⟩

def readString (c : Cursor) : Except Fault (String × Cursor) :=
  match readStringFrom .plain [] c.rest c.place with
  | .ok (cs, next) => .ok (String.ofList cs, next)
  | .error f => .error f

def skipStringFrom : Pending → List Char → Place → Except Fault Cursor
  | _, [], p => .error ⟨.eofInString, p⟩
  | .plain, c :: cs, p =>
    if c = '"' then .ok ⟨cs, p.advance c⟩
    else if c = '\\' then skipStringFrom .escape cs (p.advance c)
    else if c.toNat < 0x20 then .error ⟨.controlCharacter, p⟩
    else skipStringFrom .plain cs (p.advance c)
  | .escape, c :: cs, p =>
    if (simpleEscape? c).isSome then skipStringFrom .plain cs (p.advance c)
    else if c = 'u' then skipStringFrom (.hex none 4 0 false) cs (p.advance c)
    else .error ⟨.invalidEscape, p.peek (c :: cs)⟩
  | .hex lead left value bad, c :: cs, p =>
    if c.utf8Size = 1 then
      let bad := bad || (hexValue? c).isNone
      let p := p.advance c
      if left ≤ 1 then
        if bad then .error ⟨.invalidEscape, p⟩ else skipStringFrom .plain cs p
      else skipStringFrom (.hex lead (left - 1) value bad) cs p
    else if left ≤ c.utf8Size then .error ⟨.invalidEscape, p.skip left⟩
    else skipStringFrom (.hex lead (left - c.utf8Size) value true) cs (p.advance c)
  | .lead _, c :: cs, p => skipStringFrom .plain cs (p.advance c)
  | .leadEscape _, c :: cs, p => skipStringFrom .plain cs (p.advance c)

def skipString (c : Cursor) : Except Fault Cursor := skipStringFrom .plain c.rest c.place

end Unseal.Json
