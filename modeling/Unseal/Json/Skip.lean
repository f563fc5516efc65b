import Unseal.Json.Reader

/-!
# Skipping values

A member that no field wants is skipped, not read: nesting is unlimited, numbers may be out of
range and surrogates unpaired. The open containers are a stack, innermost first.
-/

set_option autoImplicit false

namespace Unseal.Json

inductive Bracket where
  | list | object
deriving DecidableEq, Repr

def Bracket.close : Bracket → Char
  | list => ']'
  | object => '\x7d'

def Bracket.eof : Bracket → Problem
  | list => .eofInList
  | object => .eofInObject

def Bracket.commaOrEnd : Bracket → Problem
  | list => .expectedListCommaOrEnd
  | object => .expectedObjectCommaOrEnd

def skipKey (c : Cursor) : Except Fault Cursor := do
  let c := c.skipBlank
  match c.rest with
  | [] => .error ⟨.eofInObject, c.place⟩
  | x :: _ =>
    if x = '"' then do
      let c ← skipString c.eat
      readColon c
    else .error ⟨.keyMustBeString, c.peekPlace⟩

def skipStart (c : Cursor) : Except Fault (Option Bracket × Cursor) :=
  match c.rest with
  | [] => .error ⟨.eofInValue, c.place⟩
  | x :: _ =>
    if x = '"' then (skipString c.eat).map (none, ·)
    else if x = '[' then .ok (some .list, c.eat)
    else if x = '\x7b' then .ok (some .object, c.eat)
    else if x = '-' then (skipNumber c.eat).map (none, ·)
    else if isDigit x then (skipNumber c).map (none, ·)
    else if x = 'n' then (readIdent afterNull c.eat).map (none, ·)
    else if x = 't' then (readIdent afterTrue c.eat).map (none, ·)
    else if x = 'f' then (readIdent afterFalse c.eat).map (none, ·)
    else .error ⟨.expectedValue, c.peekPlace⟩

/-- To where the next value begins, closing what ends before it. `after` says that a value has
just been read, so that a comma may stand here. -/
def skipClose : Bool → List Bracket → Cursor → Except Fault (List Bracket × Cursor)
  | _, [], c => .ok ([], c)
  | after, b :: stack, c => do
    let c := c.skipBlank
    match c.rest with
    | [] => .error ⟨b.eof, c.place⟩
    | x :: _ =>
      if x = b.close then skipClose true stack c.eat
      else if after then
        if x = ',' then
          match b with
          | .list => .ok (b :: stack, c.eat)
          | .object => do
            let c ← skipKey c.eat
            .ok (b :: stack, c)
        else .error ⟨b.commaOrEnd, c.peekPlace⟩
      else
        match b with
        | .list => .ok (b :: stack, c)
        | .object => do
          let c ← skipKey c
          .ok (b :: stack, c)

/-- Past the value here and all that encloses it on the stack. -/
def skipValueFrom : Nat → List Bracket → Cursor → Except Fault Cursor
  | 0, _, c => .error ⟨.recursionLimit, c.place⟩
  | fuel + 1, stack, c => do
    let (opened, c) ← skipStart c.skipBlank
    let (stack, c) ← match opened with
      | some b => skipClose false (b :: stack) c
      | none => skipClose true stack c
    match stack with
    | [] => .ok c
    | _ :: _ => skipValueFrom fuel stack c

def skipValue (c : Cursor) : Except Fault Cursor := skipValueFrom (c.rest.length + 1) [] c

end Unseal.Json
