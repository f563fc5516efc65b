import Unseal.Json.StringText
import Unseal.Json.NumberText

/-!
# Reading JSON text

The steps between the parts of a container stand alone, because typed records are read with
the same steps. Containers nest at most 127 deep. Recursion is on a fuel that the length of
the text bounds; `read` supplies enough of it.
-/

set_option autoImplicit false

namespace Unseal.Json

inductive Next (α : Type) where
  | stop (c : Cursor)
  | part (a : α)

def nextItem (first : Bool) (c : Cursor) : Except Fault (Next Cursor) :=
  let c := c.skipBlank
  match c.rest with
  | [] => .error ⟨.eofInList, c.place⟩
  | x :: _ =>
    if x = ']' then .ok (.stop c)
    else if first then .ok (.part c)
    else if x = ',' then
      let c := c.eat.skipBlank
      match c.rest with
      | [] => .error ⟨.eofInValue, c.place⟩
      | y :: _ => if y = ']' then .error ⟨.trailingComma, c.peekPlace⟩ else .ok (.part c)
    else .error ⟨.expectedListCommaOrEnd, c.peekPlace⟩

def nextKeyQuote (first : Bool) (c : Cursor) : Except Fault (Next Cursor) :=
  let c := c.skipBlank
  match c.rest with
  | [] => .error ⟨.eofInObject, c.place⟩
  | x :: _ =>
    if x = '\x7d' then .ok (.stop c)
    else if first then
      if x = '"' then .ok (.part c) else .error ⟨.keyMustBeString, c.peekPlace⟩
    else if x = ',' then
      let c := c.eat.skipBlank
      match c.rest with
      | [] => .error ⟨.eofInValue, c.place⟩
      | y :: _ =>
        if y = '"' then .ok (.part c)
        else if y = '\x7d' then .error ⟨.trailingComma, c.peekPlace⟩
        else .error ⟨.keyMustBeString, c.peekPlace⟩
    else .error ⟨.expectedObjectCommaOrEnd, c.peekPlace⟩

def nextKey (first : Bool) (c : Cursor) : Except Fault (Next (String × Cursor)) :=
  match nextKeyQuote first c with
  | .error f => .error f
  | .ok (.stop c) => .ok (.stop c)
  | .ok (.part c) =>
    match readString c.eat with
    | .ok k => .ok (.part k)
    | .error f => .error f

def readColon (c : Cursor) : Except Fault Cursor :=
  let c := c.skipBlank
  match c.rest with
  | [] => .error ⟨.eofInObject, c.place⟩
  | x :: _ => if x = ':' then .ok c.eat else .error ⟨.expectedColon, c.peekPlace⟩

/-- The end of a list. The cursor moves even when something else is found there. -/
def closeList (c : Cursor) : Cursor × Option Problem :=
  let c := c.skipBlank
  match c.rest with
  | [] => (c, some .eofInList)
  | x :: _ =>
    if x = ']' then (c.eat, none)
    else if x = ',' then
      let c := c.eat.skipBlank
      match c.rest with
      | ']' :: _ => (c, some .trailingComma)
      | _ => (c, some .trailingCharacters)
    else (c, some .trailingCharacters)

def closeObject (c : Cursor) : Cursor × Option Problem :=
  let c := c.skipBlank
  match c.rest with
  | [] => (c, some .eofInObject)
  | x :: _ =>
    if x = '\x7d' then (c.eat, none)
    else if x = ',' then (c, some .trailingComma)
    else (c, some .trailingCharacters)

def closed : Cursor × Option Problem → Except Fault Cursor
  | (c, none) => .ok c
  | (c, some e) => .error ⟨e, c.peekPlace⟩

def readIdent : List Char → Cursor → Except Fault Cursor
  | [], c => .ok c
  | x :: xs, c =>
    match c.rest with
    | [] => .error ⟨.eofInValue, c.place⟩
    | y :: _ => if y = x then readIdent xs c.eat else .error ⟨.expectedIdent, c.peekPlace⟩

def afterNull : List Char := ['u', 'l', 'l']
def afterTrue : List Char := ['r', 'u', 'e']
def afterFalse : List Char := ['a', 'l', 's', 'e']

/-- How deep containers may nest, counting one that must stay unopened. -/
def depthLimit : Nat := 128

mutual
/-- A value inside containers that leave `depth` levels. -/
def readValue : Nat → Nat → Cursor → Except Fault (Json × Cursor)
  | 0, _, c => .error ⟨.recursionLimit, c.place⟩
  | fuel + 1, depth, c =>
    let c := c.skipBlank
    match c.rest with
    | [] => .error ⟨.eofInValue, c.place⟩
    | x :: _ =>
      if x = '"' then do
        let (s, c) ← readString c.eat
        .ok (str s, c)
      else if x = '[' then
        if depth ≤ 1 then .error ⟨.recursionLimit, c.peekPlace⟩ else do
          let (vs, c) ← readItems fuel (depth - 1) true c.eat
          let c ← closed (closeList c)
          .ok (arr vs, c)
      else if x = '\x7b' then
        if depth ≤ 1 then .error ⟨.recursionLimit, c.peekPlace⟩ else do
          let (ms, c) ← readMembers fuel (depth - 1) true c.eat
          let c ← closed (closeObject c)
          .ok (mkObj ms, c)
      else if x = '-' then do
        let (n, c) ← readNumber true c.eat
        .ok (num n, c)
      else if isDigit x then do
        let (n, c) ← readNumber false c
        .ok (num n, c)
      else if x = 'n' then do
        let c ← readIdent afterNull c.eat
        .ok (null, c)
      else if x = 't' then do
        let c ← readIdent afterTrue c.eat
        .ok (bool true, c)
      else if x = 'f' then do
        let c ← readIdent afterFalse c.eat
        .ok (bool false, c)
      else .error ⟨.expectedValue, c.peekPlace⟩

def readItems : Nat → Nat → Bool → Cursor → Except Fault (List Json × Cursor)
  | 0, _, _, c => .error ⟨.recursionLimit, c.place⟩
  | fuel + 1, depth, first, c => do
    match ← nextItem first c with
    | .stop c => .ok ([], c)
    | .part c =>
      let (v, c) ← readValue fuel depth c
      let (vs, c) ← readItems fuel depth false c
      .ok (v :: vs, c)

def readMembers : Nat → Nat → Bool → Cursor → Except Fault (List (String × Json) × Cursor)
  | 0, _, _, c => .error ⟨.recursionLimit, c.place⟩
  | fuel + 1, depth, first, c => do
    match ← nextKey first c with
    | .stop c => .ok ([], c)
    | .part (k, c) =>
      let c ← readColon c
      let (v, c) ← readValue fuel depth c
      let (ms, c) ← readMembers fuel depth false c
      .ok ((k, v) :: ms, c)
end

def finish (c : Cursor) : Except Fault Unit :=
  let c := c.skipBlank
  match c.rest with
  | [] => .ok ()
  | _ :: _ => .error ⟨.trailingCharacters, c.peekPlace⟩

/-- Enough fuel for a text: a level of nesting takes two steps, any other part one. -/
def fuelFor (c : Cursor) : Nat := 2 * c.rest.length + 2

def read (text : String) : Except Fault Json := do
  let c := Cursor.ofText text
  let (v, c) ← readValue (fuelFor c) depthLimit c
  finish c
  .ok v

end Unseal.Json
