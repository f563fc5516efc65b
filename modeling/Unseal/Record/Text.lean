import Unseal.Record.Value
import Unseal.Json.Skip

/-!
# Records in JSON text

`Shape.readText` reads a record straight from text, in one pass. Members come in text order, a
member that no field wants is skipped unread, a field given twice is a fault, and every fault
has a place: that of a mismatch is the end of what had been read of the value that does not
fit, its closing bracket included when that comes next.
-/

set_option autoImplicit false

namespace Unseal

open Json (Cursor Place Problem)

inductive TextFault where
  | syntaxFault (fault : Json.Fault)
  | mismatch (cause : Mismatch) (place : Place)
deriving DecidableEq, Repr

namespace TextFault

def message : TextFault → String
  | syntaxFault f => f.message
  | mismatch m p => m.message ++ p.suffix

end TextFault

/-- How far the contents of a container have been read, and with what: a value, or a mismatch
that gets its place when the container is closed. -/
abbrev Reached (α : Type) := Except Mismatch α × Cursor

namespace TextReader

def lift {α : Type} : Except Json.Fault α → Except TextFault α
  | .ok x => .ok x
  | .error f => .error (.syntaxFault f)

/-- What stands here instead of what was expected. A scalar is read to its end. -/
def unexpected {α : Type} (c : Cursor) (expected : String) : Except TextFault α :=
  match c.rest with
  | '[' :: _ => .error (.mismatch (.wrongType .sequence expected) c.place)
  | '\x7b' :: _ => .error (.mismatch (.wrongType .map expected) c.place)
  | _ =>
    match Json.readValue 1 Json.depthLimit c with
    | .ok (v, c) => .error (.mismatch (.wrongType (.ofJson v) expected) c.place)
    | .error f => .error (.syntaxFault f)

def readString (c : Cursor) (expected : String) : Except TextFault (String × Cursor) :=
  let c := c.skipBlank
  match c.rest with
  | '"' :: _ => lift (Json.readString c.eat)
  | _ => unexpected c expected

def readNumber (c : Cursor) (expected : String) : Except TextFault (Number × Cursor) :=
  let c := c.skipBlank
  match c.rest with
  | '-' :: _ => lift (Json.readNumber true c.eat)
  | x :: _ => if Json.isDigit x then lift (Json.readNumber false c) else unexpected c expected
  | [] => unexpected c expected

def readFlag (c : Cursor) (expected : String) : Except TextFault (Bool × Cursor) :=
  let c := c.skipBlank
  match c.rest with
  | 't' :: _ => lift ((Json.readIdent Json.afterTrue c.eat).map (true, ·))
  | 'f' :: _ => lift ((Json.readIdent Json.afterFalse c.eat).map (false, ·))
  | _ => unexpected c expected

def settle {α : Type} (c : Cursor) : Except Mismatch α → Except TextFault (α × Cursor)
  | .ok x => .ok (x, c)
  | .error m => .error (.mismatch m c.place)

/-- Closes a container whose contents have been read, or given up at a mismatch. -/
def close {α : Type} (closing : Cursor → Cursor × Option Problem) :
    Except TextFault (Reached α) → Except TextFault (α × Cursor)
  | .error f => .error f
  | .ok (.error m, c) => .error (.mismatch m (closing c).1.place)
  | .ok (.ok x, c) => lift ((Json.closed (closing c)).map (x, ·))

/-- The contents of a container, which takes one of the `depth` levels left. -/
def nest {α : Type} (depth : Nat) (c : Cursor) (closing : Cursor → Cursor × Option Problem)
    (contents : Nat → Cursor → Except TextFault (Reached α)) :
    Except TextFault (α × Cursor) :=
  if depth ≤ 1 then .error (.syntaxFault ⟨.recursionLimit, c.peekPlace⟩)
  else close closing (contents (depth - 1) c.eat)

def list {α : Type} (expected : String) (depth : Nat)
    (contents : Nat → Cursor → Except TextFault (Reached α)) (c : Cursor) :
    Except TextFault (α × Cursor) :=
  match c.rest with
  | '[' :: _ => nest depth c Json.closeList contents
  | _ => unexpected c expected

def object {α : Type} (expected : String) (depth : Nat)
    (contents : Nat → Cursor → Except TextFault (Reached α)) (c : Cursor) :
    Except TextFault (α × Cursor) :=
  match c.rest with
  | '\x7b' :: _ => nest depth c Json.closeObject contents
  | _ => unexpected c expected

def either {α : Type} (expected : String) (depth : Nat)
    (inObject inList : Nat → Cursor → Except TextFault (Reached α)) (c : Cursor) :
    Except TextFault (α × Cursor) :=
  match c.rest with
  | '\x7b' :: _ => nest depth c Json.closeObject inObject
  | '[' :: _ => nest depth c Json.closeList inList
  | _ => unexpected c expected

def nullable {α : Type} (read : Cursor → Except TextFault (α × Cursor)) (c : Cursor) :
    Except TextFault (Option α × Cursor) :=
  match c.rest with
  | 'n' :: _ => do
    let c ← lift (Json.readIdent Json.afterNull c.eat)
    .ok (none, c)
  | _ => do
    let (x, c) ← read c
    .ok (some x, c)

def items {α : Type} (read : Cursor → Except TextFault (α × Cursor)) :
    Nat → Bool → Cursor → Except TextFault (Reached (List α))
  | 0, _, c => .error (.syntaxFault ⟨.recursionLimit, c.place⟩)
  | fuel + 1, first, c => do
    match ← lift (Json.nextItem first c) with
    | .stop c => .ok (.ok [], c)
    | .part c =>
      let (x, c) ← read c
      let (xs, c) ← items read fuel false c
      .ok (xs.map (x :: ·), c)

def members {σ : Type} (member : String → σ → Cursor → Except TextFault (Reached σ)) :
    Nat → Bool → σ → Cursor → Except TextFault (Reached σ)
  | 0, _, _, c => .error (.syntaxFault ⟨.recursionLimit, c.place⟩)
  | fuel + 1, first, s, c => do
    match ← lift (Json.nextKey first c) with
    | .stop c => .ok (.ok s, c)
    | .part (key, c) =>
      match ← member key s c with
      | (.ok s, c) => members member fuel false s c
      | (.error m, c) => .ok (.error m, c)

def fuelFor (c : Cursor) : Nat := c.rest.length + 1

end TextReader

open TextReader

mutual
def Shape.readFrom : (s : Shape) → Nat → Cursor → Except TextFault (s.Carrier × Cursor)
  | .text, _, c => readString c (Shape.text).expected
  | .integer w, _, c => do
    let (n, c) ← readNumber c (Shape.integer w).expected
    settle c (ofNumber w n)
  | .real, _, c => do
    let (n, c) ← readNumber c (Shape.real).expected
    .ok (n.toBinary64, c)
  | .flag, _, c => readFlag c (Shape.flag).expected
  | .any, depth, c => lift (Json.readValue (Json.fuelFor c) depth c)
  | .instant, _, c => do
    let (t, c) ← readString c (Shape.instant).expected
    settle c (ofInstantText t)
  | .optional s, depth, c => nullable (fun c => s.readFrom depth c) c.skipBlank
  | .sequence s, depth, c =>
    list (Shape.sequence s).expected depth
      (fun depth c => items (fun c => s.readFrom depth c) (fuelFor c) true c) c.skipBlank
  | .dictionary s, depth, c =>
    object (Shape.dictionary s).expected depth
      (fun depth c => TextReader.members (fun key ms c => do
        let c ← lift (Json.readColon c)
        let (x, c) ← s.readFrom depth c
        .ok (.ok (Members.insert key x ms), c)) (fuelFor c) true [] c) c.skipBlank
  | .record name strict fs, depth, c =>
    either (Shape.record name strict fs).expected depth
      (fun depth c => do
        let (slots, c) ← TextReader.members (fun key slots c => do
          match ← fs.readMember key depth c slots with
          | some step => .ok step
          | none =>
            if strict then .ok (.error (.unknown key fs.names), c)
            else
              let c ← lift (Json.readColon c)
              let c ← lift (Json.skipValue c)
              .ok (.ok slots, c)) (fuelFor c) true fs.empty c
        .ok (slots.bind fun slots => fs.complete slots, c))
      (fun depth c => Fields.readItems name fs.size depth 0 true c fs) c.skipBlank

def Fields.readMember (key : String) (depth : Nat) (c : Cursor) :
    (fs : Fields) → fs.Slots →
      Except TextFault (Option (Reached fs.Slots))
  | .nil, _ => .ok none
  | .cons k s rest, (slot, slots) =>
    if k.answers key then
      match slot with
      | some _ => .ok (some (.error (.duplicate k.name), c))
      | none => do
        let c ← lift (Json.readColon c)
        let (x, c) ← s.readFrom depth c
        .ok (some (.ok (some x, slots), c))
    else do
      match ← rest.readMember key depth c slots with
      | some (slots, c) => .ok (some (slots.map (slot, ·), c))
      | none => .ok none

def Fields.readItems (record : String) (total depth : Nat) :
    Nat → Bool → Cursor → (fs : Fields) → Except TextFault (Reached fs.Carrier)
  | _, _, c, .nil => .ok (.ok (), c)
  | i, first, c, .cons k s rest => do
    match ← lift (Json.nextItem first c) with
    | .stop c =>
      if k.presence = .required then .ok (.error (.tooFew i record total), c)
      else
        let (xs, c) ← Fields.readItems record total depth (i + 1) first c rest
        .ok (xs.map (s.zero, ·), c)
    | .part c =>
      let (x, c) ← s.readFrom depth c
      let (xs, c) ← Fields.readItems record total depth (i + 1) false c rest
      .ok (xs.map (x, ·), c)
end

def Shape.readText (s : Shape) (text : String) : Except TextFault s.Carrier := do
  let (x, c) ← s.readFrom Json.depthLimit (Cursor.ofText text)
  lift (Json.finish c)
  .ok x

end Unseal
