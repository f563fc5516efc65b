import Unseal.Record.Mismatch

/-!
# Records and JSON values

`Shape.ofJson` reads a value that has the shape and `Shape.toJson` writes it. A record is read
from an object, member by member in key order, or from an array, field by field. The first
fault ends the reading; missing fields are found after all members have been read.
-/

set_option autoImplicit false

namespace Unseal

namespace Fields

def complete : (fs : Fields) → fs.Slots → Except Mismatch fs.Carrier
  | .nil, _ => .ok ()
  | .cons k s rest, (slot, slots) => do
    let x ← match slot with
      | some x => .ok x
      | none => if k.presence = .required then .error (.missing k.name) else .ok s.zero
    let xs ← rest.complete slots
    .ok (x, xs)

end Fields

def ofNumber (w : Width) : Number → Except Mismatch Int
  | .int n => if w.holds n then .ok n else .error (.outOfRange n w.name)
  | .float x => .error (.wrongType (.num (.float x)) w.name)

def ofInstantText (t : String) : Except Mismatch Instant :=
  match Instant.read t with
  | .ok i => .ok i
  | .error e => .error (.badInstant e)

mutual
def Shape.ofJson : (s : Shape) → Json → Except Mismatch s.Carrier
  | .text, v =>
    match v with
    | .str t => .ok t
    | v => .error (.wrongType (.ofJson v) (Shape.text).expected)
  | .integer w, v =>
    match v with
    | .num n => ofNumber w n
    | v => .error (.wrongType (.ofJson v) (Shape.integer w).expected)
  | .real, v =>
    match v with
    | .num n => .ok n.toBinary64
    | v => .error (.wrongType (.ofJson v) (Shape.real).expected)
  | .flag, v =>
    match v with
    | .bool b => .ok b
    | v => .error (.wrongType (.ofJson v) (Shape.flag).expected)
  | .any, v => .ok v
  | .instant, v =>
    match v with
    | .str t => ofInstantText t
    | v => .error (.wrongType (.ofJson v) (Shape.instant).expected)
  | .optional s, v =>
    match v with
    | .null => .ok none
    | v => do
      let x ← s.ofJson v
      .ok (some x)
  | .sequence s, v =>
    match v with
    | .arr vs => vs.mapM fun v => s.ofJson v
    | v => .error (.wrongType (.ofJson v) (Shape.sequence s).expected)
  | .dictionary s, v =>
    match v with
    | .obj ms => ms.mapM fun (k, v) => do
      let x ← s.ofJson v
      .ok (k, x)
    | v => .error (.wrongType (.ofJson v) (Shape.dictionary s).expected)
  | .record name strict fs, v =>
    match v with
    | .obj ms => do
      let slots ← ms.foldlM (fun slots (k, v) => do
        match ← fs.put k v slots with
        | some slots => .ok slots
        | none => if strict then .error (.unknown k fs.names) else .ok slots) fs.empty
      fs.complete slots
    | .arr vs => do
      let (x, left) ← fs.ofItems name fs.size 0 vs
      if left.isEmpty then .ok x else .error (.tooMany vs.length)
    | v => .error (.wrongType (.ofJson v) (Shape.record name strict fs).expected)

def Fields.put (key : String) (v : Json) :
    (fs : Fields) → fs.Slots → Except Mismatch (Option fs.Slots)
  | .nil, _ => .ok none
  | .cons k s rest, (slot, slots) =>
    if k.answers key then
      match slot with
      | some _ => .error (.duplicate k.name)
      | none => do
        let x ← s.ofJson v
        .ok (some (some x, slots))
    else do
      match ← rest.put key v slots with
      | some slots => .ok (some (slot, slots))
      | none => .ok none

/-- Reads the elements of an array as the fields in their order, `i` of the `total` fields of
the record being read already, and returns the elements left over. -/
def Fields.ofItems (record : String) (total : Nat) :
    Nat → (fs : Fields) → List Json → Except Mismatch (fs.Carrier × List Json)
  | _, .nil, vs => .ok ((), vs)
  | i, .cons k s rest, vs => do
    let (x, vs) ← match vs with
      | v :: vs => do
        let x ← s.ofJson v
        pure (x, vs)
      | [] =>
        if k.presence = .required then .error (.tooFew i record total) else .ok (s.zero, [])
    let (xs, vs) ← rest.ofItems record total (i + 1) vs
    .ok ((x, xs), vs)
end

mutual
def Shape.toJson : (s : Shape) → s.Carrier → Json
  | .text, t => .str t
  | .integer _, n => .num (.int n)
  | .real, x => .num (.float x)
  | .flag, b => .bool b
  | .any, v => v
  | .instant, t => .str (Instant.text t)
  | .optional s, x =>
    match x with
    | none => .null
    | some x => s.toJson x
  | .sequence s, xs => .arr (xs.map fun x => s.toJson x)
  | .dictionary s, ms => .obj (ms.map fun (k, x) => (k, s.toJson x))
  | .record _ _ fs, x => .mkObj (fs.members x)

def Fields.members : (fs : Fields) → fs.Carrier → List (String × Json)
  | .nil, _ => []
  | .cons k s rest, (x, xs) =>
    match k.presence, s.toJson x with
    | .sparse, .null => rest.members xs
    | _, v => (k.name, v) :: rest.members xs
end

end Unseal
