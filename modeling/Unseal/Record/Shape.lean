import Unseal.Json.Basic
import Unseal.Instant.Basic

/-!
# Record shapes

A shape describes the values that one place of a record may hold, and `Carrier` is the type of
those values. A record is a list of named fields, so that reading, writing and checking of
every kind of record are each one recursion on its shape.
-/

set_option autoImplicit false

namespace Unseal

inductive Width where
  | signed64 | unsigned64 | octet
deriving DecidableEq, Repr

namespace Width

def low : Width → Int
  | signed64 => -0x8000000000000000
  | unsigned64 => 0
  | octet => 0

def high : Width → Int
  | signed64 => 0x7fffffffffffffff
  | unsigned64 => 0xffffffffffffffff
  | octet => 255

def name : Width → String
  | signed64 => "i64"
  | unsigned64 => "u64"
  | octet => "u8"

def holds (w : Width) (n : Int) : Bool := decide (w.low ≤ n) && decide (n ≤ w.high)

end Width

/-- What a record does without the field: fail, take the field's zero, or take its zero and
leave it out again when it is written as null. -/
inductive Presence where
  | required | defaulted | sparse
deriving DecidableEq, Repr

/-- How a field is named in text. It is written under its name and read under its name or any
alias. -/
structure Key where
  name : String
  aliases : List String
  presence : Presence
deriving DecidableEq, Repr

namespace Key

def required (name : String) : Key := ⟨name, [], .required⟩

def defaulted (name : String) : Key := ⟨name, [], .defaulted⟩

def answers (k : Key) (key : String) : Bool := key == k.name || k.aliases.contains key

end Key

mutual
inductive Shape where
  | text
  | integer (width : Width)
  | real
  | flag
  | any
  | instant
  | optional (shape : Shape)
  | sequence (shape : Shape)
  | dictionary (shape : Shape)
  /-- A `strict` record refuses members that no field answers to. -/
  | record (name : String) (strict : Bool) (fields : Fields)

inductive Fields where
  | nil
  | cons (key : Key) (shape : Shape) (rest : Fields)
end

mutual
def Shape.Carrier : Shape → Type
  | .text => String
  | .integer _ => Int
  | .real => Binary64
  | .flag => Bool
  | .any => Json
  | .instant => Instant
  | .optional s => Option s.Carrier
  | .sequence s => List s.Carrier
  | .dictionary s => Members s.Carrier
  | .record _ _ fs => fs.Carrier

def Fields.Carrier : Fields → Type
  | .nil => Unit
  | .cons _ s rest => s.Carrier × rest.Carrier
end

mutual
def Shape.zero : (s : Shape) → s.Carrier
  | .text => ""
  | .integer _ => (0 : Int)
  | .real => Binary64.zero false
  | .flag => false
  | .any => Json.null
  | .instant => Instant.epoch
  | .optional _ => none
  | .sequence _ => []
  | .dictionary _ => []
  | .record _ _ fs => fs.zero

def Fields.zero : (fs : Fields) → fs.Carrier
  | .nil => ()
  | .cons _ s rest => (s.zero, rest.zero)
end

namespace Fields

def names : Fields → List String
  | .nil => []
  | .cons k _ rest => k.name :: rest.names

def size : Fields → Nat
  | .nil => 0
  | .cons _ _ rest => rest.size + 1

def Slots : Fields → Type
  | .nil => Unit
  | .cons _ s rest => Option s.Carrier × rest.Slots

def empty : (fs : Fields) → fs.Slots
  | .nil => ()
  | .cons _ _ rest => (none, rest.empty)

end Fields

def Shape.expected : Shape → String
  | .text => "a string"
  | .integer w => w.name
  | .real => "f64"
  | .flag => "a boolean"
  | .any => "any valid JSON value"
  | .instant => "an RFC 3339 formatted date and time string"
  | .optional s => s.expected
  | .sequence _ => "a sequence"
  | .dictionary _ => "a map"
  | .record name _ _ => "struct " ++ name

end Unseal
