import Unseal.Json.Basic

/-!
# JSON pointers

A pointer is a path of reference tokens, each after a slash; in a token `~1` stands for a slash
and `~0` for a tilde. A token is the key of a member or the canonical decimal index of an
element.
-/

set_option autoImplicit false

namespace Unseal.Json.Pointer

def escapeChar (c : Char) : List Char :=
  if c = '~' then ['~', '0'] else if c = '/' then ['~', '1'] else [c]

def escape (token : List Char) : List Char := token.flatMap escapeChar

/-- `~1` becomes a slash and `~0` a tilde; a tilde before anything else stands for itself. -/
def unescape : List Char → List Char
  | '~' :: '1' :: cs => '/' :: unescape cs
  | '~' :: '0' :: cs => '~' :: unescape cs
  | c :: cs => c :: unescape cs
  | [] => []

def splitSlash : List Char → List (List Char)
  | [] => [[]]
  | c :: cs =>
    if c = '/' then [] :: splitSlash cs
    else match splitSlash cs with
      | part :: parts => (c :: part) :: parts
      | [] => [[c]]

/-- The tokens of a pointer. A text that is neither empty nor begins with a slash is none. -/
def tokens? : List Char → Option (List String)
  | [] => some []
  | '/' :: cs => some ((splitSlash cs).map fun t => String.ofList (unescape t))
  | _ :: _ => none

def ofTokens (ts : List String) : List Char := ts.flatMap fun t => '/' :: escape t.toList

/-- An index below `2^64` in canonical form: digits only, none of them a leading zero. -/
def index? (token : String) : Option Nat :=
  match token.toList with
  | [] => none
  | [c] => if c.isDigit then some (c.toNat - 48) else none
  | c :: cs =>
    if c = '0' ∨ !(c :: cs).all Char.isDigit then none
    else
      let n := (c :: cs).foldl (fun n d => n * 10 + (d.toNat - 48)) 0
      if n ≤ 0xffffffffffffffff then some n else none

def step (token : String) : Json → Option Json
  | obj ms => Members.find? token ms
  | arr vs => (index? token).bind fun i => vs[i]?
  | _ => none

def walk : List String → Json → Option Json
  | [], v => some v
  | t :: ts, v => (step t v).bind (walk ts)

def resolve (pointer : String) (v : Json) : Option Json :=
  (tokens? pointer.toList).bind fun ts => walk ts v

end Unseal.Json.Pointer
