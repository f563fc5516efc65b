import Unseal.Json.Basic
import Unseal.Binary64.Shortest

/-!
# JSON text of a value

Compact text has no white space; indented text puts each element on its own line, two spaces
a level. Both escape the quote, the backslash and the control characters below U+0020 and
write every other character as it is.
-/

set_option autoImplicit false

namespace Unseal.Json

def hexDigit (n : Nat) : Char := if n < 10 then Char.ofNat (48 + n) else Char.ofNat (87 + n)

def escapeChar (c : Char) : List Char :=
  if c = '"' then ['\\', '"']
  else if c = '\\' then ['\\', '\\']
  else if 0x20 ≤ c.toNat then [c]
  else if c = '\x08' then ['\\', 'b']
  else if c = '\t' then ['\\', 't']
  else if c = '\n' then ['\\', 'n']
  else if c = '\x0c' then ['\\', 'f']
  else if c = '\r' then ['\\', 'r']
  else ['\\', 'u', '0', '0', hexDigit (c.toNat / 16), hexDigit (c.toNat % 16)]

def escape (cs : List Char) : List Char := cs.flatMap escapeChar

def stringChars (s : String) : List Char := '"' :: (escape s.toList ++ ['"'])

def digitChars (ds : List Nat) : List Char := ds.map fun d => Char.ofNat (48 + d)

def natChars (n : Nat) : List Char := Nat.toDigits 10 n

def intChars (n : Int) : List Char :=
  if n < 0 then '-' :: natChars n.natAbs else natChars n.natAbs

/-- How a float's digits are laid out: positional from `10^-5` up to, but not including,
`10^16`, always with a fraction; otherwise one digit before the point and an exponent, whose
plus sign is written. -/
def floatChars (x : Binary64) : List Char :=
  let sign := if x.negative then ['-'] else []
  if x.isZero then sign ++ ['0', '.', '0'] else
  let d := x.shortest
  let n : Int := d.digits.length
  if -5 < d.point ∧ d.point ≤ 0 then
    sign ++ '0' :: '.' :: (List.replicate d.point.natAbs '0' ++ digitChars d.digits)
  else if 0 < d.point ∧ d.point ≤ 16 then
    if n ≤ d.point then
      sign ++ digitChars d.digits ++ List.replicate (d.point - n).toNat '0' ++ ['.', '0']
    else
      let k := d.point.toNat
      sign ++ digitChars (d.digits.take k) ++ '.' :: digitChars (d.digits.drop k)
  else
    let e := d.point - 1
    let mark := 'e' :: (if e < 0 then '-' else '+') :: natChars e.natAbs
    match d.digits with
    | [a] => sign ++ digitChars [a] ++ mark
    | a :: rest => sign ++ digitChars [a] ++ '.' :: (digitChars rest ++ mark)
    | [] => sign ++ mark

def numberChars : Number → List Char
  | .int n => intChars n
  | .float x => floatChars x

mutual
def compactChars : Json → List Char
  | null => ['n', 'u', 'l', 'l']
  | bool true => ['t', 'r', 'u', 'e']
  | bool false => ['f', 'a', 'l', 's', 'e']
  | num n => numberChars n
  | str s => stringChars s
  | arr [] => ['[', ']']
  | arr (v :: vs) => '[' :: (compactChars v ++ compactItems vs)
  | obj [] => ['{', '}']
  | obj ((k, v) :: ms) => '{' :: (stringChars k ++ ':' :: (compactChars v ++ compactMembers ms))

def compactItems : List Json → List Char
  | [] => [']']
  | v :: vs => ',' :: (compactChars v ++ compactItems vs)

def compactMembers : List (String × Json) → List Char
  | [] => ['}']
  | (k, v) :: ms => ',' :: (stringChars k ++ ':' :: (compactChars v ++ compactMembers ms))
end

def lineBreak (depth : Nat) : List Char := '\n' :: List.replicate (2 * depth) ' '

mutual
def indentedChars (depth : Nat) : Json → List Char
  | null => ['n', 'u', 'l', 'l']
  | bool true => ['t', 'r', 'u', 'e']
  | bool false => ['f', 'a', 'l', 's', 'e']
  | num n => numberChars n
  | str s => stringChars s
  | arr [] => ['[', ']']
  | arr (v :: vs) =>
    '[' :: (lineBreak (depth + 1) ++ (indentedChars (depth + 1) v ++ indentedItems depth vs))
  | obj [] => ['{', '}']
  | obj ((k, v) :: ms) =>
    '{' :: (lineBreak (depth + 1) ++ (stringChars k ++ ':' :: ' ' ::
      (indentedChars (depth + 1) v ++ indentedMembers depth ms)))

def indentedItems (depth : Nat) : List Json → List Char
  | [] => lineBreak depth ++ [']']
  | v :: vs =>
    ',' :: (lineBreak (depth + 1) ++ (indentedChars (depth + 1) v ++ indentedItems depth vs))

def indentedMembers (depth : Nat) : List (String × Json) → List Char
  | [] => lineBreak depth ++ ['}']
  | (k, v) :: ms =>
    ',' :: (lineBreak (depth + 1) ++ (stringChars k ++ ':' :: ' ' ::
      (indentedChars (depth + 1) v ++ indentedMembers depth ms)))
end

def compact (v : Json) : String := String.ofList (compactChars v)

def indented (v : Json) : String := String.ofList (indentedChars 0 v)

/-- The text a command prints: compact or indented. -/
def render (v : Json) (inline : Bool) : String := if inline then compact v else indented v

end Unseal.Json
