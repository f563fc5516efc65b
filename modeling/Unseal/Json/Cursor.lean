/-!
# Reading position and syntax faults

Lines count from one and columns count the bytes of UTF-8 since the last line feed. A fault is
placed either after what has been read or just past the next byte.
-/

set_option autoImplicit false

namespace Unseal.Json

structure Place where
  line : Nat
  column : Nat
deriving DecidableEq, Repr, Inhabited

namespace Place

def start : Place := ⟨1, 0⟩

def advance (p : Place) (c : Char) : Place :=
  if c = '\n' then ⟨p.line + 1, 0⟩ else ⟨p.line, p.column + c.utf8Size⟩

/-- Past `n` characters of one byte each, none a line feed. -/
def skip (p : Place) (n : Nat) : Place := ⟨p.line, p.column + n⟩

def peek (p : Place) : List Char → Place
  | [] => p
  | c :: _ => if c = '\n' then ⟨p.line + 1, 0⟩ else ⟨p.line, p.column + 1⟩

end Place

/-- What is left to read, and where it begins. -/
structure Cursor where
  rest : List Char
  place : Place
deriving Repr, Inhabited

namespace Cursor

def ofText (text : String) : Cursor := ⟨text.toList, .start⟩

def peekPlace (c : Cursor) : Place := c.place.peek c.rest

def isBlank (c : Char) : Bool := c == ' ' || c == '\n' || c == '\t' || c == '\r'

def skipBlankFrom : List Char → Place → Cursor
  | [], p => ⟨[], p⟩
  | c :: cs, p => if isBlank c then skipBlankFrom cs (p.advance c) else ⟨c :: cs, p⟩

/-- Past the white space of JSON: space, tab, line feed, carriage return. -/
def skipBlank (c : Cursor) : Cursor := skipBlankFrom c.rest c.place

def eat (c : Cursor) : Cursor :=
  match c.rest with
  | [] => c
  | x :: xs => ⟨xs, c.place.advance x⟩

end Cursor

inductive Problem where
  | eofInValue | eofInList | eofInObject | eofInString
  | expectedColon | expectedListCommaOrEnd | expectedObjectCommaOrEnd
  | expectedIdent | expectedValue
  | invalidEscape | invalidNumber | numberOutOfRange
  | loneSurrogate | unexpectedEndOfHexEscape | controlCharacter
  | keyMustBeString | trailingComma | trailingCharacters | recursionLimit
deriving DecidableEq, Repr

def Problem.message : Problem → String
  | eofInValue => "EOF while parsing a value"
  | eofInList => "EOF while parsing a list"
  | eofInObject => "EOF while parsing an object"
  | eofInString => "EOF while parsing a string"
  | expectedColon => "expected `:`"
  | expectedListCommaOrEnd => "expected `,` or `]`"
  | expectedObjectCommaOrEnd => "expected `,` or `\x7d`"
  | expectedIdent => "expected ident"
  | expectedValue => "expected value"
  | invalidEscape => "invalid escape"
  | invalidNumber => "invalid number"
  | numberOutOfRange => "number out of range"
  | loneSurrogate => "lone leading surrogate in hex escape"
  | unexpectedEndOfHexEscape => "unexpected end of hex escape"
  | controlCharacter => "control character (\\u0000-\\u001F) found while parsing a string"
  | keyMustBeString => "key must be a string"
  | trailingComma => "trailing comma"
  | trailingCharacters => "trailing characters"
  | recursionLimit => "recursion limit exceeded"

structure Fault where
  problem : Problem
  place : Place
deriving DecidableEq, Repr

def Place.suffix (p : Place) : String :=
  " at line " ++ toString p.line ++ " column " ++ toString p.column

def Fault.message (f : Fault) : String := f.problem.message ++ f.place.suffix

end Unseal.Json
