/-!
# Places in YAML text

Lines and columns count from nought and a column is a character. A line ends at a line feed, a
carriage return, both in that order, or one of the three further line separators.
-/

set_option autoImplicit false

namespace Unseal.Yaml

structure Mark where
  index : Nat
  line : Nat
  column : Nat
deriving DecidableEq, Repr, Inhabited

namespace Mark

def start : Mark := ⟨0, 0, 0⟩

def isStart (m : Mark) : Bool := m.line == 0 && m.column == 0

def text (m : Mark) : String :=
  "line " ++ toString (m.line + 1) ++ " column " ++ toString (m.column + 1)

/-- The place as messages end with it; the very beginning goes without saying. -/
def suffix (m : Mark) : String := if m.isStart then "" else " at " ++ m.text

end Mark

inductive Fault where
  /-- A problem, and what was under way with the place where that began. -/
  | malformed (problem : String) (mark : Mark) (context : Option (String × Mark))
  /-- A character that may not occur, by its offset in bytes. -/
  | control (offset : Nat)
deriving DecidableEq, Repr

def Fault.message : Fault → String
  | malformed problem mark none => problem ++ mark.suffix
  | malformed problem mark (some (context, start)) =>
    problem ++ mark.suffix ++ ", " ++ context ++
      if start.line == mark.line && start.column == mark.column then "" else start.suffix
  | control 0 => "control characters are not allowed"
  | control offset => "control characters are not allowed at position " ++ toString offset

structure Source where
  rest : List Char
  mark : Mark
deriving Repr, Inhabited

def isBlank (c : Char) : Bool := c == ' ' || c == '\t'

def isBreak (c : Char) : Bool :=
  c == '\n' || c == '\r' || c == '\u0085' || c == '\u2028' || c == '\u2029'

def endsWord : List Char → Bool
  | [] => true
  | c :: _ => isBlank c || isBreak c

def isNameChar (c : Char) : Bool :=
  ('0' ≤ c && c ≤ '9') || ('A' ≤ c && c ≤ 'Z') || ('a' ≤ c && c ≤ 'z') || c == '_' || c == '-'

def isAllowed (c : Char) : Bool :=
  let n := c.toNat
  n == 0x09 || n == 0x0A || n == 0x0D || (0x20 ≤ n && n ≤ 0x7E) || n == 0x85 ||
    (0xA0 ≤ n && n ≤ 0xD7FF) || (0xE000 ≤ n && n ≤ 0xFFFD) || 0x10000 ≤ n

namespace Source

def skip (s : Source) (n : Nat) : Source :=
  ⟨s.rest.drop n, ⟨s.mark.index + n, s.mark.line, s.mark.column + n⟩⟩

def skipBreak (s : Source) : Source :=
  match s.rest with
  | '\r' :: '\n' :: cs => ⟨cs, ⟨s.mark.index + 2, s.mark.line + 1, 0⟩⟩
  | c :: cs => if isBreak c then ⟨cs, ⟨s.mark.index + 1, s.mark.line + 1, 0⟩⟩ else s
  | [] => s

/-- One line break as text: all but the last two separators are a line feed. -/
def takeBreak (s : Source) : List Char × Source :=
  match s.rest with
  | c :: _ =>
    if c = '\u2028' ∨ c = '\u2029' then ([c], s.skipBreak)
    else if isBreak c then (['\n'], s.skipBreak)
    else ([], s)
  | [] => ([], s)

def takeRun (s : Source) (p : Char → Bool) : List Char × Source :=
  let run := s.rest.takeWhile p
  (run, s.skip run.length)

def skipRun (s : Source) (p : Char → Bool) : Source := (s.takeRun p).2

def atBreak (s : Source) : Bool :=
  match s.rest with
  | c :: _ => isBreak c
  | [] => false

def atLineEnd (s : Source) : Bool := s.rest.isEmpty || s.atBreak

def starts (s : Source) (c : Char) : Bool := s.rest.head? == some c

/-- At the beginning of a line with three of a character that stand alone. -/
def atIndicator (s : Source) (c : Char) : Bool :=
  s.mark.column == 0 &&
    match s.rest with
    | a :: b :: d :: cs => a == c && b == c && d == c && endsWord cs
    | _ => false

def atDocumentMarker (s : Source) : Bool := s.atIndicator '-' || s.atIndicator '.'

def skipComment (s : Source) : Source :=
  if s.starts '#' then s.skipRun fun c => !isBreak c else s

end Source

def controlOffset? (offset : Nat) : List Char → Option Nat
  | [] => none
  | c :: cs => if isAllowed c then controlOffset? (offset + c.utf8Size) cs else some offset

def malformed {α : Type} (problem : String) (mark : Mark) : Except Fault α :=
  .error (.malformed problem mark none)

def malformedIn {α : Type} (context : String) (start : Mark) (problem : String) (mark : Mark) :
    Except Fault α :=
  .error (.malformed problem mark (some (context, start)))

end Unseal.Yaml
