import Unseal.Instant.Basic
import Unseal.Text.Blank
import Unseal.Json.NumberText

/-!
# Reading an instant

Date, separator, time and offset in the order of RFC 3339, white space allowed before each
number, before each separator inside date and time, and around the offset. A year may have a
sign and then any number of digits. Each number is checked as soon as it is read.
-/

set_option autoImplicit false

namespace Unseal.Instant

inductive Trouble where
  | outOfRange | impossible | invalid | tooShort | tooLong
deriving DecidableEq, Repr

def Trouble.message : Trouble → String
  | outOfRange => "input is out of range"
  | impossible => "no possible date and time matching input"
  | invalid => "input contains invalid characters"
  | tooShort => "premature end of input"
  | tooLong => "trailing input"

open Json (isDigit digitValue)

def digitsValue (ds : List Char) : Nat := ds.foldl (fun n d => n * 10 + digitValue d) 0

def readDigits (width : Nat) : List Char → Except Trouble (List Char × List Char)
  | [] => .error .tooShort
  | c :: cs =>
    if isDigit c then
      let ds := ((c :: cs).take width).takeWhile isDigit
      .ok (ds, (c :: cs).drop ds.length)
    else .error .invalid

def readField (low high : Nat) (cs : List Char) : Except Trouble (Nat × List Char) := do
  let (ds, cs) ← readDigits 2 (Text.trimStart cs)
  let n := digitsValue ds
  if low ≤ n ∧ n ≤ high then .ok (n, cs) else .error .outOfRange

def readYear (cs : List Char) : Except Trouble (Int × List Char) := do
  let cs := Text.trimStart cs
  let (y, cs) ← match cs with
    | '-' :: cs => do
      let (ds, cs) ← readDigits cs.length cs
      pure (-(digitsValue ds : Int), cs)
    | '+' :: cs => do
      let (ds, cs) ← readDigits cs.length cs
      pure ((digitsValue ds : Int), cs)
    | cs => do
      let (ds, cs) ← readDigits 4 cs
      pure ((digitsValue ds : Int), cs)
  if -0x80000000 ≤ y ∧ y ≤ 0x7fffffff then .ok (y, cs) else .error .outOfRange

def readMark (mark : Char) (cs : List Char) : Except Trouble (List Char) :=
  match Text.trimStart cs with
  | [] => .error .tooShort
  | c :: cs => if c = mark then .ok cs else .error .invalid

/-- A fraction of up to nine digits in nanoseconds; further digits are passed over. -/
def readFraction : List Char → Except Trouble (Nat × List Char)
  | '.' :: cs => do
    let (ds, cs) ← readDigits 9 cs
    .ok (digitsValue ds * Nat.pow 10 (9 - ds.length), cs.dropWhile isDigit)
  | cs => .ok (0, cs)

def readPair : List Char → Except Trouble (Char × Char × List Char)
  | [] => .error .tooShort
  | [c] => .error (if c.utf8Size = 1 then .tooShort else .invalid)
  | c :: d :: cs => if isDigit c && isDigit d then .ok (c, d, cs) else .error .invalid

/-- An offset in minutes: `Z`, `UTC`, or hours and minutes with or without a colon between. -/
def readOffset : List Char → Except Trouble (Int × List Char)
  | [] => .error .tooShort
  | c :: cs =>
    let zone := ((c :: cs).take 3).map Text.lowerChar
    if zone = ['u', 't', 'c'] then .ok (0, cs.drop 2)
    else if c = 'Z' ∨ c = 'z' then .ok (0, cs)
    else if c = '+' ∨ c = '-' ∨ c = '\u2212' then do
      let (h, h', cs) ← readPair cs
      let (m, m', cs) ← readPair (cs.dropWhile fun x => x == ':' || Text.isBlank x)
      if 6 ≤ digitValue m then .error .outOfRange else
      let minutes : Nat := digitsValue [h, h'] * 60 + digitsValue [m, m']
      .ok (if c = '+' then (minutes : Int) else -(minutes : Int), cs)
    else .error .invalid

/-- The parts of a text; a second 60 is the leap second of its minute. -/
def ofParts (year : Int) (month day hour minute second nano : Nat) (offset : Int) :
    Except Trouble Instant :=
  match Date.of? year month day with
  | none => .error .outOfRange
  | some date =>
    if -1440 < offset ∧ offset < 1440 then
      let leap := if second = 60 then 1 else 0
      let s := hour * 3600 + minute * 60 + (second - leap)
      let n := nano + leap * 1000000000
      if hn : n < 1000000000 ∨ (n < 2000000000 ∧ s % 60 = 59) then
        match ofLocal? date s n offset hn with
        | some t => .ok t
        | none => .error .impossible
      else .error .outOfRange
    else .error .outOfRange

def readChars (cs : List Char) : Except Trouble Instant := do
  let (year, cs) ← readYear cs
  let cs ← readMark '-' cs
  let (month, cs) ← readField 1 12 cs
  let cs ← readMark '-' cs
  let (day, cs) ← readField 1 31 cs
  match cs with
  | [] => .error .tooShort
  | c :: cs =>
    if c = 't' ∨ c = 'T' ∨ c = ' ' then do
      let (hour, cs) ← readField 0 23 cs
      let cs ← readMark ':' cs
      let (minute, cs) ← readField 0 59 cs
      let cs ← readMark ':' cs
      let (second, cs) ← readField 0 60 cs
      let (nano, cs) ← readFraction cs
      let (offset, cs) ← readOffset (Text.trimStart cs)
      if Text.trimStart cs = [] then ofParts year month day hour minute second nano offset
      else .error .tooLong
    else .error .invalid

def read (text : String) : Except Trouble Instant := readChars text.toList

end Unseal.Instant
