import Unseal.Text.Blank
import Unseal.Text.Category

/-!
# Regular expressions

An expression denotes, for each position of a text, the positions at which a match that begins
there may end. Which of several matches would be preferred never matters, since schemas only
ask whether there is one; so groups capture nothing and lazy repetition is repetition.
-/

set_option autoImplicit false

namespace Unseal

inductive CharSet where
  | range (low high : Nat)
  | union (a b : CharSet)
  | both (a b : CharSet)
  | complement (a : CharSet)
  /-- With each ASCII letter its other case. -/
  | anyCase (a : CharSet)
  | blank
  | category (g : Text.Category)
deriving DecidableEq, Repr

namespace CharSet

def none : CharSet := range 1 0

def swapCase (c : Char) : Char :=
  if 'a' ≤ c ∧ c ≤ 'z' then Char.ofNat (c.toNat - 32)
  else if 'A' ≤ c ∧ c ≤ 'Z' then Char.ofNat (c.toNat + 32)
  else c

def has : CharSet → Char → Bool
  | range low high, c => decide (low ≤ c.toNat) && decide (c.toNat ≤ high)
  | union a b, c => a.has c || b.has c
  | both a b, c => a.has c && b.has c
  | complement a, c => !a.has c
  | anyCase a, c => a.has c || a.has (swapCase c)
  | blank, c => Text.isBlank c
  | category g, c => g.holds c

def single (c : Char) : CharSet := range c.toNat c.toNat

def ofPair (a b : Char) : CharSet := range a.toNat b.toNat

def ofList (cs : List Char) : CharSet := cs.foldr (fun c s => union (single c) s) none

def without (a b : CharSet) : CharSet := both a (complement b)

/-- What is in one of the sets only. -/
def apart (a b : CharSet) : CharSet := union (without a b) (without b a)

def digit : CharSet := ofPair '0' '9'

def letter : CharSet := union (ofPair 'a' 'z') (ofPair 'A' 'Z')

def word : CharSet := union letter (union digit (single '_'))

def space : CharSet :=
  ofList [' ', '\t', '\n', '\r', '\x0b', '\x0c', '\u00a0', '\u2003', '\u2029', '\ufeff']

def wideWord : CharSet := union word (union (category .letter) (category .digit))

def inLine : CharSet := complement (single '\n')

def all : CharSet := range 0 0x10FFFF

end CharSet

inductive Regex where
  | empty
  | set (s : CharSet)
  | seq (a b : Regex)
  | alt (a b : Regex)
  | rep (a : Regex) (least : Nat) (most : Option Nat)
  /-- The beginning or the end, of the text or of any line of it. -/
  | first (ofLine : Bool)
  | last (ofLine : Bool)
  | boundary (wanted : Bool)
  | look (ahead wanted : Bool) (a : Regex)
deriving DecidableEq, Repr

namespace Regex

def insertPosition (i : Nat) (is : List Nat) : List Nat := if is.contains i then is else i :: is

def mergePositions (is js : List Nat) : List Nat := is.foldr insertPosition js

def spread (step : Nat → List Nat) (is : List Nat) : List Nat :=
  is.foldr (fun i acc => mergePositions (step i) acc) []

def steps (step : Nat → List Nat) : Nat → List Nat → List Nat
  | 0, is => is
  | n + 1, is => steps step n (spread step is)

def upTo (step : Nat → List Nat) : Nat → List Nat → List Nat
  | 0, is => is
  | n + 1, is =>
    let js := spread step is
    if js.all is.contains then is else upTo step n (mergePositions js is)

def isWordAt (cs : Array Char) (i : Nat) : Bool :=
  match cs[i]? with
  | some c => CharSet.wideWord.has c
  | none => false

def atBoundary (cs : Array Char) (i : Nat) : Bool :=
  (if i = 0 then false else isWordAt cs (i - 1)) != isWordAt cs i

/-- Where a match that begins at `i` may end. -/
def ends (cs : Array Char) : Regex → Nat → List Nat
  | empty, i => [i]
  | set s, i =>
    match cs[i]? with
    | some c => if s.has c then [i + 1] else []
    | none => []
  | seq a b, i => spread (ends cs b) (ends cs a i)
  | alt a b, i => mergePositions (ends cs a i) (ends cs b i)
  | rep a least most, i =>
    let rest := match most with
      | some n => n - least
      | none => cs.size + 1
    upTo (ends cs a) rest (steps (ends cs a) least [i])
  | first ofLine, i => if i = 0 || (ofLine && cs[i - 1]? == some '\n') then [i] else []
  | last ofLine, i => if i = cs.size || (ofLine && cs[i]? == some '\n') then [i] else []
  | boundary wanted, i => if atBoundary cs i == wanted then [i] else []
  | look true wanted a, i => if (ends cs a i).isEmpty != wanted then [i] else []
  | look false wanted a, i =>
    let found := (List.range (i + 1)).any fun j => (ends cs a j).contains i
    if found == wanted then [i] else []

def isMatch (r : Regex) (text : String) : Bool :=
  let cs := text.toList.toArray
  (List.range (cs.size + 1)).any fun i => !(ends cs r i).isEmpty

end Regex
end Unseal
