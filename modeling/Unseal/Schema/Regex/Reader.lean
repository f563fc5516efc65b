import Unseal.Schema.Regex.Basic

/-!
# Reading regular expressions

An expression is read by a plain grammar in which the letters for classes mean ASCII. One that
looks ahead or behind, with nothing wrong before that, is read again by a wide grammar: there
the letters for classes cover all scripts and stray braces stand for themselves.
-/

set_option autoImplicit false

namespace Unseal.Regex

structure Flags where
  wide : Bool
  anyCase : Bool
  lines : Bool
  dotAll : Bool

def Flags.fold (f : Flags) (s : CharSet) : CharSet := if f.anyCase then .anyCase s else s

/-! ## Escapes -/

def hexDigit? (c : Char) : Option Nat :=
  if '0' ≤ c ∧ c ≤ '9' then some (c.toNat - 48)
  else if 'a' ≤ c ∧ c ≤ 'f' then some (c.toNat - 87)
  else if 'A' ≤ c ∧ c ≤ 'F' then some (c.toNat - 55)
  else none

def hexNumber? (ds : List Char) : Option Nat :=
  if ds.isEmpty then none
  else ds.foldl (fun n d => n.bind fun n => (hexDigit? d).map (n * 16 + ·)) (some 0)

def charOf? (n : Nat) : Option Char := if n.isValidChar then some (Char.ofNat n) else none

/-- A character by its number, in braces or in exactly `width` digits. -/
def readHex (width : Nat) (cs : List Char) : Option (Char × List Char) :=
  match cs with
  | '\x7b' :: rest =>
    let ds := rest.takeWhile (· != '\x7d')
    match rest.drop ds.length with
    | _ :: after => ((hexNumber? ds).bind charOf?).map (·, after)
    | [] => none
  | cs =>
    let ds := cs.take width
    if ds.length = width then ((hexNumber? ds).bind charOf?).map (·, cs.drop width) else none

def readEscapedChar (f : Flags) (c : Char) (cs : List Char) : Option (Char × List Char) :=
  if c = 'n' then some ('\n', cs)
  else if c = 'r' then some ('\r', cs)
  else if c = 't' then some ('\t', cs)
  else if c = 'f' then some ('\x0c', cs)
  else if c = 'v' then some ('\x0b', cs)
  else if c = 'a' then some ('\x07', cs)
  else if c = 'e' ∧ f.wide then some ('\x1b', cs)
  else if c = 'x' then readHex 2 cs
  else if c = 'u' then readHex 4 cs
  else if c = 'U' then readHex 8 cs
  else if c = 'c' then
    match cs with
    | d :: rest => if d.isAlpha then some (Char.ofNat (d.toNat % 32), rest) else none
    | [] => none
  else if c.isAlphanum ∨ c = '<' ∨ c = '>' ∨ 127 < c.toNat then none
  else some (c, cs)

def readCategory : List Char → Option (CharSet × List Char)
  | '\x7b' :: cs =>
    let (negated, cs) := match cs with
      | '^' :: cs => (true, cs)
      | cs => (false, cs)
    let name := cs.takeWhile (· != '\x7d')
    match cs.drop name.length with
    | [] => none
    | _ :: rest => (Text.Category.ofName? (String.ofList name)).map fun g =>
      (if negated then .complement (.category g) else .category g, rest)
  | c :: cs => (Text.Category.ofName? (String.singleton c)).map fun g => (.category g, cs)
  | [] => none

def readEscapedSet (f : Flags) (c : Char) (cs : List Char) : Option (CharSet × List Char) :=
  let digit : CharSet := if f.wide then .category .digit else .digit
  let word : CharSet := if f.wide then .wideWord else .word
  let space : CharSet := if f.wide then .blank else .space
  if c = 'd' then some (digit, cs)
  else if c = 'D' then some (.complement digit, cs)
  else if c = 'w' then some (word, cs)
  else if c = 'W' then some (.complement word, cs)
  else if c = 's' then some (space, cs)
  else if c = 'S' then some (.complement space, cs)
  else if c = 'p' then readCategory cs
  else if c = 'P' then (readCategory cs).map fun (s, rest) => (.complement s, rest)
  else none

/-! ## Classes in brackets -/

def posixSets : List (String × CharSet) :=
  [("alpha", .letter), ("digit", .digit), ("word", .word), ("alnum", .union .letter .digit),
    ("upper", .ofPair 'A' 'Z'), ("lower", .ofPair 'a' 'z'),
    ("space", .union (.range 9 13) (.single ' ')), ("blank", .ofList ['\t', ' ']),
    ("punct", .union (.range 33 47) (.union (.range 58 64) (.union (.range 91 96)
      (.range 123 126)))),
    ("xdigit", .union .digit (.union (.ofPair 'a' 'f') (.ofPair 'A' 'F'))),
    ("cntrl", .union (.range 0 31) (.range 127 127)), ("print", .range 32 126),
    ("graph", .range 33 126), ("ascii", .range 0 127)]

def readPosix (cs : List Char) : Option (CharSet × List Char) :=
  let (negated, cs) := match cs with
    | '^' :: cs => (true, cs)
    | cs => (false, cs)
  let name := cs.takeWhile (·.isAlpha)
  match cs.drop name.length with
  | ':' :: ']' :: rest =>
    (posixSets.lookup (String.ofList name)).map fun s =>
      (if negated then .complement s else s, rest)
  | _ => none

def readClassChar (f : Flags) : List Char → Option (Char × List Char)
  | '\\' :: c :: cs =>
    if c = 'b' then if f.wide then some ('\x08', cs) else none else readEscapedChar f c cs
  | '\\' :: [] => none
  | c :: cs => some (c, cs)
  | [] => none

/-- A hyphen that makes a range, as opposed to one before the end or another hyphen. -/
def makesRange : List Char → Bool
  | '-' :: ']' :: _ => false
  | '-' :: '-' :: _ => false
  | '-' :: _ => true
  | _ => false

def readRange (f : Flags) (c : Char) (cs : List Char) : Option (CharSet × List Char) :=
  if makesRange cs then
    (readClassChar f (cs.drop 1)).bind fun (d, after) =>
      if c.toNat ≤ d.toNat then some (.ofPair c d, after) else none
  else some (.single c, cs)

mutual
/-- A class after its opening bracket. Hyphens at the front stand for themselves, and so does a
closing bracket. -/
def readClass (f : Flags) : Nat → List Char → Option (CharSet × List Char)
  | 0, _ => none
  | fuel + 1, cs =>
    let (negated, cs) := match cs with
      | '^' :: cs => (true, cs)
      | cs => (false, cs)
    let (start, cs) : CharSet × List Char := match cs with
      | '-' :: _ => (.single '-', cs.dropWhile (· == '-'))
      | ']' :: cs => (.single ']', cs)
      | cs => (.none, cs)
    (readClassItems f fuel id start cs).map fun (s, rest) =>
      (if negated then .complement s else s, rest)

/-- The items of a class up to its closing bracket, joined to those before; `finish` combines
them with what stands before the last operator. -/
def readClassItems (f : Flags) :
    Nat → (CharSet → CharSet) → CharSet → List Char → Option (CharSet × List Char)
  | 0, _, _, _ => none
  | _, _, _, [] => none
  | fuel + 1, finish, acc, c :: cs =>
    let join (item : CharSet × List Char) := readClassItems f fuel finish (.union acc item.1) item.2
    let combine (op : CharSet → CharSet → CharSet) (cs : List Char) :=
      readClassItems f fuel (op (finish acc)) .none cs
    if c = ']' then some (finish acc, cs)
    else match c, cs with
      | '&', '&' :: cs => combine .both cs
      | '-', '-' :: cs => combine .without cs
      | '~', '~' :: cs => combine .apart cs
      | '[', ':' :: after =>
        match readPosix after with
        | some (s, rest) => join (f.fold s, rest)
        | none => (readClass f fuel cs).bind join
      | '[', cs => (readClass f fuel cs).bind join
      | '\\', d :: after =>
        match readEscapedSet f d after with
        | some (s, rest) => if makesRange rest then none else join (f.fold s, rest)
        | none =>
          (readClassChar f (c :: cs)).bind fun (x, rest) =>
            (readRange f x rest).bind fun (s, rest) => join (f.fold s, rest)
      | _, _ => (readRange f c cs).bind fun (s, rest) => join (f.fold s, rest)
end

/-! ## Repetition -/

def readCount (f : Flags) (cs : List Char) : Option (Nat × Option Nat × List Char) :=
  let number (ds : List Char) : Nat := ds.foldl (fun n d => n * 10 + (d.toNat - 48)) 0
  let least := cs.takeWhile Char.isDigit
  match cs.drop least.length with
  | '\x7d' :: rest =>
    if least.isEmpty then none else some (number least, some (number least), rest)
  | ',' :: rest =>
    let most := rest.takeWhile Char.isDigit
    match rest.drop most.length with
    | '\x7d' :: after =>
      if least.isEmpty ∧ (most.isEmpty ∨ !f.wide) then none
      else if most.isEmpty then some (number least, none, after)
      else if number least ≤ number most then some (number least, some (number most), after)
      else none
    | _ => none
  | _ => none

/-- Whether an expression may be repeated where no capturing group holds it. -/
def repeatable : Regex → Bool
  | empty => false
  | look _ _ _ => false
  | _ => true

/-- The marks that make a repetition lazy or possessive are passed over. -/
def skipMode : List Char → List Char
  | '?' :: cs => cs
  | '+' :: cs => cs
  | cs => cs

def readRepeat (f : Flags) (held : Bool) (r : Regex) (cs : List Char) :
    Option (Regex × List Char) :=
  let apply (least : Nat) (most : Option Nat) (rest : List Char) :=
    if held || repeatable r then some (rep r least most, skipMode rest) else none
  match cs with
  | '*' :: rest => apply 0 none rest
  | '+' :: rest => apply 1 none rest
  | '?' :: rest => apply 0 (some 1) rest
  | '\x7b' :: rest =>
    match readCount f rest with
    | some (least, most, after) => apply least most after
    | none => if f.wide then some (r, cs) else none
  | cs => some (r, cs)

/-! ## Expressions -/

inductive Stop where
  | malformed | looks
deriving DecidableEq, Repr

def orMalformed {α : Type} : Option α → Except Stop α
  | some x => .ok x
  | none => .error .malformed

/-- The flags of a group up to what ends them: letters switched on, and off after a hyphen.
No mark occurs twice and a hyphen is followed by a letter. -/
def readFlags (on : Bool) (seen : List Char) (f : Flags) : List Char → Option (Flags × List Char)
  | [] => none
  | c :: cs =>
    if c = ':' ∨ c = ')' then
      if seen.head? = some '-' ∨ (c = ')' ∧ seen.isEmpty) then none else some (f, c :: cs)
    else if seen.contains c then none
    else
      let more (f : Flags) := readFlags on (c :: seen) f cs
      if c = '-' then readFlags false (c :: seen) f cs
      else if c = 'i' then more { f with anyCase := on }
      else if c = 'm' then more { f with lines := on }
      else if c = 's' then more { f with dotAll := on }
      else if c = 'U' ∨ (c = 'u' ∧ on) then more f
      else none

def afterName (cs : List Char) : Option (List Char) :=
  let name := cs.takeWhile fun c => c.isAlphanum || c == '_'
  match name, cs.drop name.length with
  | c :: _, '>' :: rest => if c.isDigit then none else some rest
  | _, _ => none

def readEscape (f : Flags) (c : Char) (cs : List Char) : Option (Regex × List Char) :=
  match readEscapedSet f c cs with
  | some (s, rest) => some (set (f.fold s), rest)
  | none =>
    if c = 'b' then some (boundary true, cs)
    else if c = 'B' then some (boundary false, cs)
    else if c = 'A' then some (first false, cs)
    else if c = 'z' then some (last false, cs)
    else (readEscapedChar f c cs).map fun (x, rest) => (set (f.fold (.single x)), rest)

def readAtom (f : Flags) (c : Char) (cs : List Char) : Option (Regex × List Char) :=
  if c = '[' then
    (readClass f (cs.length + 1) cs).map fun (s, rest) => (set s, rest)
  else if c = '.' then some (set (if f.dotAll then .all else .inLine), cs)
  else if c = '^' then some (first f.lines, cs)
  else if c = '$' then some (last f.lines, cs)
  else if c = '*' ∨ c = '+' ∨ c = '?' ∨ (c = '\x7b' ∧ !f.wide) then none
  else if c = '\\' then
    match cs with
    | d :: rest => readEscape f d rest
    | [] => none
  else some (set (f.fold (.single c)), cs)

mutual
def readAlt : Nat → Flags → List Char → Except Stop (Regex × List Char)
  | 0, _, _ => .error .malformed
  | fuel + 1, f, cs => do
    let (a, rest) ← readSeq fuel f cs
    match rest with
    | '|' :: rest =>
      let (b, rest) ← readAlt fuel f rest
      .ok (alt a b, rest)
    | rest => .ok (a, rest)

def readSeq : Nat → Flags → List Char → Except Stop (Regex × List Char)
  | 0, _, _ => .error .malformed
  | fuel + 1, f, cs =>
    match cs with
    | [] => .ok (empty, [])
    | c :: rest =>
      if c = '|' ∨ c = ')' then .ok (empty, cs)
      else if c = '(' then readGroup fuel f rest
      else do
        let (a, rest) ← orMalformed (readAtom f c rest)
        let (a, rest) ← orMalformed (readRepeat f false a rest)
        let (b, rest) ← readSeq fuel f rest
        .ok (seq a b, rest)

def readGroup : Nat → Flags → List Char → Except Stop (Regex × List Char)
  | 0, _, _ => .error .malformed
  | fuel + 1, f, cs =>
    let close (held : Bool) (wrap : Regex → Regex) (inner : Flags) (cs : List Char) := do
      let (a, rest) ← readAlt fuel inner cs
      match rest with
      | ')' :: rest =>
        let (a, rest) ← orMalformed (readRepeat f held (wrap a) rest)
        let (b, rest) ← readSeq fuel f rest
        .ok (seq a b, rest)
      | _ => .error .malformed
    let closeLook (ahead wanted : Bool) (cs : List Char) :=
      if f.wide then close false (look ahead wanted) f cs else .error .looks
    match cs with
    | '?' :: '=' :: cs => closeLook true true cs
    | '?' :: '!' :: cs => closeLook true false cs
    | '?' :: '<' :: '=' :: cs => closeLook false true cs
    | '?' :: '<' :: '!' :: cs => closeLook false false cs
    | '?' :: '<' :: cs => do close true id f (← orMalformed (afterName cs))
    | '?' :: 'P' :: '<' :: cs => do close true id f (← orMalformed (afterName cs))
    | '?' :: '>' :: cs => if f.wide then close true id f cs else .error .malformed
    | '?' :: cs => do
      let (inner, rest) ← orMalformed (readFlags true [] f cs)
      match rest with
      | ')' :: rest => readSeq fuel inner rest
      | _ :: rest => close false id inner rest
      | [] => .error .malformed
    | cs => close true id f cs
end

def readBy (wide : Bool) (text : String) : Except Stop Regex :=
  match readAlt (4 * text.length + 4) ⟨wide, false, false, false⟩ text.toList with
  | .ok (r, []) => .ok r
  | .ok _ => .error .malformed
  | .error stop => .error stop

def read? (text : String) : Option Regex :=
  match readBy false text with
  | .ok r => some r
  | .error .looks => (readBy true text).toOption
  | .error .malformed => none

end Unseal.Regex
