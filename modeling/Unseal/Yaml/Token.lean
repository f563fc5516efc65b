import Unseal.Yaml.Scalar

/-!
# Tokens of YAML

The tokens of a text in their order. A token that may turn out to be the key of a mapping is
held back until the text decides it: a colon on the same line puts a key mark before it. So a
fault of the text comes after all tokens before the first one still held back.
-/

set_option autoImplicit false

namespace Unseal.Yaml

inductive TokenKind where
  | streamStart | streamEnd
  | version (major minor : Nat)
  | tagHandle (handle expansion : String)
  | documentStart | documentEnd
  | blockSequence | blockMapping | blockEnd
  | flowSequence | flowSequenceEnd | flowMapping | flowMappingEnd
  | blockEntry | flowEntry | key | value
  | alias (name : String) | anchor (name : String) | tag (handle suffix : String)
  | scalar (text : String) (plain : Bool)
deriving DecidableEq, Repr

structure Token where
  kind : TokenKind
  first : Mark
  last : Mark
deriving DecidableEq, Repr

/-- A token that may be a key: its number and place. One at the indentation of its collection
has to be. -/
structure PendingKey where
  required : Bool
  number : Nat
  mark : Mark
deriving Repr

structure Scanner where
  source : Source
  /-- Tokens read and not yet taken. -/
  queue : List Token
  /-- How many tokens have been taken. -/
  taken : Nat
  started : Bool
  /-- The columns of the open block collections, the innermost first. -/
  indents : List Nat
  keyAllowed : Bool
  /-- The key that may be under way, for each open flow collection and the block around them. -/
  pending : List (Option PendingKey)

namespace Scanner

def ofSource (s : Source) : Scanner := ⟨s, [], 0, false, [], false, []⟩

def inFlow (s : Scanner) : Bool := decide (1 < s.pending.length)

def nextNumber (s : Scanner) : Nat := s.taken + s.queue.length

def push (s : Scanner) (t : Token) : Scanner := { s with queue := s.queue ++ [t] }

def insert (s : Scanner) (number : Nat) (t : Token) : Scanner :=
  let i := number - s.taken
  { s with queue := s.queue.take i ++ t :: s.queue.drop i }

def moveTo (s : Scanner) (source : Source) : Scanner := { s with source := source }

def pushMark (s : Scanner) (kind : TokenKind) (n : Nat) : Scanner :=
  let after := s.source.skip n
  (s.push ⟨kind, s.source.mark, after.mark⟩).moveTo after

/-! ## Keys -/

def noKey {α : Type} (k : PendingKey) (m : Mark) : Except Fault α :=
  malformedIn "while scanning a simple key" k.mark "could not find expected ':'" m

/-- A key ends on the line where it began and within 1024 characters. -/
def isStale (m : Mark) (k : PendingKey) : Bool :=
  decide (k.mark.line < m.line) || decide (k.mark.index + 1024 < m.index)

def expire (s : Scanner) : Except Fault Scanner := do
  let pending ← s.pending.mapM fun
    | some k =>
      if isStale s.source.mark k then
        if k.required then noKey k s.source.mark else .ok none
      else .ok (some k)
    | none => .ok none
  .ok { s with pending := pending }

def dropKey (s : Scanner) : Except Fault Scanner :=
  match s.pending with
  | some k :: rest =>
    if k.required then noKey k s.source.mark else .ok { s with pending := none :: rest }
  | _ => .ok s

def saveKey (s : Scanner) : Except Fault Scanner :=
  if s.keyAllowed then do
    let required := !s.inFlow && s.indents.head? == some s.source.mark.column
    let s ← s.dropKey
    .ok { s with pending := some ⟨required, s.nextNumber, s.source.mark⟩ :: s.pending.drop 1 }
  else .ok s

/-! ## Indentation -/

def roll (s : Scanner) (column number : Nat) (kind : TokenKind) (m : Mark) : Scanner :=
  let deeper := match s.indents with
    | i :: _ => decide (i < column)
    | [] => true
  if !s.inFlow && deeper then
    { s.insert number ⟨kind, m, m⟩ with indents := column :: s.indents }
  else s

def unroll (s : Scanner) (column : Option Nat) : Scanner :=
  if s.inFlow then s
  else
    let closed := s.indents.takeWhile fun i =>
      match column with
      | some c => decide (c < i)
      | none => true
    { s with
      indents := s.indents.drop closed.length
      queue := s.queue ++ closed.map fun _ => ⟨.blockEnd, s.source.mark, s.source.mark⟩ }

/-! ## Tokens one by one -/

/-- Past blanks, comments and line breaks. After a break in a block a key may begin; tabs do
not count as indentation there. A mark of the byte order may begin the text. -/
def skipToToken : Nat → Scanner → Scanner
  | 0, s => s
  | n + 1, s =>
    let tabs := s.inFlow || !s.keyAllowed
    let source :=
      if s.source.mark.index = 0 && s.source.starts '\ufeff' then s.source.skip 1 else s.source
    let source := (source.skipRun fun c => c == ' ' || (tabs && c == '\t')).skipComment
    if source.atBreak then
      skipToToken n { s with source := source.skipBreak, keyAllowed := s.keyAllowed || !s.inFlow }
    else s.moveTo source

def fetchStreamEnd (s : Scanner) : Except Fault Scanner := do
  let m := s.source.mark
  let m : Mark := if m.column = 0 then m else ⟨m.index, m.line + 1, 0⟩
  let s ← ((s.moveTo ⟨s.source.rest, m⟩).unroll none).dropKey
  .ok { s.push ⟨.streamEnd, m, m⟩ with keyAllowed := false }

def fetchDocumentMarker (s : Scanner) (kind : TokenKind) : Except Fault Scanner := do
  let s ← (s.unroll none).dropKey
  .ok { s.pushMark kind 3 with keyAllowed := false }

def openFlow (s : Scanner) (kind : TokenKind) : Except Fault Scanner := do
  let s ← s.saveKey
  .ok { s.pushMark kind 1 with pending := none :: s.pending, keyAllowed := true }

def closeFlow (s : Scanner) (kind : TokenKind) : Except Fault Scanner := do
  let s ← s.dropKey
  let pending := if s.inFlow then s.pending.drop 1 else s.pending
  .ok { s.pushMark kind 1 with pending := pending, keyAllowed := false }

def fetchFlowEntry (s : Scanner) : Except Fault Scanner := do
  let s ← s.dropKey
  .ok { s.pushMark .flowEntry 1 with keyAllowed := true }

def fetchBlockEntry (s : Scanner) : Except Fault Scanner := do
  let m := s.source.mark
  if !s.inFlow && !s.keyAllowed then
    malformed "block sequence entries are not allowed in this context" m
  else
    let s ← (s.roll m.column s.nextNumber .blockSequence m).dropKey
    .ok { s.pushMark .blockEntry 1 with keyAllowed := true }

def fetchKey (s : Scanner) : Except Fault Scanner := do
  let m := s.source.mark
  if !s.inFlow && !s.keyAllowed then
    malformed "mapping keys are not allowed in this context" m
  else
    let s ← (s.roll m.column s.nextNumber .blockMapping m).dropKey
    .ok { s.pushMark .key 1 with keyAllowed := !s.inFlow }

def fetchValue (s : Scanner) : Except Fault Scanner :=
  let m := s.source.mark
  match s.pending with
  | some k :: rest =>
    let s := (s.insert k.number ⟨.key, k.mark, k.mark⟩).roll k.mark.column k.number .blockMapping
      k.mark
    .ok { s.pushMark .value 1 with pending := none :: rest, keyAllowed := false }
  | _ =>
    if !s.inFlow && !s.keyAllowed then
      malformed "mapping values are not allowed in this context" m
    else
      let s := s.roll m.column s.nextNumber .blockMapping m
      .ok { s.pushMark .value 1 with keyAllowed := !s.inFlow }

def endsName : List Char → Bool
  | [] => true
  | c :: _ => isBlank c || isBreak c || "?:,]\x7d%@\x60".toList.contains c

def fetchName (s : Scanner) (context : String) (kind : String → TokenKind) :
    Except Fault Scanner := do
  let s ← s.saveKey
  let start := s.source.mark
  let (name, after) := (s.source.skip 1).takeRun isNameChar
  if name.isEmpty || !endsName after.rest then
    malformedIn context start "did not find expected alphabetic or numeric character" after.mark
  else
    .ok { (s.push ⟨kind (String.ofList name), start, after.mark⟩).moveTo after with
      keyAllowed := false }

/-! ### Tags and directives -/

/-- The handle of a tag: a name between exclamation marks, or one mark alone. -/
def takeHandle (s : Source) : List Char × Source :=
  let (name, after) := (s.skip 1).takeRun isNameChar
  if after.starts '!' then ('!' :: (name ++ ['!']), after.skip 1) else ('!' :: name, after)

def isTagChar (wide : Bool) (c : Char) : Bool :=
  isNameChar c || ";/?:@&=+$.%!~*'()".toList.contains c || (wide && ",[]".toList.contains c)

def escapeLength? (first : Nat) : Option Nat :=
  if first < 0x80 then some 1
  else if first / 32 = 6 then some 2
  else if first / 16 = 14 then some 3
  else if first / 8 = 30 then some 4
  else none

def readUriEscapes (context : String) (start : Mark) :
    Nat → Option Nat → Nat → Source → Except Fault (Char × Source)
  | 0, _, code, s => .ok (Char.ofNat code, s)
  | n + 1, expected, code, s =>
    match s.rest with
    | '%' :: a :: b :: _ =>
      match hexValue? [a, b], expected with
      | some byte, none =>
        match escapeLength? byte with
        | some length =>
          let bits := if byte < 0x80 then byte else byte % (1 <<< (7 - length))
          readUriEscapes context start (min n (length - 1)) (some (length - 1)) bits (s.skip 3)
        | none =>
          malformedIn context start "found an incorrect leading UTF-8 octet" s.mark
      | some byte, some _ =>
        if byte / 64 = 2 then
          readUriEscapes context start n expected (code * 64 + byte % 64) (s.skip 3)
        else malformedIn context start "found an incorrect trailing UTF-8 octet" s.mark
      | none, _ => malformedIn context start "did not find URI escaped octet" s.mark
    | _ => malformedIn context start "did not find URI escaped octet" s.mark

def takeTagChars (context : String) (start : Mark) (wide : Bool) :
    Nat → Source → Except Fault (List Char × Source)
  | 0, s => .ok ([], s)
  | n + 1, s =>
    match s.rest with
    | c :: _ =>
      if c = '%' then do
        let (x, s) ← readUriEscapes context start 4 none 0 s
        let (more, s) ← takeTagChars context start wide n s
        .ok (x :: more, s)
      else if isTagChar wide c then do
        let (more, s) ← takeTagChars context start wide n (s.skip 1)
        .ok (c :: more, s)
      else .ok ([], s)
    | [] => .ok ([], s)

/-- The characters of a tag after its handle. There must be some unless the handle's `head` holds
some already. -/
def takeTagUri (directive wide : Bool) (head : List Char) (start : Mark) (s : Source) :
    Except Fault (List Char × Source) := do
  let context := if directive then "while parsing a %TAG directive" else "while parsing a tag"
  let (cs, after) ← takeTagChars context start wide (s.rest.length + 1) s
  if cs.isEmpty && head.isEmpty then
    malformedIn context start "did not find expected tag URI" after.mark
  else .ok (head.drop 1 ++ cs, after)

def readTag (s : Source) : Except Fault (String × String × Source) := do
  let start := s.mark
  match s.rest with
  | '!' :: '<' :: _ => do
    let (uri, s) ← takeTagUri false true [] start (s.skip 2)
    if s.starts '>' then .ok ("", String.ofList uri, s.skip 1)
    else malformedIn "while scanning a tag" start "did not find the expected '>'" s.mark
  | _ => do
    let (handle, s) := takeHandle s
    if 1 < handle.length ∧ handle.getLast? = some '!' then
      let (suffix, s) ← takeTagUri false false [] start s
      .ok (String.ofList handle, String.ofList suffix, s)
    else
      let (suffix, s) ← takeTagUri false false handle start s
      if suffix.isEmpty then .ok ("", "!", s) else .ok ("!", String.ofList suffix, s)

def fetchTag (s : Scanner) : Except Fault Scanner := do
  let s ← s.saveKey
  let start := s.source.mark
  let (handle, suffix, after) ← readTag s.source
  if endsWord after.rest || (s.inFlow && after.starts ',') then
    .ok { (s.push ⟨.tag handle suffix, start, after.mark⟩).moveTo after with keyAllowed := false }
  else
    malformedIn "while scanning a tag" start "did not find expected whitespace or line break"
      after.mark

def isDecimal (c : Char) : Bool := '0' ≤ c && c ≤ '9'

def readVersionNumber (start : Mark) (s : Source) : Except Fault (Nat × Source) :=
  let context := "while scanning a %YAML directive"
  let (digits, after) := s.takeRun isDecimal
  if 9 < digits.length then
    malformedIn context start "found extremely long version number" (s.skip 9).mark
  else if digits.isEmpty then
    malformedIn context start "did not find expected version number" s.mark
  else .ok (digits.foldl (fun n d => n * 10 + (d.toNat - 48)) 0, after)

def readVersion (start : Mark) (s : Source) : Except Fault (TokenKind × Source) := do
  let (major, s) ← readVersionNumber start (s.skipRun isBlank)
  if s.starts '.' then
    let (minor, s) ← readVersionNumber start (s.skip 1)
    .ok (.version major minor, s)
  else
    malformedIn "while scanning a %YAML directive" start
      "did not find expected digit or '.' character" s.mark

def readTagDirective (start : Mark) (s : Source) : Except Fault (TokenKind × Source) := do
  let s := s.skipRun isBlank
  if !s.starts '!' then
    malformedIn "while scanning a tag directive" start "did not find expected '!'" s.mark
  else
    let (handle, s) := takeHandle s
    if handle ≠ ['!'] ∧ handle.getLast? ≠ some '!' then
      malformedIn "while parsing a tag directive" start "did not find expected '!'" s.mark
    else if !(match s.rest with | c :: _ => isBlank c | [] => false) then
      malformedIn "while scanning a %TAG directive" start "did not find expected whitespace" s.mark
    else
      let (expansion, s) ← takeTagUri true true [] start (s.skipRun isBlank)
      if endsWord s.rest then
        .ok (.tagHandle (String.ofList handle) (String.ofList expansion), s)
      else
        malformedIn "while scanning a %TAG directive" start
          "did not find expected whitespace or line break" s.mark

def fetchDirective (s : Scanner) : Except Fault Scanner := do
  let s ← (s.unroll none).dropKey
  let start := s.source.mark
  let context := "while scanning a directive"
  let (name, after) := (s.source.skip 1).takeRun isNameChar
  if name.isEmpty then
    malformedIn context start "could not find expected directive name" after.mark
  else if !endsWord after.rest then
    malformedIn context start "found unexpected non-alphabetical character" after.mark
  else
    let (kind, after) ←
      if name = "YAML".toList then readVersion start after
      else if name = "TAG".toList then readTagDirective start after
      else malformedIn context start "found unknown directive name" after.mark
    let tail := (after.skipRun isBlank).skipComment
    if tail.atLineEnd then
      .ok { (s.push ⟨kind, start, after.mark⟩).moveTo tail.skipBreak with keyAllowed := false }
    else
      malformedIn context start "did not find expected comment or line break" tail.mark

/-! ### Scalars -/

def fetchBlock (s : Scanner) (literal : Bool) : Except Fault Scanner := do
  let s ← s.dropKey
  let start := s.source.mark
  let (text, last, after) ← readBlock literal s.indents.head? s.source
  .ok { (s.push ⟨.scalar text false, start, last⟩).moveTo after with keyAllowed := true }

def fetchQuoted (s : Scanner) (single : Bool) : Except Fault Scanner := do
  let s ← s.saveKey
  let start := s.source.mark
  let (text, after) ← readQuoted single s.source
  .ok { (s.push ⟨.scalar text false, start, after.mark⟩).moveTo after with keyAllowed := false }

def fetchPlain (s : Scanner) : Except Fault Scanner := do
  let s ← s.saveKey
  let start := s.source.mark
  let indent := match s.indents with
    | i :: _ => i + 1
    | [] => 0
  let p ← readPlain s.inFlow indent s.source
  .ok { (s.push ⟨.scalar (String.ofList p.text) true, start, p.last⟩).moveTo p.after with
    keyAllowed := p.broken }

def beginsPlain (flow : Bool) (c : Char) (cs : List Char) : Bool :=
  let next := cs.head?
  (!isBlank c && !isBreak c && !"-?:,[]\x7b\x7d#&*!|>'\"%@\x60".toList.contains c) ||
    (c == '-' && !(next.map isBlank == some true)) ||
    (!flow && (c == '?' || c == ':') && !endsWord cs)

def fetch (s : Scanner) : Except Fault Scanner :=
  if !s.started then
    .ok { s.push ⟨.streamStart, s.source.mark, s.source.mark⟩ with
      started := true, keyAllowed := true, pending := [none] }
  else do
    let s ← (skipToToken (s.source.rest.length + 1) s).expire
    let s := s.unroll (some s.source.mark.column)
    match s.source.rest with
    | [] => s.fetchStreamEnd
    | c :: cs =>
      let flow := s.inFlow
      if s.source.mark.column = 0 ∧ c = '%' then s.fetchDirective
      else if s.source.atIndicator '-' then s.fetchDocumentMarker .documentStart
      else if s.source.atIndicator '.' then s.fetchDocumentMarker .documentEnd
      else if c = '[' then s.openFlow .flowSequence
      else if c = '\x7b' then s.openFlow .flowMapping
      else if c = ']' then s.closeFlow .flowSequenceEnd
      else if c = '\x7d' then s.closeFlow .flowMappingEnd
      else if c = ',' then s.fetchFlowEntry
      else if c = '-' ∧ endsWord cs then s.fetchBlockEntry
      else if c = '?' ∧ (flow ∨ endsWord cs) then s.fetchKey
      else if c = ':' ∧ (flow ∨ endsWord cs) then s.fetchValue
      else if c = '*' then s.fetchName "while scanning an alias" .alias
      else if c = '&' then s.fetchName "while scanning an anchor" .anchor
      else if c = '!' then s.fetchTag
      else if c = '|' ∧ !flow then s.fetchBlock true
      else if c = '>' ∧ !flow then s.fetchBlock false
      else if c = '\'' then s.fetchQuoted true
      else if c = '"' then s.fetchQuoted false
      else if beginsPlain flow c cs then s.fetchPlain
      else
        malformedIn "while scanning for the next token" s.source.mark
          "found character that cannot start any token" s.source.mark

/-- Whether the first token may still turn out to be a key. -/
def headPends (s : Scanner) : Bool :=
  s.pending.any fun
    | some k => k.number == s.taken
    | none => false

def settle : Nat → Scanner → Except Fault Scanner
  | 0, s => .ok s
  | n + 1, s =>
    if s.queue.isEmpty then do
      let s ← s.fetch
      settle n s
    else do
      let s ← s.expire
      if s.headPends then
        let s ← s.fetch
        settle n s
      else .ok s

def peek (s : Scanner) : Except Fault (Token × Scanner) := do
  let s ← settle (s.source.rest.length + 3) s
  match s.queue with
  | t :: _ => .ok (t, s)
  | [] => .ok (⟨.streamEnd, s.source.mark, s.source.mark⟩, s)

def skip (s : Scanner) : Scanner := { s with queue := s.queue.drop 1, taken := s.taken + 1 }

end Scanner
end Unseal.Yaml
