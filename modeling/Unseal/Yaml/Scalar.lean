import Unseal.Yaml.Source

/-!
# Scalars of YAML

A scalar is read from where it begins. Line breaks within a flow scalar are folded: one alone
becomes a space, of several the first is dropped.
-/

set_option autoImplicit false

namespace Unseal.Yaml

/-- White space between words: blanks on one line, or the first break and those after it. -/
structure Gap where
  blanks : List Char
  first : List Char
  more : List Char
  /-- Whether a line has ended since the last word. -/
  broken : Bool

namespace Gap

def none : Gap := ⟨[], [], [], false⟩

def fold (g : Gap) : List Char :=
  if g.broken then
    if g.first.head? = some '\n' then
      if g.more.isEmpty then [' '] else g.more
    else g.first ++ g.more
  else g.blanks

end Gap

/-! ## Quoted scalars -/

def hexDigit? (c : Char) : Option Nat :=
  if '0' ≤ c ∧ c ≤ '9' then some (c.toNat - 48)
  else if 'a' ≤ c ∧ c ≤ 'f' then some (c.toNat - 87)
  else if 'A' ≤ c ∧ c ≤ 'F' then some (c.toNat - 55)
  else .none

def hexValue? (ds : List Char) : Option Nat :=
  ds.foldl (fun acc d => acc.bind fun n => (hexDigit? d).map (n * 16 + ·)) (some 0)

def simpleEscape? (c : Char) : Option Char :=
  [('0', '\x00'), ('a', '\x07'), ('b', '\x08'), ('t', '\t'), ('\t', '\t'), ('n', '\n'),
    ('v', '\x0b'), ('f', '\x0c'), ('r', '\r'), ('e', '\x1b'), (' ', ' '), ('"', '"'),
    ('/', '/'), ('\\', '\\'), ('N', '\u0085'), ('_', '\u00a0'), ('L', '\u2028'),
    ('P', '\u2029')].lookup c

def escapeWidth? (c : Char) : Option Nat := [('x', 2), ('u', 4), ('U', 8)].lookup c

def readEscape (start : Mark) (s : Source) : Except Fault (Char × Source) :=
  let context := "while parsing a quoted scalar"
  match s.rest.drop 1 with
  | [] => malformedIn context start "found unknown escape character" s.mark
  | c :: cs =>
    match simpleEscape? c, escapeWidth? c with
    | some x, _ => .ok (x, s.skip 2)
    | _, .none => malformedIn context start "found unknown escape character" s.mark
    | _, some width =>
      let s := s.skip 2
      let digits := cs.take width
      match hexValue? digits with
      | some n =>
        if digits.length < width then
          malformedIn context start "did not find expected hexdecimal number" s.mark
        else if h : n.isValidChar then .ok (Char.ofNatAux n h, s.skip width)
        else malformedIn context start "found invalid Unicode character escape code" s.mark
      | .none => malformedIn context start "did not find expected hexdecimal number" s.mark

def takeGap : Nat → Gap → Source → Gap × Source
  | 0, g, s => (g, s)
  | n + 1, g, s =>
    match s.rest with
    | c :: _ =>
      if isBlank c then
        takeGap n (if g.broken then g else { g with blanks := g.blanks ++ [c] }) (s.skip 1)
      else if isBreak c then
        let (b, s) := s.takeBreak
        takeGap n (if g.broken then { g with more := g.more ++ b } else ⟨[], b, [], true⟩) s
      else (g, s)
    | [] => (g, s)

def readQuotedFrom (single : Bool) (start : Mark) :
    Nat → List Char → Source → Except Fault (List Char × Source)
  | 0, _, s => malformedIn "while scanning a quoted scalar" start
      "found unexpected end of stream" s.mark
  | n + 1, acc, s =>
    let context := "while scanning a quoted scalar"
    let quote := if single then '\'' else '"'
    if s.atDocumentMarker then
      malformedIn context start "found unexpected document indicator" s.mark
    else match s.rest with
      | [] => malformedIn context start "found unexpected end of stream" s.mark
      | c :: cs =>
        if single && c == '\'' && cs.head? == some '\'' then
          readQuotedFrom single start n ('\'' :: acc) (s.skip 2)
        else if c = quote then .ok (acc.reverse, s.skip 1)
        else if !single && c == '\\' then
          if (s.skip 1).atBreak then
            let (g, s) := takeGap s.rest.length ⟨[], [], [], true⟩ (s.skip 1).skipBreak
            readQuotedFrom single start n (g.fold.reverse ++ acc) s
          else do
            let (x, s) ← readEscape start s
            readQuotedFrom single start n (x :: acc) s
        else if isBlank c || isBreak c then
          let (g, s) := takeGap s.rest.length .none s
          readQuotedFrom single start n (g.fold.reverse ++ acc) s
        else readQuotedFrom single start n (c :: acc) (s.skip 1)

def readQuoted (single : Bool) (s : Source) : Except Fault (String × Source) := do
  let (cs, s') ← readQuotedFrom single s.mark (s.rest.length + 1) [] (s.skip 1)
  .ok (String.ofList cs, s')

/-! ## Plain scalars -/

/-- The word of a plain scalar that begins here. A colon ends it before white space; in a flow
collection the marks of the collection end it too. -/
def takeWord (flow : Bool) (start : Mark) :
    List Char → Mark → Except Fault (List Char × Source)
  | [], m => .ok ([], ⟨[], m⟩)
  | c :: cs, m =>
    if isBlank c || isBreak c then .ok ([], ⟨c :: cs, m⟩)
    else if flow && c == ':' &&
        (cs.head?.map fun d => ",?[]\x7b\x7d".toList.contains d) == some true
    then malformedIn "while scanning a plain scalar" start "found unexpected ':'" m
    else if (c == ':' && endsWord cs) || (flow && ",[]\x7b\x7d".toList.contains c) then
      .ok ([], ⟨c :: cs, m⟩)
    else do
      let (word, s) ← takeWord flow start cs ⟨m.index + 1, m.line, m.column + 1⟩
      .ok (c :: word, s)

def takePlainGap (start : Mark) (indent : Nat) :
    Nat → Gap → Source → Except Fault (Gap × Source)
  | 0, g, s => .ok (g, s)
  | n + 1, g, s =>
    match s.rest with
    | c :: _ =>
      if isBlank c then
        if g.broken && decide (s.mark.column < indent) && c == '\t' then
          malformedIn "while scanning a plain scalar" start
            "found a tab character that violates indentation" s.mark
        else
          takePlainGap start indent n
            (if g.broken then g else { g with blanks := g.blanks ++ [c] }) (s.skip 1)
      else if isBreak c then
        let (b, s) := s.takeBreak
        takePlainGap start indent n
          (if g.broken then { g with more := g.more ++ b } else ⟨[], b, [], true⟩) s
      else .ok (g, s)
    | [] => .ok (g, s)

/-- A plain scalar as read so far: its text, where that ends, what follows it, and whether the
last thing read was a break. -/
structure Plain where
  text : List Char
  last : Mark
  after : Source
  broken : Bool

def readPlainFrom (flow : Bool) (indent : Nat) (start : Mark) :
    Nat → Gap → Plain → Except Fault Plain
  | 0, _, p => .ok p
  | n + 1, g, p =>
    if p.after.atDocumentMarker || p.after.starts '#' then .ok p
    else do
      let (word, s) ← takeWord flow start p.after.rest p.after.mark
      let p : Plain :=
        if word.isEmpty then p
        else ⟨p.text ++ g.fold ++ word, s.mark, s, false⟩
      let g := if word.isEmpty then g else .none
      if endsWord s.rest && !s.rest.isEmpty then
        let (g, s) ← takePlainGap start indent s.rest.length g s
        let p := { p with after := s, broken := g.broken }
        if !flow && decide (s.mark.column < indent) then .ok p
        else readPlainFrom flow indent start n g p
      else .ok p

def readPlain (flow : Bool) (indent : Nat) (s : Source) : Except Fault Plain :=
  readPlainFrom flow indent s.mark (s.rest.length + 1) .none ⟨[], s.mark, s, false⟩

/-! ## Block scalars -/

inductive Chomp where
  | strip | clip | keep
deriving DecidableEq, Repr

def readBlockHeader (start : Mark) (s : Source) : Except Fault (Chomp × Option Nat × Source) :=
  match chomp? s with
  | some (c, s) => do
    let (n, s) ← width? s
    .ok (c, n, s)
  | .none => do
    let (n, s) ← width? s
    match n, chomp? s with
    | some n, some (c, s) => .ok (c, some n, s)
    | n, _ => .ok (.clip, n, s)
where
  chomp? (s : Source) : Option (Chomp × Source) :=
    if s.starts '+' then some (.keep, s.skip 1)
    else if s.starts '-' then some (.strip, s.skip 1)
    else .none
  width? (s : Source) : Except Fault (Option Nat × Source) :=
    match s.rest with
    | c :: _ =>
      if c = '0' then
        malformedIn "while scanning a block scalar" start
          "found an indentation indicator equal to 0" s.mark
      else if '1' ≤ c ∧ c ≤ '9' then .ok (some (c.toNat - 48), s.skip 1)
      else .ok (.none, s)
    | [] => .ok (.none, s)

/-- Empty lines and indentation before a line of a block scalar: the breaks, the deepest column
and where the last break ended. Without a known indentation all spaces are taken. -/
def takeBlockBreaks (start : Mark) (indent : Option Nat) :
    Nat → List Char → Nat → Mark → Source → Except Fault (List Char × Nat × Mark × Source)
  | 0, breaks, deepest, last, s => .ok (breaks, deepest, last, s)
  | n + 1, breaks, deepest, last, s =>
    let spaces := (s.rest.takeWhile (· == ' ')).length
    let s := s.skip (match indent with
      | some i => min spaces (i - s.mark.column)
      | .none => spaces)
    let deepest := max deepest s.mark.column
    let inside := match indent with
      | some i => decide (s.mark.column < i)
      | .none => true
    if inside && s.starts '\t' then
      malformedIn "while scanning a block scalar" start
        "found a tab character where an indentation space is expected" s.mark
    else if s.atBreak then
      let (b, s) := s.takeBreak
      takeBlockBreaks start indent n (breaks ++ b) deepest s.mark s
    else .ok (breaks, deepest, last, s)

/-- A block scalar as read so far, with the break that ended its last line and the breaks of
the empty lines after that. -/
structure Block where
  text : List Char
  lead : List Char
  trail : List Char
  /-- Whether the last line began with a blank, which keeps its breaks from being folded. -/
  blank : Bool
  last : Mark
  after : Source

def readBlockLines (literal : Bool) (start : Mark) (indent : Nat) :
    Nat → Block → Except Fault Block
  | 0, b => .ok b
  | n + 1, b =>
    let s := b.after
    if s.mark.column = indent ∧ !s.rest.isEmpty then do
      let blank := match s.rest with
        | c :: _ => isBlank c
        | [] => false
      let lead :=
        if !literal && b.lead.head? == some '\n' && !b.blank && !blank then
          if b.trail.isEmpty then [' '] else []
        else b.lead
      let (line, s) := s.takeRun fun c => !isBreak c
      let (ending, s) := s.takeBreak
      let (trail, _, last, s) ←
        takeBlockBreaks start (some indent) (s.rest.length + 1) [] 0 s.mark s
      readBlockLines literal start indent n
        ⟨b.text ++ lead ++ b.trail ++ line, ending, trail, blank, last, s⟩
    else .ok b

def readBlock (literal : Bool) (parent : Option Nat) (s : Source) :
    Except Fault (String × Mark × Source) := do
  let start := s.mark
  let (chomp, width, s) ← readBlockHeader start (s.skip 1)
  let s := (s.skipRun isBlank).skipComment
  if !s.atLineEnd then
    malformedIn "while scanning a block scalar" start
      "did not find expected comment or line break" s.mark
  else
    let s := s.skipBreak
    let given := width.map fun w => match parent with
      | some p => p + w
      | .none => w
    let (trail, deepest, last, s) ←
      takeBlockBreaks start given (s.rest.length + 1) [] 0 s.mark s
    let least := match parent with
      | some p => p + 1
      | .none => 0
    let indent := given.getD (max (max deepest least) 1)
    let b ← readBlockLines literal start indent (s.rest.length + 1)
      ⟨[], [], trail, false, last, s⟩
    let text := match chomp with
      | .strip => b.text
      | .clip => b.text ++ b.lead
      | .keep => b.text ++ b.lead ++ b.trail
    .ok (String.ofList text, b.last, b.after)

end Unseal.Yaml
