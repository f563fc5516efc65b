import Unseal.Yaml.Token

/-!
# Events of YAML

The nodes of a text as a flat sequence: scalars, aliases, and the beginnings and ends of
collections and documents. Each event follows from the tokens ahead and from the productions
still open.
-/

set_option autoImplicit false

namespace Unseal.Yaml

inductive Event where
  | streamStart | streamEnd | documentStart | documentEnd
  | alias (name : String)
  | scalar (anchor tag : Option String) (text : String) (plain : Bool)
  | sequence (anchor tag : Option String)
  | sequenceEnd
  | mapping (anchor tag : Option String)
  | mappingEnd
deriving DecidableEq, Repr

inductive Production where
  | streamStart
  /-- A document, which may do without a marker if it is the first. -/
  | document (first : Bool)
  | documentContent | documentEnd | blockNode
  | sequenceEntry | indentlessEntry | mappingKey | mappingValue
  | flowEntry (first : Bool)
  | pairKey | pairValue | pairEnd
  | flowKey (first : Bool)
  | flowValue (empty : Bool)
  | finished
deriving DecidableEq, Repr

structure Parser where
  scanner : Scanner
  next : Production
  /-- The productions to go on with, the innermost first. -/
  awaiting : List Production
  /-- Where the open collections began. -/
  marks : List Mark
  /-- The handles of the document's tags. -/
  handles : List (String × String)

abbrev Parse (α : Type) := StateT Parser (Except Fault) α

namespace Parser

def ofSource (s : Source) : Parser := ⟨.ofSource s, .streamStart, [], [], []⟩

abbrev Out := Event × Mark

def peek : Parse Token := fun p => do
  let (t, scanner) ← p.scanner.peek
  .ok (t, { p with scanner := scanner })

def skip : Parse Unit := modify fun p => { p with scanner := p.scanner.skip }

def goTo (next : Production) : Parse Unit := modify fun p => { p with next := next }

def pushOpen (after : Production) : Parse Unit :=
  modify fun p => { p with awaiting := after :: p.awaiting }

def popOpen : Parse Unit := modify fun p =>
  match p.awaiting with
  | next :: rest => { p with next := next, awaiting := rest }
  | [] => { p with next := .finished }

def enter : Parse Unit := do
  let t ← peek
  modify fun p => { p with marks := t.first :: p.marks }
  skip

def leave : Parse Unit := do
  modify fun p => { p with marks := p.marks.drop 1 }
  popOpen

def fail {α : Type} (problem : String) (m : Mark) : Parse α := fun _ => malformed problem m

def failIn {α : Type} (context : String) (start : Mark) (problem : String) (m : Mark) : Parse α :=
  fun _ => malformedIn context start problem m

def failInside {α : Type} (context problem : String) (m : Mark) : Parse α := do
  let p ← get
  failIn context (p.marks.headD .start) problem m

def emptyScalar (m : Mark) : Out := (.scalar none none "" true, m)

/-! ## Nodes -/

def usualHandles : List (String × String) := [("!", "!"), ("!!", "tag:yaml.org,2002:")]

def expandTag (start : Mark) (t : Token) (handle suffix : String) : Parse String := do
  if handle.isEmpty then pure suffix
  else
    let p ← get
    match (p.handles ++ usualHandles).lookup handle with
    | some expansion => pure (expansion ++ suffix)
    | none => failIn "while parsing a node" start "found undefined tag handle" t.first

def properties (start : Mark) : Parse (Option String × Option String) := do
  let t ← peek
  match t.kind with
  | .anchor name =>
    skip
    let t ← peek
    match t.kind with
    | .tag handle suffix =>
      skip
      let _ ← peek
      let tag ← expandTag start t handle suffix
      pure (some name, some tag)
    | _ => pure (some name, none)
  | .tag handle suffix =>
    skip
    let t' ← peek
    match t'.kind with
    | .anchor name =>
      skip
      let _ ← peek
      let tag ← expandTag start t handle suffix
      pure (some name, some tag)
    | _ =>
      let tag ← expandTag start t handle suffix
      pure (none, some tag)
  | _ => pure (none, none)

/-- A node. In a block it may be a block collection; as the value of a block mapping it may
also be a sequence that is not indented. -/
def node (block indentless : Bool) : Parse Out := do
  let t ← peek
  let start := t.first
  match t.kind with
  | .alias name =>
    popOpen
    skip
    pure (.alias name, start)
  | _ =>
    let (anchor, tag) ← properties start
    let t ← peek
    let begins (next : Production) (event : Event) : Parse Out := do
      goTo next
      pure (event, start)
    match t.kind with
    | .scalar text plain =>
      popOpen
      skip
      pure (.scalar anchor (if tag = some "!" then none else tag) text plain, start)
    | .flowSequence => begins (.flowEntry true) (.sequence anchor tag)
    | .flowMapping => begins (.flowKey true) (.mapping anchor tag)
    | kind =>
      if indentless && kind == .blockEntry then begins .indentlessEntry (.sequence anchor tag)
      else if block && kind == .blockSequence then
        enter
        begins .sequenceEntry (.sequence anchor tag)
      else if block && kind == .blockMapping then
        enter
        begins .mappingKey (.mapping anchor tag)
      else if anchor.isSome || tag.isSome then
        popOpen
        pure (.scalar anchor tag "" true, start)
      else
        failIn (if block then "while parsing a block node" else "while parsing a flow node")
          start "did not find expected node content" t.first

/-- A node, unless one of some tokens shows that it is empty; then it stands at `m`. -/
def nodeUnless (ends : List TokenKind) (block indentless : Bool) (after : Production) (m : Mark) :
    Parse Out := do
  let t ← peek
  if ends.contains t.kind then
    goTo after
    pure (emptyScalar m)
  else
    pushOpen after
    node block indentless

/-! ## Documents -/

def directives : Nat → Bool → List (String × String) → Parse (List (String × String))
  | 0, _, handles => pure handles
  | n + 1, versioned, handles => do
    let t ← peek
    match t.kind with
    | .version major minor =>
      if versioned then fail "found duplicate %YAML directive" t.first
      else if major ≠ 1 ∨ (minor ≠ 1 ∧ minor ≠ 2) then
        fail "found incompatible YAML document" t.first
      else
        skip
        directives n true handles
    | .tagHandle handle expansion =>
      if (handles.lookup handle).isSome then fail "found duplicate %TAG directive" t.first
      else
        skip
        directives n versioned ((handle, expansion) :: handles)
    | _ => pure handles

def skipEnds : Nat → Parse Unit
  | 0 => pure ()
  | n + 1 => do
    let t ← peek
    if t.kind = .documentEnd then
      skip
      skipEnds n

/-- More than the tokens that can still come. -/
def allowance : Parse Nat := do
  let p ← get
  pure (p.scanner.source.rest.length + p.scanner.queue.length + 1)

def document (first : Bool) : Parse Out := do
  let n ← allowance
  if !first then skipEnds n
  let t ← peek
  let explicit := match t.kind with
    | .version _ _ => true
    | .tagHandle _ _ => true
    | .documentStart => true
    | .streamEnd => true
    | _ => false
  if first && !explicit then
    modify fun p => { p with handles := [] }
    pushOpen .documentEnd
    goTo .blockNode
    pure (.documentStart, t.first)
  else if t.kind = .streamEnd then
    goTo .finished
    skip
    pure (.streamEnd, t.first)
  else
    let handles ← directives n false []
    modify fun p => { p with handles := handles }
    let d ← peek
    if d.kind ≠ .documentStart then fail "did not find expected <document start>" d.first
    else
      pushOpen .documentEnd
      goTo .documentContent
      skip
      pure (.documentStart, t.first)

def documentContent : Parse Out := do
  let t ← peek
  match t.kind with
  | .version _ _ | .tagHandle _ _ | .documentStart | .documentEnd | .streamEnd =>
    popOpen
    pure (emptyScalar t.first)
  | _ => node true false

def documentEnd : Parse Out := do
  let t ← peek
  if t.kind = .documentEnd then skip
  goTo (.document false)
  pure (.documentEnd, t.first)

/-! ## Collections -/

def sequenceEntry : Parse Out := do
  let t ← peek
  match t.kind with
  | .blockEntry =>
    skip
    nodeUnless [.blockEntry, .blockEnd] true false .sequenceEntry t.last
  | .blockEnd =>
    leave
    skip
    pure (.sequenceEnd, t.first)
  | _ => failInside "while parsing a block collection" "did not find expected '-' indicator" t.first

def indentlessEntry : Parse Out := do
  let t ← peek
  if t.kind = .blockEntry then
    skip
    nodeUnless [.blockEntry, .key, .value, .blockEnd] true false .indentlessEntry t.last
  else
    popOpen
    pure (.sequenceEnd, t.first)

def mappingKey : Parse Out := do
  let t ← peek
  match t.kind with
  | .key =>
    skip
    nodeUnless [.key, .value, .blockEnd] true true .mappingValue t.last
  | .blockEnd =>
    leave
    skip
    pure (.mappingEnd, t.first)
  | _ => failInside "while parsing a block mapping" "did not find expected key" t.first

def mappingValue : Parse Out := do
  let t ← peek
  if t.kind = .value then
    skip
    nodeUnless [.key, .value, .blockEnd] true true .mappingKey t.last
  else
    goTo .mappingKey
    pure (emptyScalar t.first)

def separator (first : Bool) (context problem : String) : Parse Unit := do
  if !first then
    let t ← peek
    if t.kind = .flowEntry then skip else failInside context problem t.first

def flowEntry (first : Bool) : Parse Out := do
  if first then enter
  let t ← peek
  if t.kind = .flowSequenceEnd then
    leave
    skip
    pure (.sequenceEnd, t.first)
  else
    separator first "while parsing a flow sequence" "did not find expected ',' or ']'"
    let t ← peek
    match t.kind with
    | .key =>
      goTo .pairKey
      skip
      pure (.mapping none none, t.first)
    | .flowSequenceEnd =>
      leave
      skip
      pure (.sequenceEnd, t.first)
    | _ =>
      pushOpen (.flowEntry false)
      node false false

def pairKey : Parse Out := do
  let t ← peek
  match t.kind with
  | .value | .flowEntry | .flowSequenceEnd =>
    skip
    goTo .pairValue
    pure (emptyScalar t.last)
  | _ =>
    pushOpen .pairValue
    node false false

def pairValue : Parse Out := do
  let t ← peek
  if t.kind = .value then
    skip
    let t ← peek
    nodeUnless [.flowEntry, .flowSequenceEnd] false false .pairEnd t.first
  else
    goTo .pairEnd
    pure (emptyScalar t.first)

def pairEnd : Parse Out := do
  let t ← peek
  goTo (.flowEntry false)
  pure (.mappingEnd, t.first)

def flowKey (first : Bool) : Parse Out := do
  if first then enter
  let t ← peek
  if t.kind = .flowMappingEnd then
    leave
    skip
    pure (.mappingEnd, t.first)
  else
    separator first "while parsing a flow mapping" "did not find expected ',' or '\x7d'"
    let t ← peek
    match t.kind with
    | .key =>
      skip
      let t ← peek
      nodeUnless [.value, .flowEntry, .flowMappingEnd] false false (.flowValue false) t.first
    | .flowMappingEnd =>
      leave
      skip
      pure (.mappingEnd, t.first)
    | _ =>
      pushOpen (.flowValue true)
      node false false

def flowValue (empty : Bool) : Parse Out := do
  let t ← peek
  if !empty && t.kind == .value then
    skip
    let t ← peek
    nodeUnless [.flowEntry, .flowMappingEnd] false false (.flowKey false) t.first
  else
    goTo (.flowKey false)
    pure (emptyScalar t.first)

def event : Parse Out := do
  let p ← get
  match p.next with
  | .streamStart =>
    let t ← peek
    goTo (.document true)
    skip
    pure (.streamStart, t.first)
  | .document first => document first
  | .documentContent => documentContent
  | .documentEnd => documentEnd
  | .blockNode => node true false
  | .sequenceEntry => sequenceEntry
  | .indentlessEntry => indentlessEntry
  | .mappingKey => mappingKey
  | .mappingValue => mappingValue
  | .flowEntry first => flowEntry first
  | .pairKey => pairKey
  | .pairValue => pairValue
  | .pairEnd => pairEnd
  | .flowKey first => flowKey first
  | .flowValue empty => flowValue empty
  | .finished => pure (.streamEnd, p.scanner.source.mark)

end Parser
end Unseal.Yaml
