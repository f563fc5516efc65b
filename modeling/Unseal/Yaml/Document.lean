import Unseal.Yaml.Event

/-!
# Documents of YAML

The events of the first document of a text, as far as they can be read: a fault later in the
text matters only when a reader gets there. Anchors are numbered by how many names there were
before, and an alias leads to the last node with its number.
-/

set_option autoImplicit false

namespace Unseal.Yaml

inductive Step where
  | key (name : String)
  | index (i : Nat)
  | unnamed
deriving DecidableEq, Repr

abbrev Path := List Step

namespace Path

def text : Path → String
  | [] => "."
  | .index i :: p => text p ++ "[" ++ toString i ++ "]"
  | .key name :: [] => name
  | .key name :: p => text p ++ "." ++ name
  | .unnamed :: [] => "?"
  | .unnamed :: p => text p ++ ".?"

end Path

inductive Trouble where
  | malformed (f : Fault)
  | unknownAnchor (m : Mark)
  | tooDeep (m : Mark)
  | tooOften
  | noValue
  | several
  | mismatch (reason : String) (place : Option (Mark × Path))
deriving DecidableEq, Repr

namespace Trouble

def message : Trouble → String
  | malformed f => f.message
  | unknownAnchor m => "unknown anchor" ++ m.suffix
  | tooDeep m => "recursion limit exceeded" ++ m.suffix
  | tooOften => "repetition limit exceeded"
  | noValue => "EOF while parsing a value"
  | several => "deserializing from YAML containing more than one document is not supported"
  | mismatch reason none => reason
  | mismatch reason (some (m, [])) => reason ++ m.suffix
  | mismatch reason (some (m, path)) => Path.text path ++ ": " ++ reason ++ m.suffix

def placed (m : Mark) (path : Path) : Trouble → Trouble
  | mismatch reason none => mismatch reason (some (m, path))
  | t => t

end Trouble

inductive Item where
  | alias (number : Nat)
  | scalar (tag : Option String) (text : String) (plain : Bool)
  | sequence (tag : Option String)
  | sequenceEnd
  | mapping (tag : Option String)
  | mappingEnd
  /-- The only item of a text without any document. -/
  | void
deriving DecidableEq, Repr

structure Document where
  items : Array (Item × Mark)
  /-- The places of anchored nodes by number, the last first. -/
  targets : List (Nat × Nat)
  fault : Option Trouble

namespace Document

/-- A document under construction: with it, the numbers of the anchor names. -/
structure Draft where
  document : Document
  anchors : List (String × Nat)

def Draft.empty : Draft := ⟨⟨#[], [], none⟩, []⟩

def Draft.push (d : Draft) (i : Item) (m : Mark) : Draft :=
  { d with document := { d.document with items := d.document.items.push (i, m) } }

/-- The number of names, each counted once. -/
def Draft.nameCount (d : Draft) : Nat := (d.anchors.map (·.1)).eraseDups.length

def Draft.name (d : Draft) : Option String → Draft
  | none => d
  | some name =>
    let number := d.nameCount
    ⟨{ d.document with targets := (number, d.document.items.size) :: d.document.targets },
      (name, number) :: d.anchors⟩

def Draft.stop (d : Draft) (t : Trouble) : Document := { d.document with fault := some t }

def load (first : Bool) : Nat → Draft → Parser → Option Document × Parser
  | 0, d, p => (some d.document, p)
  | n + 1, d, p =>
    match Parser.event p with
    | .error f => (some (d.stop (.malformed f)), p)
    | .ok ((event, m), p) =>
      match event with
      | .streamStart => load first n d p
      | .documentStart => load first n d p
      | .documentEnd => (some d.document, p)
      | .streamEnd =>
        if first then
          (some (if d.document.items.isEmpty then (d.push .void m).document else d.document), p)
        else (none, p)
      | .alias name =>
        match d.anchors.lookup name with
        | some number => load first n (d.push (.alias number) m) p
        | none => (some (d.stop (.unknownAnchor m)), p)
      | .scalar anchor tag text plain =>
        load first n ((d.name anchor).push (.scalar tag text plain) m) p
      | .sequence anchor tag => load first n ((d.name anchor).push (.sequence tag) m) p
      | .sequenceEnd => load first n (d.push .sequenceEnd m) p
      | .mapping anchor tag => load first n ((d.name anchor).push (.mapping tag) m) p
      | .mappingEnd => load first n (d.push .mappingEnd m) p

/-- Reads a text with exactly one document. The mark of the byte order at its beginning does
not count. -/
def readWith {α : Type} (text : String) (read : Document → Except Trouble α) :
    Except Trouble α := do
  let (cs, offset) := match text.toList with
    | '\ufeff' :: cs => (cs, 3)
    | cs => (cs, 0)
  match controlOffset? offset cs with
  | some here =>
    read { Draft.empty.document with fault := some (.malformed (.control here)) }
  | none =>
    let fuel := 8 * cs.length + 16
    let (document, p) := load true fuel .empty (.ofSource ⟨cs, .start⟩)
    match document with
    | none => .error .noValue
    | some document =>
      let x ← read document
      match document.fault with
      | some t => .error t
      | none =>
        match load false fuel .empty p with
        | (none, _) => .ok x
        | (some _, _) => .error .several

end Document
end Unseal.Yaml
