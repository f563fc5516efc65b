import Unseal.Json.Pointer
import Unseal.Schema.Document
import Unseal.Schema.Draft
import Unseal.Schema.Index
import Unseal.Text.Utf8

/-!
# Libraries of schemas

Before a schema is used, every document it can reach is put into a library: documents by
identifier, and named places in them. References are then looked up in the library alone.
-/

set_option autoImplicit false

namespace Unseal

mutual
def Json.size : Json → Nat
  | .arr vs => sizeOfItems vs + 1
  | .obj ms => sizeOfMembers ms + 1
  | _ => 1

def Json.sizeOfItems : List Json → Nat
  | [] => 0
  | v :: vs => v.size + sizeOfItems vs

def Json.sizeOfMembers : List (String × Json) → Nat
  | [] => 0
  | (_, v) :: ms => v.size + sizeOfMembers ms
end

namespace Schema

/-- A named place of a document. One that is dynamic gives way to places of its name in the
documents from which it was reached. -/
structure Anchor where
  document : Uri
  name : String
  dynamic : Bool
  schema : Json

/-- Of two entries for one name the first holds. -/
structure Library where
  documents : List (Uri × Json)
  anchors : List Anchor

namespace Library

def document? (lib : Library) (uri : Uri) : Option Json := lib.documents.lookup uri

def addDocument (lib : Library) (uri : Uri) (v : Json) : Library :=
  { lib with documents := (uri, v) :: lib.documents }

def anchor? (lib : Library) (uri : Uri) (name : String) : Option Anchor :=
  lib.anchors.find? fun a => a.name == name && a.document == uri

/-! ## Finding what a document holds -/

def parts : Members Json → List Json
  | [] => []
  | (keyword, v) :: rest =>
    (if keyword = "contentSchema" then [v]
    else if keyword = "$defs" ∨ keyword = "definitions" then members v
    else match contentOf keyword with
      | .one => [v]
      | .many => items v
      | .named => members v
      | .other => []) ++ parts rest
where
  items : Json → List Json
    | .arr vs => vs
    | _ => []
  members : Json → List Json
    | .obj ms => ms.map (·.2)
    | _ => []

def anchorsOf (uri : Uri) (ms : Members Json) : List Anchor :=
  let named (keyword : String) (dynamic : Bool) : List Anchor :=
    match ms.find? keyword with
    | some (.str name) => [⟨uri, name, dynamic, .obj ms⟩]
    | _ => []
  named "$dynamicAnchor" true ++ named "$anchor" false

def drafts : List String :=
  [Draft.site, "https://json-schema.org/draft/2019-09/", "http://json-schema.org/draft-07/",
    "http://json-schema.org/draft-06/", "http://json-schema.org/draft-04/"]

/-- The documents that a node refers to. References within the document, to the known drafts
and from names without a location lead to none. -/
def outsideOf (base : Uri) (ms : Members Json) : Except Uri.Dangling (List Uri) :=
  if base.scheme = some "urn".toList then .ok [] else do
    let first ← target "$ref"
    let second ← target "$schema"
    .ok (first ++ second)
where
  target (keyword : String) : Except Uri.Dangling (List Uri) :=
    match ms.find? keyword with
    | some (.str text) =>
      if text.startsWith "#" || drafts.any (fun site => text.startsWith site) then .ok []
      else (base.resolve text).map ([·])
    | _ => .ok []

def checkDraft (v : Json) : Except SchemaFault Unit :=
  match v.get? "$schema" with
  | some (.str name) =>
    let name := baseOf.trimHash name
    if drafts.any fun site => site ++ "schema" = name then .ok ()
    else .error (.refused ("Unknown specification: " ++ name))
  | _ => .ok ()

def orDangling {α : Type} : Except Uri.Dangling α → Except SchemaFault α
  | .ok x => .ok x
  | .error d => .error (.dangling d)

/-- A library under construction: schemas still to be looked at, each under its base, and
documents found to be needed, in the order they were found. -/
structure Survey where
  library : Library
  waiting : List (Uri × Json)
  needed : List Uri

def Survey.visit (s : Survey) (base : Uri) : Json → Except SchemaFault Survey
  | .obj ms => do
    let base ← orDangling (baseOf base ms)
    let outside ← orDangling (outsideOf base ms)
    let inside := parts ms
    inside.forM checkDraft
    let lib := { s.library with anchors := anchorsOf base ms ++ s.library.anchors }
    let lib := if (Index.identifier? (.obj ms)).isSome then lib.addDocument base (.obj ms) else lib
    .ok ⟨lib, s.waiting ++ inside.map (base, ·), s.needed ++ outside⟩
  | _ => .ok s

def Survey.visitAll : Nat → Survey → Except SchemaFault Survey
  | 0, s => .ok s
  | n + 1, s =>
    match s.waiting with
    | [] => .ok s
    | (base, v) :: rest => do
      let s ← Survey.visit { s with waiting := rest } base v
      visitAll n s

def Survey.load (s : Survey) : Except SchemaFault Survey :=
  s.visitAll (Json.sizeOfItems (s.waiting.map (·.2)) + 1)

/-- Takes a needed document into the library. The place in it that the reference named is
looked at too, under the whole reference. -/
def Survey.fetch (index : Index) (s : Survey) (uri : Uri) : Except SchemaFault Survey :=
  let document := uri.withoutFragment
  if (s.library.document? document).isSome then .ok s else do
    let v ← match index.find? document.text with
      | some v => .ok v
      | none => .error (.unavailable document.text
          ("schema '" ++ document.text ++ "' is not available locally"))
    checkDraft v
    let named := (uri.fragment.bind fun f => Json.Pointer.resolve (String.ofList f) v).toList
    .ok ⟨s.library.addDocument document v,
      s.waiting ++ (named.map fun x => (uri, x)) ++ [(document, v)], s.needed⟩

/-- More rounds than documents at hand are never needed unless they name each other without
end. -/
def roundLimit : Nat := 10000

def Survey.complete (index : Index) : Nat → Survey → Except SchemaFault Library
  | 0, s => .ok s.library
  | n + 1, s => do
    let s ← s.load
    match s.needed with
    | [] => .ok s.library
    | needed =>
      let s ← needed.foldlM (Survey.fetch index) { s with needed := [] }
      complete index n s

def baseOfDocument : Json → Except SchemaFault Uri
  | .obj ms => orDangling (baseOf Uri.root ms)
  | _ => .ok Uri.root

def draft : Library :=
  Draft.documents.foldl
    (fun lib v =>
      match baseOfDocument v with
      | .ok uri =>
        match Survey.load ⟨lib.addDocument uri v, [(uri, v)], []⟩ with
        | .ok s => s.library
        | .error _ => lib
      | .error _ => lib)
    ⟨[], []⟩

def ofDocument (index : Index) (v : Json) : Except SchemaFault Library := do
  let uri ← baseOfDocument v
  Survey.complete index roundLimit ⟨draft.addDocument uri v, [(uri, v)], []⟩

/-! ## References -/

/-- Where a walk along a pointer stands: only where it has come by keywords that hold schemas
do identifiers count. -/
inductive Post where
  | schema | container | outside
deriving DecidableEq, Repr

def Post.next (post : Post) (token : String) : Post :=
  match post with
  | .container => .schema
  | .outside => .outside
  | .schema =>
    if token = "contentSchema" then .schema
    else if token = "$defs" ∨ token = "definitions" then .container
    else match contentOf token with
      | .one => .schema
      | .many => .container
      | .named => .container
      | .other => .outside

def indexOf? (token : String) : Option Nat :=
  let digits := match token.toList with
    | '+' :: ds => ds
    | ds => ds
  if !digits.isEmpty && digits.all Uri.isDigit then
    some (digits.foldl (fun n d => n * 10 + (d.toNat - 48)) 0)
  else none

def stride (pointer : String) (post : Post) (token : String) :
    Json → Except SchemaFault (Post × Json)
  | .arr vs =>
    match indexOf? token with
    | none => .error (.badIndex pointer token)
    | some i =>
      match vs[i]? with
      | none => .error (.noPointer pointer)
      | some x => .ok (if post = .schema then .schema else post.next token, x)
  | v =>
    let key := String.ofList (Json.Pointer.unescape token.toList)
    match v.get? key with
    | none => .error (.noPointer pointer)
    | some x => .ok (post.next key, x)

/-- Follows the tokens of a pointer. The base changes at every identified schema on the way,
except at the two ends: the first has been counted in and reading the last counts it in. -/
def walk (pointer : String) (base : Uri) (post : Post) :
    List String → Json → Except SchemaFault (Uri × Json)
  | [], v => .ok (base, v)
  | [token], v => do
    let (_, x) ← stride pointer post token v
    .ok (base, x)
  | token :: rest, v => do
    let (post, x) ← stride pointer post token v
    let base ← match post, x with
      | .schema, .obj ms => orDangling (baseOf base ms)
      | _, _ => .ok base
    walk pointer base post rest x

def percentBytes : List Char → List UInt8
  | '%' :: a :: b :: cs =>
    if Uri.isHex a && Uri.isHex b then
      UInt8.ofNat (Uri.hexValue a * 16 + Uri.hexValue b) :: percentBytes cs
    else Utf8.encode ['%'] ++ percentBytes (a :: b :: cs)
  | c :: cs => Utf8.encode [c] ++ percentBytes cs
  | [] => []

def pointed (uri : Uri) (document : Json) (pointer : String) : Except SchemaFault Schema :=
  match Utf8.decode (percentBytes pointer.toList) with
  | .error _ => .error (.refused ("Invalid percent encoding in pointer '" ++ pointer ++
      "': the decoded bytes do not represent valid UTF-8"))
  | .ok text => do
    let tokens := (Json.Pointer.splitSlash (text.toList.drop 1)).map String.ofList
    let (base, v) ← walk pointer uri .schema tokens document
    .ok (Schema.ofJson base v)

def namedPlace? (lib : Library) (uri : Uri) (name : String) : Option Anchor :=
  (lib.anchor? uri name).or do
    let id ← (lib.document? uri).bind Index.identifier?
    let own ← (Uri.root.resolve (baseOf.trimHash id)).toOption
    lib.anchor? own name

/-- The outermost document on the way that has a dynamic place of this name decides. -/
def outermost (lib : Library) (name : String) (found : Json) (scope : List Uri) : Json :=
  scope.foldl
    (fun found uri =>
      match lib.namedPlace? uri name with
      | some a => if a.dynamic then a.schema else found
      | none => found)
    found

def lookup (lib : Library) (scope : List Uri) (r : Reference) : Except SchemaFault Schema :=
  match lib.document? r.document with
  | none => .error (.unavailable r.document.text
      "Retrieving external resources is not supported once the registry is populated")
  | some v =>
    match r.fragment.toList with
    | [] => .ok (Schema.ofJson r.document v)
    | '/' :: _ => pointed r.document v r.fragment
    | name =>
      match lib.namedPlace? r.document r.fragment with
      | some a =>
        .ok (Schema.ofJson r.document
          (if a.dynamic then lib.outermost r.fragment a.schema scope else a.schema))
      | none =>
        .error (if name.contains '/' then .badAnchor r.fragment else .noAnchor r.fragment)

def follow (lib : Library) (scope : List Uri) (r : Reference) : Schema :=
  match lib.lookup scope r with
  | .ok s => s
  | .error f => .broken f

def size (lib : Library) : Nat := Json.sizeOfItems (lib.documents.map (·.2))

end Library
end Schema
end Unseal
