import Unseal.Proofs.Schema.Naming
import Unseal.Proofs.Schema.Root

/-!
# Compiled roots

A root that needs no other document is compiled to the drafts and itself, and its pointers are
followed in it under every policy. Such are two roots that refer to a base of their own: one whose
rule on additional members denial drops, and one that lets all members pass.
-/

set_option autoImplicit false

namespace Unseal

/-! ## Following a pointer -/

section
open Schema.Library

variable {pointer token : String} {rest : List String} {uri : Uri}

theorem walk_container {post : Post} {v x : Json}
    (h : stride pointer post token v = .ok (.container, x)) {token' : String} :
    walk pointer uri post (token :: token' :: rest) v =
      walk pointer uri .container (token' :: rest) x := by
  rw [walk, h]
  · rfl
  · intro hnil
    cases hnil

theorem walk_last {post post' : Post} {v x : Json}
    (h : stride pointer post token v = .ok (post', x)) :
    walk pointer uri post [token] v = .ok (uri, x) := by
  rw [walk, h]
  rfl

theorem pointed_ok {text : String} {tokens : List String} {v x : Json} {base : Uri}
    (htext : Utf8.decode (percentBytes pointer.toList) = .ok text)
    (htokens : (Json.Pointer.splitSlash (text.toList.drop 1)).map String.ofList = tokens)
    (hwalk : walk pointer uri .schema tokens v = .ok (base, x)) :
    pointed uri v pointer = .ok (.ofJson base x) := by
  simp only [pointed, htext, htokens, hwalk]
  rfl

theorem follow_pointer {lib : Schema.Library} {v : Json} {r : Reference} {cs : List Char}
    {s : Schema} (hdocument : lib.document? r.document = some v)
    (hslash : r.fragment.toList = '/' :: cs) (hs : pointed r.document v r.fragment = .ok s)
    (scope : List Uri) : lib.follow scope r = s := by
  simp only [follow, lookup, hdocument, hslash, hs]

/-! ## Roots that need no other document -/

/-- Looking at the root, under the empty identifier, finds nothing that is still needed. -/
structure Schema.SelfContained (root : Members Json) : Prop where
  base : Schema.baseOf Uri.root root = .ok Uri.root
  load : ∀ lib, Survey.load ⟨lib, [(Uri.root, .obj root)], []⟩ = .ok ⟨lib, [], []⟩

theorem outsideOf_inside {root : Members Json} {text : String}
    (href : Members.find? "$ref" root = some (.str text)) (hinside : text.startsWith "#" = true)
    (hdraft : Members.find? "$schema" root = none) : outsideOf Uri.root root = .ok [] := by
  have hurn : Uri.root.scheme ≠ some "urn".toList := by decide
  rw [outsideOf, if_neg hurn]
  simp only [outsideOf.target, href, hdraft, hinside, Bool.true_or, if_true]
  rfl

theorem Schema.SelfContained.ofDocument {root : Members Json} (h : SelfContained root)
    (index : Index) :
    Library.ofDocument index (.obj root) = .ok (draft.addDocument Uri.root (.obj root)) := by
  have hbase : baseOfDocument (.obj root) = .ok Uri.root := congrArg orDangling h.base
  rw [Library.ofDocument, hbase]
  show Survey.complete index (9999 + 1) ⟨draft.addDocument Uri.root _, _, []⟩ = _
  rw [Survey.complete, h.load]
  rfl

end

namespace SchemaModel
open Schema.Library

def alone (name : String) (root : Members Json) (policy : UnknownFields) : SchemaModel :=
  let document := policy.apply (.obj root)
  ⟨name, document, policy, draft.addDocument Uri.root document, .ofJson Uri.root document⟩

variable {m : SchemaModel} {index : Index} {name : String} {root : Members Json}
  {policy : UnknownFields}

theorem eq_alone (hroot : Schema.SelfContained (policy.applyTo root))
    (h : compile index name (.obj root) policy = .ok m) : m = alone name root policy := by
  obtain ⟨-, hassembled⟩ := compile_ok_iff.mp h
  obtain ⟨base, library, hbase, hlibrary, -, -, rfl⟩ := assemble_ok_iff.mp hassembled
  change orDangling (Schema.baseOf Uri.root (policy.applyTo root)) = _ at hbase
  change ofDocument index (.obj (policy.applyTo root)) = _ at hlibrary
  rw [hroot.base] at hbase
  rw [hroot.ofDocument] at hlibrary
  obtain rfl := Except.ok.inj hbase
  obtain rfl := Except.ok.inj hlibrary
  rfl

theorem alone_links {pointer : String} {cs : List Char} {s : Schema}
    (hslash : pointer.toList = '/' :: cs)
    (hs : pointed Uri.root (.obj (policy.applyTo root)) pointer = .ok s) (scope : List Uri) :
    (alone name root policy).links scope ⟨Uri.root, pointer⟩ = s := by
  have hdocument : (alone name root policy).library.document? Uri.root =
      some (.obj (policy.applyTo root)) := by
    simp [alone, document?, addDocument, UnknownFields.apply]
  exact @follow_pointer _ _ ⟨Uri.root, pointer⟩ _ _ hdocument hslash hs scope

end SchemaModel

/-! ## Roots with a base of their own -/

def looseBase : Json := .obj [("properties", .obj [("id", .obj [])])]

/-- A member that only the referred schema names must be a text. -/
def looseRoot : Members Json :=
  [("$defs", .obj [("base", looseBase)]), ("$ref", .str "#/$defs/base"),
    ("additionalProperties", .obj [("type", .str "string")])]

def composedRoot : Members Json :=
  [("$defs", .obj [("base", looseBase)]), ("$ref", .str "#/$defs/base"),
    ("additionalProperties", .bool true), ("properties", .obj [("name", .obj [])])]

def looseReference : Reference := ⟨Uri.root, "/$defs/base"⟩

def looseTarget : Schema := .rules Uri.root [.properties [("id", .rules Uri.root [])]]

section
open Schema.Library

variable {root : Members Json}

theorem looseReference_text :
    Utf8.decode (percentBytes "/$defs/base".toList) = .ok "/$defs/base" := by
  decide +kernel

theorem looseReference_tokens :
    (Json.Pointer.splitSlash ("/$defs/base".toList.drop 1)).map String.ofList =
      ["$defs", "base"] :=
  rfl

theorem looseReference_slash :
    looseReference.fragment.toList =
      '/' :: ['$', 'd', 'e', 'f', 's', '/', 'b', 'a', 's', 'e'] :=
  rfl

theorem pointed_base (h : Members.find? "$defs" root = some (.obj [("base", looseBase)])) :
    pointed Uri.root (.obj root) "/$defs/base" = .ok looseTarget := by
  have hkey : String.ofList (Json.Pointer.unescape "$defs".toList) = "$defs" := rfl
  have hdefs : stride "/$defs/base" .schema "$defs" (.obj root) =
      .ok (.container, .obj [("base", looseBase)]) := by
    simp only [stride, hkey, Json.get?, h]
    rfl
  have hbase : stride "/$defs/base" .container "base" (.obj [("base", looseBase)]) =
      .ok (.schema, looseBase) := rfl
  have hwalk : walk "/$defs/base" Uri.root .schema ["$defs", "base"] (.obj root) =
      .ok (Uri.root, looseBase) := (walk_container hdefs).trans (walk_last hbase)
  have htarget : Schema.ofJson Uri.root looseBase = looseTarget := rfl
  rw [pointed_ok looseReference_text looseReference_tokens hwalk, htarget]

theorem SchemaModel.base_links (h : Members.find? "$defs" root = some (.obj [("base", looseBase)]))
    (name : String) (policy : UnknownFields) (scope : List Uri) :
    (alone name root policy).links scope looseReference = looseTarget :=
  alone_links looseReference_slash
    ((pointed_applyTo policy looseReference_text looseReference_tokens rfl).trans (pointed_base h))
    scope

theorem selfContained_of_mem (h : root ∈ [looseRoot, composedRoot]) (policy : UnknownFields) :
    Schema.SelfContained (policy.applyTo root) := by
  have hinside : "#/$defs/base".startsWith "#" = true := by decide +kernel
  have hmem : root = looseRoot ∨ root = composedRoot := by simpa using h
  have href : Members.find? "$ref" root = some (.str "#/$defs/base") := by
    rcases hmem with rfl | rfl <;> rfl
  have hdraft : Members.find? "$schema" root = none := by rcases hmem with rfl | rfl <;> rfl
  have hbase : Schema.baseOf Uri.root (policy.applyTo root) = .ok Uri.root := by
    rw [baseOf_applyTo]
    rcases hmem with rfl | rfl <;> rfl
  have houtside : outsideOf Uri.root (policy.applyTo root) = .ok [] :=
    outsideOf_inside ((UnknownFields.find?_applyTo_of_other rfl).trans href) hinside
      ((UnknownFields.find?_applyTo_of_other rfl).trans hdraft)
  refine ⟨hbase,fun lib => ?_⟩
  have hvisit : Survey.visit ⟨lib, [], []⟩ Uri.root (.obj (policy.applyTo root)) =
      .ok ⟨lib, (parts (policy.applyTo root)).map (Uri.root, ·), []⟩ := by
    rw [Survey.visit, hbase]
    change (orDangling (outsideOf Uri.root (policy.applyTo root)) >>= _) = _
    rw [houtside]
    rcases hmem with rfl | rfl <;> cases policy <;> rfl
  rw [Survey.load, Survey.visitAll]
  change (Survey.visit ⟨lib, [], []⟩ Uri.root (.obj (policy.applyTo root)) >>= _) = _
  rw [hvisit]
  rcases hmem with rfl | rfl <;> cases policy <;> rfl

end

def basedRoot (rs : List Rule) : Schema :=
  .rules Uri.root (.link "$ref" looseReference :: rs)

section
variable {links links' : Links} {rs : List Rule}

/-- Where its other rules hold no more than a schema without rules, such a root comes to its base
and to what the two hold. -/
theorem basedRoot_reached (hlinks : ∀ scope, links scope looseReference = looseTarget)
    (hbare : ∀ r ∈ rs, ∀ s ∈ r.parts, s = .rules Uri.root [])
    (hown : ∀ keyword t, Rule.link keyword t ∉ rs) {scope : List Uri} {s : Schema}
    (h : Schema.Reached links (basedRoot rs) scope s) :
    s = basedRoot rs ∨ s = looseTarget ∨ s = .rules Uri.root [] := by
  induction h with
  | start => exact .inl rfl
  | part _ hr hs ih =>
    rcases ih with ih | ih | ih
    · cases ih
      rcases List.mem_cons.mp hr with rfl | hr
      · cases hs
      · exact .inr (.inr (hbare _ hr _ hs))
    · cases ih
      cases List.mem_singleton.mp hr
      exact .inr (.inr (List.mem_singleton.mp hs))
    · cases ih
      cases hr
  | target _ hr ih =>
    rcases ih with ih | ih | ih
    · cases ih
      rcases List.mem_cons.mp hr with hr | hr
      · cases hr
        exact .inr (.inl (hlinks _))
      · exact absurd hr (hown _ _)
    · cases ih
      cases List.mem_singleton.mp hr
    · cases ih
      cases hr

theorem basedRoot_leadsAlike (hlinks : ∀ scope, links scope looseReference = looseTarget)
    (hlinks' : ∀ scope, links' scope looseReference = looseTarget)
    (hbare : ∀ r ∈ rs, ∀ s ∈ r.parts, s = .rules Uri.root [])
    (hown : ∀ keyword t, Rule.link keyword t ∉ rs) :
    Schema.LeadsAlike links links' (basedRoot rs) := by
  intro scope base rs' keyword t h hr
  rcases basedRoot_reached hlinks hbare hown h with h | h | h
  · cases h
    rcases List.mem_cons.mp hr with hr | hr
    · cases hr
      rw [hlinks, hlinks']
    · exact absurd hr (hown _ _)
  · cases h
    cases List.mem_singleton.mp hr
  · cases h
    cases hr

end

/-! ## Roots that compile -/

def composedValue : Json := .obj [("id", .num (.int 1)), ("name", .str "a")]

/-- A root that refers to one document for its own member and to another for all the rest. -/
def parcelRoot : Members Json :=
  [("additionalProperties", .obj [("$ref", .str "extras.schema.json")]),
    ("properties", .obj [("weight", .obj [("$ref", .str "load.schema.json")])])]

/-- The document for the rest holds a schema under the name of a file. -/
def parcelFiles : Index := .ofFiles
  [("load.schema.json", .obj [("$ref", .str "amount.schema.json")]),
    ("extras.schema.json", .obj [("$defs", .obj [("amount",
      .obj [("$id", .str "amount.schema.json"), ("type", .str "string")])])]),
    ("amount.schema.json", .obj [("type", .str "integer")])]

def parcel : Json := .obj [("weight", .str "2 kg")]

def Schema.Need.avoids (document : Uri) : Need → Bool
  | .link _ target => target.document != document
  | .fault _ => true

namespace SchemaModel

def avoidsRoot (m : SchemaModel) : Bool :=
  m.library.documents.all fun e =>
    (Schema.needs [] (.ofJson e.1 e.2)).all (Schema.Need.avoids Uri.root)

def looseModel (policy : UnknownFields) : SchemaModel := .alone "Model" looseRoot policy

def composedModel (policy : UnknownFields) : SchemaModel := .alone "Model" composedRoot policy

/-- The roots compile under every policy, and the schema `true` is one. They are computed together
because the schema of schemas is read for each, which is most of the work. -/
theorem roots_compile :
    (draftFault? (.bool true)).isNone = true ∧
    ([.inherit, .allow, .deny] : List UnknownFields).all (fun policy =>
      (compile .empty "Model" (.obj looseRoot) policy).toOption.isSome &&
        (compile .empty "Model" (.obj composedRoot) policy).toOption.any fun m =>
          m.isValid composedValue) = true ∧
    (compile parcelFiles "Parcel" (.obj parcelRoot) .inherit).toOption.any (fun m =>
      m.avoidsRoot && m.schema.names "weight" && m.isValid parcel) = true ∧
    (compile parcelFiles "Parcel" (.obj parcelRoot) .allow).toOption.any (fun m =>
      !m.isValid parcel) = true ∧
    (compile parcelFiles "Parcel" (.obj parcelRoot) .deny).toOption.any (fun m =>
      !m.isValid parcel) = true := by
  decide +kernel

theorem compile_true (index : Index) (name : String) :
    ∃ schema, compile index name (.bool true) .inherit = .ok schema ∧
      ∀ v, schema.isValid v = true := by
  have hdraft := Option.isNone_iff_eq_none.mp roots_compile.1
  obtain ⟨library, hlibrary⟩ : ∃ library, Schema.Library.ofDocument index (.bool true) = .ok library := ⟨_,rfl⟩
  have hassembled : assemble index name (.bool true) .inherit =
      .ok ⟨name, .bool true, .inherit, library, .always true⟩ :=
    assemble_ok_iff.mpr ⟨Uri.root,library,rfl,hlibrary,hdraft,rfl,rfl⟩
  exact ⟨_,compile_ok_iff.mpr ⟨.inr rfl,hassembled⟩,isValid_always rfl⟩

theorem exists_of_toOption_any {ε β : Type} {r : Except ε β} {f : β → Bool}
    (h : r.toOption.any f = true) : ∃ x, r = .ok x ∧ f x = true := by
  cases r with
  | error e => cases h
  | ok x => exact ⟨x,rfl,h⟩

theorem looseRoot_compiles (policy : UnknownFields) :
    compile .empty "Model" (.obj looseRoot) policy = .ok (looseModel policy) := by
  have hsome : (compile .empty "Model" (.obj looseRoot) policy).toOption.isSome = true := by
    have hall := List.all_eq_true.mp roots_compile.2.1 policy (by cases policy <;> decide)
    exact (Bool.and_eq_true _ _ ▸ hall).1
  cases h : compile .empty "Model" (.obj looseRoot) policy with
  | error e => rw [h] at hsome; cases hsome
  | ok m => rw [eq_alone (selfContained_of_mem (by simp) policy) h]; rfl

theorem composedRoot_compiles (policy : UnknownFields) :
    compile .empty "Model" (.obj composedRoot) policy = .ok (composedModel policy) ∧
      (composedModel policy).isValid composedValue = true := by
  have hall := List.all_eq_true.mp roots_compile.2.1 policy (by cases policy <;> decide)
  obtain ⟨m, hm, hvalid⟩ := exists_of_toOption_any (Bool.and_eq_true _ _ ▸ hall).2
  obtain rfl := eq_alone (selfContained_of_mem (by simp) policy) hm
  exact ⟨hm,hvalid⟩

end SchemaModel
end Unseal
