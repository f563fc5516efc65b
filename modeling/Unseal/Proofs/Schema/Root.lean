import Unseal.Proofs.Schema.Keywords
import Unseal.Proofs.Schema.Sharing
import Unseal.Proofs.Traversal
import Unseal.Schema.Compile

/-!
# Rewritten roots

A policy on unknown members rewrites the two keywords on the rest of the members and nothing else.
So the root keeps its base and all its other rules, and these are judged as they were if the
references lead where they led.
-/

set_option autoImplicit false

namespace Unseal

/-! ## Rules that are kept -/

theorem Rule.leaves_kept (rs : List Rule) (key : String) :
    leaves (rs.filter (!·.onRest)) key = leaves rs key := by
  have hparts : named (rs.filter (!·.onRest)) key = named rs key ∧
      matching (rs.filter (!·.onRest)) key = matching rs key := by
    induction rs with
    | nil => exact ⟨rfl,rfl⟩
    | cons r rs ih =>
      obtain ⟨hnamed, hmatching⟩ := ih
      simp only [named, matching] at hnamed hmatching ⊢
      cases hr : r.onRest with
      | false => simp [hr, hnamed, hmatching]
      | true => cases r <;> simp_all [onRest]
  rw [leaves, leaves, hparts.1, hparts.2]

namespace Judgement

variable {j j' : Judgement} {links links' : Links} {scope : List Uri} {rs rs' : List Rule}

theorem nodeSees_item (rs : List Rule) (whole : Json) (i : Nat) (x : Json) :
    j.nodeSees links scope rs whole (.item i x) =
      j.nodeSees links scope (rs.filter (!·.onRest)) whole (.item i x) := by
  rw [nodeSees, nodeSees, List.any_filter]
  apply any_congr_mem
  intro r hr
  cases r with
  | additional s => rfl
  | unevaluatedProperties s => rfl
  | _ => exact (Bool.true_and _).symm

theorem mem_kept (hkept : rs'.filter (!·.onRest) = rs.filter (!·.onRest)) {r : Rule}
    (hr : r.onRest = false) : r ∈ rs' ↔ r ∈ rs := by
  have hmem : r ∈ rs'.filter (!·.onRest) ↔ r ∈ rs.filter (!·.onRest) := by rw [hkept]
  simpa [List.mem_filter, hr] using hmem

/-- A kept rule is judged the same among the rules of either root. -/
theorem rulePasses_kept (hkept : rs'.filter (!·.onRest) = rs.filter (!·.onRest))
    (halike : ∀ r ∈ rs, r.onRest = false → AlikeOn j j' links links' scope r) {r : Rule}
    (hr : r ∈ rs) (hrest : r.onRest = false) (v : Json) :
    j.rulePasses links scope rs r v = j'.rulePasses links' scope rs' r v := by
  have hitems : ∀ whole i x, j.nodeSees links scope rs whole (.item i x) =
      j'.nodeSees links' scope rs' whole (.item i x) := by
    intro whole i x
    rw [nodeSees_item rs, nodeSees_item rs', hkept]
    apply nodeSees_congr
    intro r hr
    obtain ⟨hmem, hkeep⟩ := List.mem_filter.mp hr
    exact halike r hmem (by simpa using hkeep)
  have hsame : SameRest j j' links links' scope rs rs' r := by
    refine ⟨?_,hitems,?_⟩
    · rintro s rfl
      cases hrest
    · rintro s rfl
      cases hrest
  exact rulePasses_congr (halike r hr hrest) hsame v

end Judgement

/-! ## The members of a rewritten root -/

namespace UnknownFields

variable {policy : UnknownFields} {root : Members Json}

theorem find?_applyTo_of_other {key : String} (h : Schema.onRest key = false) :
    Members.find? key (policy.applyTo root) = Members.find? key root := by
  have hadditional : "additionalProperties" ≠ key := by
    rintro rfl
    cases h
  have hunevaluated : "unevaluatedProperties" ≠ key := by
    rintro rfl
    cases h
  cases policy with
  | inherit => rfl
  | allow =>
    exact (Members.find?_insert_of_ne hunevaluated ..).trans
      (Members.find?_insert_of_ne hadditional ..)
  | deny =>
    show Members.find? key (Members.insert "unevaluatedProperties" _ _) = _
    rw [Members.find?_insert_of_ne hunevaluated]
    split
    · rfl
    · exact Members.find?_erase_of_ne hadditional root

theorem filter_applyTo :
    (policy.applyTo root).filter (fun m => !Schema.onRest m.1) =
      root.filter fun m => !Schema.onRest m.1 := by
  have hinsert : ∀ (key : String) (v : Json) (ms : Members Json), Schema.onRest key = true →
      (Members.insert key v ms).filter (fun m => !Schema.onRest m.1) =
        ms.filter fun m => !Schema.onRest m.1 := by
    intro key v ms hkey
    exact Members.filter_insert (p := fun k => !Schema.onRest k) (by rw [hkey]; rfl) v ms
  cases policy with
  | inherit => rfl
  | allow => exact (hinsert _ _ _ rfl).trans (hinsert _ _ _ rfl)
  | deny =>
    apply (hinsert "unevaluatedProperties" _ _ rfl).trans
    split
    · rfl
    · exact Members.filter_erase (p := fun k => !Schema.onRest k) rfl root

end UnknownFields

section
open UnknownFields

variable {base : Uri} {root : Members Json}

theorem filter_rules (ms : Members Json) :
    (Schema.assemble base ms (Schema.partsOf base ms)).filter (!·.onRest) =
      (ms.filter fun m => !Schema.onRest m.1).filterMap fun m =>
        Schema.ruleOf base ms m.1 m.2 := by
  rw [Schema.assemble_eq_filterMap, List.filter_filterMap, List.filterMap_filter]
  apply List.filterMap_congr
  intro m hm
  cases hr : Schema.ruleOf base ms m.1 m.2 with
  | none => simp
  | some r => simp [Option.filter, Schema.onRest_eq hm hr]

theorem mem_onRest_iff {ms : Members Json} {r : Rule} (hrest : r.onRest = true) :
    r ∈ Schema.assemble base ms (Schema.partsOf base ms) ↔
      (∃ x, Members.find? "additionalProperties" ms = some x ∧
        r = .additional (Schema.ofJson base x)) ∨
      ∃ x, Members.find? "unevaluatedProperties" ms = some x ∧
        r = .unevaluatedProperties (Schema.ofJson base x) := by
  rw [Schema.assemble_eq_filterMap, List.mem_filterMap]
  constructor
  · rintro ⟨⟨key, v⟩, hm, hr⟩
    have hkey : Schema.onRest key = true := (Schema.onRest_eq hm hr).symm.trans hrest
    obtain ⟨x, hx⟩ := Option.isSome_iff_exists.mp (Members.find?_isSome_of_mem hm)
    simp only [Schema.onRest, Bool.or_eq_true, beq_iff_eq] at hkey
    rcases hkey with rfl | rfl
    · rw [Schema.ruleOf_additionalProperties hx] at hr
      exact .inl ⟨x,hx,(Option.some.inj hr).symm⟩
    · rw [Schema.ruleOf_unevaluatedProperties hx] at hr
      exact .inr ⟨x,hx,(Option.some.inj hr).symm⟩
  · rintro (⟨x, hx, rfl⟩ | ⟨x, hx, rfl⟩)
    · exact ⟨_,Members.mem_of_find? hx,Schema.ruleOf_additionalProperties hx⟩
    · exact ⟨_,Members.mem_of_find? hx,Schema.ruleOf_unevaluatedProperties hx⟩

theorem kept_applyTo (policy : UnknownFields) :
    (Schema.assemble base (policy.applyTo root) (Schema.partsOf base (policy.applyTo root))).filter
        (!·.onRest) =
      (Schema.assemble base root (Schema.partsOf base root)).filter (!·.onRest) := by
  rw [filter_rules, filter_rules, filter_applyTo]
  apply List.filterMap_congr
  intro m hm
  have hkey : Schema.onRest m.1 = false := by simpa using (List.mem_filter.mp hm).2
  exact Schema.ruleOf_congr (fun _ => find?_applyTo_of_other) hkey

theorem baseOf_applyTo (policy : UnknownFields) :
    Schema.baseOf base (policy.applyTo root) = Schema.baseOf base root := by
  rw [Schema.baseOf, Schema.baseOf, find?_applyTo_of_other (by decide)]

end

/-! ## References into a rewritten root -/

section
open Schema.Library

variable {root : Members Json} {pointer token : String} {rest : List String} {uri : Uri}

theorem walk_applyTo (policy : UnknownFields) {post : Post}
    (h : Schema.onRest (String.ofList (Json.Pointer.unescape token.toList)) = false) :
    walk pointer uri post (token :: rest) (.obj (policy.applyTo root)) =
      walk pointer uri post (token :: rest) (.obj root) := by
  have hstride : stride pointer post token (.obj (policy.applyTo root)) =
      stride pointer post token (.obj root) := by
    simp only [stride, Json.get?, UnknownFields.find?_applyTo_of_other h]
  cases rest with
  | nil => rw [walk, walk, hstride]
  | cons token' rest =>
    rw [walk, walk, hstride]
    · nofun
    · nofun

/-- A pointer that does not begin with a keyword on the rest leads to the same place under every
policy. -/
theorem pointed_applyTo (policy : UnknownFields) {text : String}
    (htext : Utf8.decode (percentBytes pointer.toList) = .ok text)
    (htokens : (Json.Pointer.splitSlash (text.toList.drop 1)).map String.ofList = token :: rest)
    (h : Schema.onRest (String.ofList (Json.Pointer.unescape token.toList)) = false) :
    pointed uri (.obj (policy.applyTo root)) pointer = pointed uri (.obj root) pointer := by
  simp only [pointed, htext, htokens, walk_applyTo policy h]

end

/-! ## Compiled roots -/

namespace SchemaModel
open Traversal

variable {m : SchemaModel} {base : Uri} {rs : List Rule} {root : Members Json} {index : Index}
  {name : String} {policy : UnknownFields}

theorem isValid_rules (h : m.schema = .rules base rs) (v : Json) :
    m.isValid v = rs.all fun r => (Judgement.ofDepth m.links (depthLimit - 1)).rulePasses m.links
      (enter base []) rs r v := by
  rw [isValid, h]
  rfl

theorem isValid_always {b : Bool} (h : m.schema = .always b) (v : Json) : m.isValid v = b := by
  rw [isValid, h]
  rfl

theorem ofJson_rules {base' : Uri} (h : Schema.baseOf base root = .ok base') :
    Schema.ofJson base (.obj root) =
      .rules base' (Schema.assemble base' root (Schema.partsOf base' root)) := by
  rw [Schema.ofJson, h]

theorem ofJson_broken {f : Uri.Dangling} (h : Schema.baseOf base root = .error f) :
    Schema.ofJson base (.obj root) = .broken (.dangling f) := by
  rw [Schema.ofJson, h]

theorem orFault_ok_iff {o : Option SchemaFault} {u : Unit} :
    assemble.orFault o = .ok u ↔ o = none := by
  cases o with
  | none => exact iff_of_true rfl rfl
  | some f => exact iff_of_false nofun nofun

theorem assemble_ok_iff {document : Json} :
    assemble index name document policy = .ok m ↔ ∃ base library,
      Schema.Library.baseOfDocument document = .ok base ∧
      Schema.Library.ofDocument index document = .ok library ∧
      draftFault? document = none ∧ (Schema.ofJson base document).fault? library = none ∧
      ⟨name, document, policy, library, .ofJson base document⟩ = m := by
  simp only [assemble, bind_ok_iff, orFault_ok_iff, Except.ok.injEq]
  constructor
  · rintro ⟨base, hbase, library, hlibrary, ⟨⟩, hdraft, ⟨⟩, hfault, hm⟩
    exact ⟨base,library,hbase,hlibrary,hdraft,hfault,hm⟩
  · rintro ⟨base, library, hbase, hlibrary, hdraft, hfault, hm⟩
    exact ⟨base,hbase,library,hlibrary,(),hdraft,(),hfault,hm⟩

theorem compile_ok_iff {document : Json} :
    compile index name document policy = .ok m ↔
      (document.kind = .object ∨ document.kind = .boolean) ∧
        assemble index name (policy.apply document) policy = .ok m := by
  rw [compile]
  split
  next hkind =>
    rw [and_iff_right hkind]
    split
    next hassembled => rw [hassembled, Except.ok.injEq, Except.ok.injEq]
    next hassembled => exact iff_of_false nofun (by simp [hassembled])
  next hkind => exact iff_of_false nofun fun h => hkind h.1

theorem fault?_broken (library : Schema.Library) (f : SchemaFault) :
    (Schema.broken f).fault? library = some f := by
  have hfuel : (library.size + 2) * (library.size + 2) * (library.size + 2) ≠ 0 := by simp
  obtain ⟨n, hn⟩ := Nat.exists_eq_succ_of_ne_zero hfuel
  rw [Schema.fault?, Schema.needs, hn]
  rfl

/-- The root of a model has the rules of its members, under a base that the policy leaves alone. -/
theorem rules_of_compile (h : compile index name (.obj root) policy = .ok m) :
    ∃ outer base, Schema.baseOf Uri.root root = .ok outer ∧ Schema.baseOf outer root = .ok base ∧
      m.schema = .rules base (Schema.assemble base (policy.applyTo root)
        (Schema.partsOf base (policy.applyTo root))) := by
  obtain ⟨-, hassembled⟩ := compile_ok_iff.mp h
  obtain ⟨outer, library, houter, -, -, hfault, rfl⟩ := assemble_ok_iff.mp hassembled
  change Schema.Library.orDangling (Schema.baseOf Uri.root (policy.applyTo root)) = _ at houter
  change (Schema.ofJson outer (.obj (policy.applyTo root))).fault? library = none at hfault
  rw [baseOf_applyTo] at houter
  have hfound : Schema.baseOf Uri.root root = .ok outer := by
    cases hroot : Schema.baseOf Uri.root root with
    | error f => cases (congrArg Schema.Library.orDangling hroot).symm.trans houter
    | ok b =>
      have hsame := (congrArg Schema.Library.orDangling hroot).symm.trans houter
      exact congrArg _ (Except.ok.inj hsame)
  cases hbase : Schema.baseOf outer root with
  | error f =>
    rw [ofJson_broken ((baseOf_applyTo policy).trans hbase), fault?_broken] at hfault
    cases hfault
  | ok base => exact ⟨outer,base,hfound,hbase,ofJson_rules ((baseOf_applyTo policy).trans hbase)⟩

end SchemaModel
end Unseal
