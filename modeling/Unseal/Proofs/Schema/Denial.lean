import Unseal.Proofs.Schema.Compiled

/-!
# Denying unknown members

A root that denies unknown members keeps all its rules but those on the rest of the members. What
it accepts it has looked at with the rules that it keeps, so the root as it was accepts it too as
far as those rules go. Only the rule on additional members may still refuse it, since denying
drops that rule unless it forbids them all.
-/

set_option autoImplicit false

namespace Unseal

structure Rule.Denies (rs rs' : List Rule) : Prop where
  kept : rs'.filter (!·.onRest) = rs.filter (!·.onRest)
  forbidden : .additional (.always false) ∈ rs → .additional (.always false) ∈ rs'
  denied : .unevaluatedProperties (.always false) ∈ rs'
  rest : ∀ r ∈ rs', r.onRest = true →
    r = .additional (.always false) ∨ r = .unevaluatedProperties (.always false)

theorem Rule.Denies.leaves {rs rs' : List Rule} (hd : Denies rs rs') (key : String) :
    Rule.leaves rs' key = Rule.leaves rs key := by
  rw [← Rule.leaves_kept rs', hd.kept, Rule.leaves_kept]

namespace Judgement

variable {j j' : Judgement} {links links' : Links} {scope : List Uri} {rs rs' : List Rule}

theorem sees_of_denies (hd : Rule.Denies rs rs')
    (hnever : ∀ v, j'.passes scope (.always false) v = false) {whole x : Json} {key : String}
    (hsees : j'.nodeSees links' scope rs' whole (.member key x) = true) :
    ∃ r ∈ rs, r.onRest = false ∧ j'.ruleSees links' scope whole (.member key x) r = true := by
  obtain ⟨r, hr, hrsees⟩ := List.any_eq_true.mp hsees
  cases hrest : r.onRest with
  | false => exact ⟨r,(mem_kept hd.kept hrest).mp hr,hrest,hrsees⟩
  | true =>
    rcases hd.rest r hr hrest with rfl | rfl
    · exact absurd hrsees (by simp [ruleSees, hnever])
    · exact absurd hrsees (by simp [ruleSees, hnever])

theorem rulePasses_additional {s : Schema} (h : ∀ x, j.passes scope s x = true) (v : Json) :
    j.rulePasses links scope rs (.additional s) v = true := by
  cases v with
  | obj ms => simp [rulePasses, h]
  | _ => rfl

theorem forbidden_of_denies (hd : Rule.Denies rs rs')
    (hnever : ∀ v, j'.passes scope (.always false) v = false) {v : Json}
    (hv : (rs'.all fun r => j'.rulePasses links' scope rs' r v) = true)
    (hr : .additional (.always false) ∈ rs) :
    j.rulePasses links scope rs (.additional (.always false)) v = true := by
  cases v with
  | obj ms =>
    have hall := List.all_eq_true.mp hv _ (hd.forbidden hr)
    simp only [rulePasses, hnever, hd.leaves, Bool.or_false, List.all_eq_true] at hall ⊢
    intro m hm
    rw [hall m hm, Bool.true_or]
  | _ => rfl

/-- What the denying root accepts passes all rules of the root as it was, except perhaps the rule
on additional members. -/
theorem rulePasses_of_denies (hd : Rule.Denies rs rs')
    (hnever : ∀ v, j'.passes scope (.always false) v = false)
    (halike : ∀ r ∈ rs, r.onRest = false → AlikeOn j j' links links' scope r) {v : Json}
    (hv : (rs'.all fun r => j'.rulePasses links' scope rs' r v) = true) {r : Rule} (hr : r ∈ rs)
    (hadditional : ∀ s, r ≠ .additional s) : j.rulePasses links scope rs r v = true := by
  rw [List.all_eq_true] at hv
  cases hrest : r.onRest with
  | false =>
    rw [rulePasses_kept hd.kept halike hr hrest]
    exact hv r ((mem_kept hd.kept hrest).mpr hr)
  | true =>
    cases r with
    | additional s => exact absurd rfl (hadditional s)
    | unevaluatedProperties s =>
      cases v with
      | obj ms =>
        -- Denial leaves no member unseen, and what has seen it was there before.
        have hall := hv _ hd.denied
        simp only [rulePasses, List.all_eq_true] at hall ⊢
        intro m hm
        obtain ⟨r, hr, hkept, hsees⟩ := sees_of_denies hd hnever (hall m hm)
        rw [← ruleSees_congr (halike r hr hkept)] at hsees
        exact List.any_eq_true.mpr ⟨r,hr,hsees⟩
      | _ => rfl
    | _ => cases hrest

end Judgement

/-! ## The denied root -/

namespace UnknownFields

variable {root : Members Json}

theorem find?_deny_unevaluated :
    Members.find? "unevaluatedProperties" (deny.applyTo root) = some (.bool false) :=
  Members.find?_insert_self ..

/-- The rule on additional members stays only where it forbids them all. -/
theorem find?_deny_additional (hroot : (Members.keys root).Nodup) {v : Json}
    (h : Members.find? "additionalProperties" (deny.applyTo root) = some v) : v = .bool false := by
  have hne : "unevaluatedProperties" ≠ "additionalProperties" := by decide
  change Members.find? _ (Members.insert "unevaluatedProperties" _ _) = _ at h
  rw [Members.find?_insert_of_ne hne] at h
  split at h
  next hfalse => exact Option.some.inj (h.symm.trans hfalse)
  next => cases (Members.find?_erase_self hroot).symm.trans h

theorem find?_deny_forbidden (h : Members.find? "additionalProperties" root = some (.bool false)) :
    Members.find? "additionalProperties" (deny.applyTo root) = some (.bool false) := by
  have hne : "unevaluatedProperties" ≠ "additionalProperties" := by decide
  show Members.find? _ (Members.insert "unevaluatedProperties" _ _) = _
  rw [Members.find?_insert_of_ne hne, h]
  exact h

end UnknownFields

section
open UnknownFields

variable {base : Uri} {root : Members Json}

theorem eq_false_of_ofJson {v : Json} (h : Schema.ofJson base v = .always false) :
    v = .bool false := by
  cases v with
  | bool b =>
    cases h
    rfl
  | obj ms =>
    rw [Schema.ofJson] at h
    split at h
    all_goals cases h
  | _ => cases h

theorem denies_deny (hroot : (Members.keys root).Nodup) :
    Rule.Denies (Schema.assemble base root (Schema.partsOf base root))
      (Schema.assemble base (deny.applyTo root) (Schema.partsOf base (deny.applyTo root))) := by
  refine ⟨?_,?_,?_,?_⟩
  · exact kept_applyTo deny
  · intro hr
    rcases (mem_onRest_iff rfl).mp hr with ⟨x, hx, hs⟩ | ⟨x, _, hs⟩
    · obtain rfl := eq_false_of_ofJson (Rule.additional.inj hs).symm
      exact (mem_onRest_iff rfl).mpr (.inl ⟨_,find?_deny_forbidden hx,rfl⟩)
    · cases hs
  · exact (mem_onRest_iff rfl).mpr (.inr ⟨_,find?_deny_unevaluated,rfl⟩)
  · intro r hr hrest
    rcases (mem_onRest_iff hrest).mp hr with ⟨x, hx, rfl⟩ | ⟨x, hx, rfl⟩
    · obtain rfl := find?_deny_additional hroot hx
      exact .inl rfl
    · obtain rfl := Option.some.inj (hx.symm.trans find?_deny_unevaluated)
      exact .inr rfl

end

def Schema.withoutRest : Schema → Schema
  | .rules base rs => .rules base (rs.filter (!·.onRest))
  | s => s

namespace SchemaModel

variable {m d : SchemaModel} {base : Uri} {rs : List Rule} {root : Members Json} {v : Json}

/-- The members that the root names neither by key nor by pattern pass its rule on additional
members, where that is more than a bare verdict. -/
def AdditionalPass (m : SchemaModel) (v : Json) : Prop :=
  ∀ base rs s, m.schema = .rules base rs → .additional s ∈ rs → s.isNode = true →
    (Judgement.ofDepth m.links (depthLimit - 1)).rulePasses m.links (enter base []) rs
      (.additional s) v = true

theorem isValid_broken {f : SchemaFault} (h : m.schema = .broken f) (v : Json) :
    m.isValid v = true := by
  rw [isValid, h]
  rfl

theorem additionalPass_of_bare (hm : m.schema = .ofJson base (.obj root))
    (h : ∀ x, Members.find? "additionalProperties" root = some x → ∃ b, x = .bool b) (v : Json) :
    m.AdditionalPass v := by
  intro base' rs s hrules hs hnode
  cases hbase : Schema.baseOf base root with
  | error f => cases (hm.trans (ofJson_broken hbase)).symm.trans hrules
  | ok =>
    cases (hm.trans (ofJson_rules hbase)).symm.trans hrules
    rcases (mem_onRest_iff rfl).mp hs with ⟨x, hx, hs⟩ | ⟨x, _, hs⟩
    · obtain rfl := Rule.additional.inj hs
      obtain ⟨b, rfl⟩ := h x hx
      cases hnode
    · cases hs

theorem alikeOn_kept (hm : m.schema = .rules base rs)
    (hlinks : Schema.LeadsAlike m.links d.links m.schema.withoutRest) (n : Nat) :
    ∀ r ∈ rs, r.onRest = false → Judgement.AlikeOn (Judgement.ofDepth m.links n)
      (Judgement.ofDepth d.links n) m.links d.links (enter base []) r := by
  intro r hr hkept
  rw [hm] at hlinks
  exact Judgement.alikeOn_of_reached hlinks (Judgement.ofDepth_alike hlinks _) .start
    (List.mem_filter.mpr ⟨hr,by simpa using hkept⟩)

/-- What the model that denies unknown members accepts, the model that leaves them to the schema
accepts too if the members that the root does not name pass the root's own rule on additional
members, and only then. References must not lead into what the two roots differ in. -/
theorem isValid_of_deny (hroot : (Members.keys root).Nodup)
    (hm : m.schema = .ofJson base (.obj root))
    (hd : d.schema = .ofJson base (UnknownFields.deny.apply (.obj root)))
    (hlinks : Schema.LeadsAlike m.links d.links m.schema.withoutRest) (hv : d.isValid v = true) :
    m.isValid v = true ↔ m.AdditionalPass v := by
  cases hbase : Schema.baseOf base root with
  | error f =>
    have hbroken := hm.trans (ofJson_broken hbase)
    refine iff_of_true (isValid_broken hbroken v) ?_
    intro base' rs s hrules
    cases hbroken.symm.trans hrules
  | ok base' =>
    have hmr := hm.trans (ofJson_rules hbase)
    have hdr := hd.trans (ofJson_rules ((baseOf_applyTo .deny).trans hbase))
    rw [isValid_rules hmr, List.all_eq_true]
    rw [isValid_rules hdr] at hv
    have halike := alikeOn_kept hmr hlinks (depthLimit - 1)
    constructor
    · intro hall base'' rs s hrules hs _
      cases hmr.symm.trans hrules
      exact hall _ hs
    · intro hadditional r hr
      by_cases hrest : ∃ s, r = .additional s
      · obtain ⟨s, rfl⟩ := hrest
        -- Only a verdict that refuses all is still among the rules of the denying root.
        cases s with
        | always b =>
          cases b with
          | true => exact Judgement.rulePasses_additional (fun _ => rfl) v
          | false => exact Judgement.forbidden_of_denies (denies_deny hroot) (fun _ => rfl) hv hr
        | rules base'' inner => exact hadditional base' _ _ hmr hr rfl
        | broken f => exact Judgement.rulePasses_additional (fun _ => rfl) v
      · exact Judgement.rulePasses_of_denies (denies_deny hroot) (fun _ => rfl) halike hv hr
          fun s hs => hrest ⟨s,hs⟩

theorem looseModel_leadsAlike :
    Schema.LeadsAlike (looseModel .inherit).links (looseModel .deny).links
      (looseModel .inherit).schema.withoutRest :=
  @basedRoot_leadsAlike _ _ [] (base_links rfl _ _) (base_links rfl _ _) nofun nofun

theorem looseModel_isValid_of_deny :
    compile .empty "Model" (.obj looseRoot) .inherit = .ok (looseModel .inherit) ∧
      compile .empty "Model" (.obj looseRoot) .deny = .ok (looseModel .deny) ∧
      (looseModel .deny).isValid (.obj [("id", .str "a")]) = true ∧
      ((looseModel .inherit).isValid (.obj [("id", .str "a")]) = true ↔
        (looseModel .inherit).AdditionalPass (.obj [("id", .str "a")])) :=
  have hroot : (Members.keys looseRoot).Nodup := by decide
  have hv : (looseModel .deny).isValid (.obj [("id", .str "a")]) = true := by decide +kernel
  ⟨looseRoot_compiles .inherit,looseRoot_compiles .deny,hv,
    isValid_of_deny hroot rfl rfl looseModel_leadsAlike hv⟩

/-- To deny unknown members can let through what the schema itself refuses. -/
theorem looseModel_deny_accepts_more :
    compile .empty "Model" (.obj looseRoot) .inherit = .ok (looseModel .inherit) ∧
      compile .empty "Model" (.obj looseRoot) .deny = .ok (looseModel .deny) ∧
      Schema.LeadsAlike (looseModel .inherit).links (looseModel .deny).links
        (looseModel .inherit).schema.withoutRest ∧
      (looseModel .deny).isValid (.obj [("id", .num (.int 1))]) = true ∧
      (looseModel .inherit).isValid (.obj [("id", .num (.int 1))]) = false :=
  ⟨looseRoot_compiles .inherit,looseRoot_compiles .deny,looseModel_leadsAlike,
    by decide +kernel,by decide +kernel⟩

end SchemaModel
end Unseal
