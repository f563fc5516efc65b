import Unseal.Proofs.Schema.Denial

/-!
# The three policies

Policies differ in the root's rules on the rest of the members. To allow unknown members makes
these rules pass, and where the root names all members of a value they have nothing left to
refuse. So under every policy such a value is judged by the rules that the root keeps.
-/

set_option autoImplicit false

namespace Unseal

namespace Judgement

variable {j : Judgement} {links : Links} {scope : List Uri} {rs : List Rule} {v : Json}

theorem nodeSees_named {ms : Members Json} {m : String × Json}
    (hkept : ∀ r ∈ rs, r.onRest = false → j.rulePasses links scope rs r (.obj ms) = true)
    (hm : m ∈ ms) (hnamed : Rule.leaves rs m.1 = false) :
    j.nodeSees links scope rs (.obj ms) (.member m.1 m.2) = true := by
  have hsome : Rule.named rs m.1 ≠ [] ∨ Rule.matching rs m.1 ≠ [] := by
    simpa [Rule.leaves, Decidable.imp_iff_not_or] using hnamed
  rcases hsome with h | h
  · obtain ⟨s, hs⟩ := List.exists_mem_of_ne_nil _ h
    obtain ⟨ps, hps, hkey⟩ := Rule.mem_named.mp hs
    have hall := List.all_eq_true.mp (hkept _ hps rfl) m hm
    exact List.any_eq_true.mpr ⟨_,hps,List.any_eq_true.mpr ⟨s,hkey,List.all_eq_true.mp hall s hkey⟩⟩
  · obtain ⟨p, hp⟩ := List.exists_mem_of_ne_nil _ h
    obtain ⟨ps, hps, hkey⟩ := Rule.mem_matching.mp hp
    obtain ⟨hmem, hmatches⟩ := List.mem_filter.mp hkey
    exact List.any_eq_true.mpr ⟨_,hps,List.any_eq_true.mpr ⟨p,hmem,hmatches⟩⟩

/-- Where all members are named, the rules on the rest refuse nothing. -/
theorem all_named
    (hnamed : ∀ ms, v = .obj ms → ∀ key ∈ Members.keys ms, Rule.leaves rs key = false) :
    (rs.all fun r => j.rulePasses links scope rs r v) =
      (rs.filter (!·.onRest)).all fun r => j.rulePasses links scope rs r v := by
  rw [Bool.eq_iff_iff, List.all_eq_true, List.all_eq_true]
  constructor
  · intro h r hr
    exact h r (List.mem_of_mem_filter hr)
  · intro h r hr
    have hkept : ∀ r ∈ rs, r.onRest = false → j.rulePasses links scope rs r v = true :=
      fun r hr hrest => h r (List.mem_filter.mpr ⟨hr,by simpa using hrest⟩)
    cases hrest : r.onRest with
    | false => exact hkept r hr hrest
    | true =>
      cases v with
      | obj ms =>
        have hmember : ∀ m ∈ ms, Rule.leaves rs m.1 = false :=
          fun m hm => hnamed ms rfl m.1 (List.mem_map_of_mem hm)
        cases r with
        | additional s =>
          apply List.all_eq_true.mpr
          intro m hm
          rw [hmember m hm]
          rfl
        | unevaluatedProperties s =>
          apply List.all_eq_true.mpr
          intro m hm
          exact nodeSees_named hkept hm (hmember m hm)
        | _ => cases hrest
      | _ => cases r <;> first | rfl | cases hrest

theorem all_open (htrue : ∀ x, j.passes scope (.always true) x = true)
    (hopen : ∀ r ∈ rs, r.onRest = true →
      r = .additional (.always true) ∨ r = .unevaluatedProperties (.always true))
    (hkept : ((rs.filter (!·.onRest)).all fun r => j.rulePasses links scope rs r v) = true) :
    (rs.all fun r => j.rulePasses links scope rs r v) = true := by
  rw [List.all_eq_true] at hkept ⊢
  intro r hr
  cases hrest : r.onRest with
  | false => exact hkept r (List.mem_filter.mpr ⟨hr,by simpa using hrest⟩)
  | true =>
    rcases hopen r hr hrest with rfl | rfl
    · exact rulePasses_additional htrue v
    · cases v with
      | obj ms =>
        apply List.all_eq_true.mpr
        intro m hm
        exact List.any_eq_true.mpr ⟨_,hr,htrue m.2⟩
      | _ => rfl

end Judgement

section
open UnknownFields

variable {base : Uri} {root : Members Json}

theorem onRest_allow {r : Rule}
    (hr : r ∈ Schema.assemble base (allow.applyTo root) (Schema.partsOf base (allow.applyTo root)))
    (hrest : r.onRest = true) :
    r = .additional (.always true) ∨ r = .unevaluatedProperties (.always true) := by
  have hne : "unevaluatedProperties" ≠ "additionalProperties" := by decide
  have hadditional : Members.find? "additionalProperties" (allow.applyTo root) =
      some (.bool true) :=
    (Members.find?_insert_of_ne hne ..).trans (Members.find?_insert_self ..)
  have hunevaluated : Members.find? "unevaluatedProperties" (allow.applyTo root) =
      some (.bool true) := Members.find?_insert_self ..
  rcases (mem_onRest_iff hrest).mp hr with ⟨x, hx, rfl⟩ | ⟨x, hx, rfl⟩
  · obtain rfl := Option.some.inj (hx.symm.trans hadditional)
    exact .inl rfl
  · obtain rfl := Option.some.inj (hx.symm.trans hunevaluated)
    exact .inr rfl

end

namespace SchemaModel

variable {m a d p : SchemaModel} {index : Index} {name : String} {policy : UnknownFields}
  {root : Members Json} {v : Json}

theorem all_kept_alike {base : Uri} {rs rs' : List Rule} (hm : m.schema = .rules base rs)
    (hkept : rs'.filter (!·.onRest) = rs.filter (!·.onRest))
    (hlinks : Schema.LeadsAlike m.links p.links m.schema.withoutRest) (n : Nat) (v : Json) :
    ((rs'.filter (!·.onRest)).all fun r =>
        (Judgement.ofDepth p.links n).rulePasses p.links (enter base []) rs' r v) =
      (rs.filter (!·.onRest)).all fun r =>
        (Judgement.ofDepth m.links n).rulePasses m.links (enter base []) rs r v := by
  rw [hkept]
  apply Judgement.all_congr_mem
  intro r hr
  obtain ⟨hmem, hrest⟩ := List.mem_filter.mp hr
  apply Eq.symm
  exact Judgement.rulePasses_kept hkept (alikeOn_kept hm hlinks n) hmem (by simpa using hrest) v

theorem rules_of_policies (hm : compile index name (.obj root) .inherit = .ok m)
    (hp : compile index name (.obj root) policy = .ok p) :
    ∃ base rs rs', m.schema = .rules base rs ∧ p.schema = .rules base rs' ∧
      rs'.filter (!·.onRest) = rs.filter (!·.onRest) ∧
      (policy = .allow → ∀ r ∈ rs', r.onRest = true →
        r = .additional (.always true) ∨ r = .unevaluatedProperties (.always true)) := by
  obtain ⟨outer, base, houter, hbase, hmr⟩ := rules_of_compile hm
  obtain ⟨outer', base', houter', hbase', hpr⟩ := rules_of_compile hp
  obtain rfl := Except.ok.inj (houter.symm.trans houter')
  obtain rfl := Except.ok.inj (hbase.symm.trans hbase')
  refine ⟨base,_,_,hmr,hpr,kept_applyTo policy,?_⟩
  rintro rfl r hr hrest
  exact onRest_allow hr hrest

theorem isValid_allow (hm : compile index name (.obj root) .inherit = .ok m)
    (ha : compile index name (.obj root) .allow = .ok a)
    (hlinks : Schema.LeadsAlike m.links a.links m.schema.withoutRest)
    (hv : m.isValid v = true) : a.isValid v = true := by
  obtain ⟨base, rs, rs', hmr, har, hkept, hopen⟩ := rules_of_policies hm ha
  rw [isValid_rules hmr, List.all_eq_true] at hv
  rw [isValid_rules har]
  apply Judgement.all_open (fun _ => rfl) (hopen rfl)
  rw [all_kept_alike hmr hkept hlinks, List.all_eq_true]
  intro r hr
  exact hv r (List.mem_of_mem_filter hr)

theorem isValid_named (hm : compile index name (.obj root) .inherit = .ok m)
    (hp : compile index name (.obj root) policy = .ok p)
    (hlinks : Schema.LeadsAlike m.links p.links m.schema.withoutRest)
    (hnamed : ∀ ms, v = .obj ms → ∀ key ∈ Members.keys ms, m.schema.names key = true) :
    p.isValid v = m.isValid v := by
  obtain ⟨base, rs, rs', hmr, hpr, hkept, -⟩ := rules_of_policies hm hp
  have hleaves : ∀ ms, v = .obj ms → ∀ key ∈ Members.keys ms, Rule.leaves rs key = false := by
    intro ms hms key hkey
    have hkey := hnamed ms hms key hkey
    rw [hmr] at hkey
    simpa [Schema.names] using hkey
  have hleaves' : ∀ ms, v = .obj ms → ∀ key ∈ Members.keys ms, Rule.leaves rs' key = false := by
    intro ms hms key hkey
    rw [← Rule.leaves_kept, hkept, Rule.leaves_kept]
    exact hleaves ms hms key hkey
  rw [isValid_rules hpr, isValid_rules hmr, Judgement.all_named hleaves,
    Judgement.all_named hleaves', all_kept_alike hmr hkept hlinks]

theorem isValid_verdict {b : Bool} (h : compile index name (.bool b) policy = .ok m) (v : Json) :
    m.isValid v = b := by
  obtain ⟨-, hassembled⟩ := compile_ok_iff.mp h
  obtain ⟨_, _, -, -, -, -, rfl⟩ := assemble_ok_iff.mp hassembled
  rfl

/-- What the schema itself accepts is accepted too when unknown members are allowed. Where the root
names all members of a value, or the value has none, all three policies judge it alike. References
must lead to the same schemas under the three policies. -/
theorem policies_judge_alike {document : Json}
    (hm : compile index name document .inherit = .ok m)
    (ha : compile index name document .allow = .ok a)
    (hd : compile index name document .deny = .ok d)
    (hallow : Schema.LeadsAlike m.links a.links m.schema.withoutRest)
    (hdeny : Schema.LeadsAlike m.links d.links m.schema.withoutRest) (v : Json) :
    (m.isValid v = true → a.isValid v = true) ∧
    ((∀ ms, v = .obj ms → ∀ key ∈ Members.keys ms, m.schema.names key = true) →
      a.isValid v = m.isValid v ∧ d.isValid v = m.isValid v) := by
  cases document with
  | obj root =>
    constructor
    · exact isValid_allow hm ha hallow
    · intro hnamed
      exact ⟨isValid_named hm ha hallow hnamed,isValid_named hm hd hdeny hnamed⟩
  | bool b =>
    rw [isValid_verdict hm, isValid_verdict ha, isValid_verdict hd]
    exact ⟨id,fun _ => ⟨rfl,rfl⟩⟩
  | _ => cases hm

def composedKept : Schema := basedRoot [.properties [("name", .rules Uri.root [])]]

theorem composedModel_leadsAlike (policy : UnknownFields) :
    Schema.LeadsAlike (composedModel .inherit).links (composedModel policy).links
      (composedModel .inherit).schema.withoutRest := by
  show Schema.LeadsAlike _ _ composedKept
  apply basedRoot_leadsAlike (base_links rfl _ _) (base_links rfl _ _)
  · intro r hr s hs
    cases List.mem_singleton.mp hr
    exact List.mem_singleton.mp hs
  · intro keyword t hr
    cases List.mem_singleton.mp hr

theorem composedRoot_policies : ∃ m a d,
    compile .empty "Model" (.obj composedRoot) .inherit = .ok m ∧
    compile .empty "Model" (.obj composedRoot) .allow = .ok a ∧
    compile .empty "Model" (.obj composedRoot) .deny = .ok d ∧
    Schema.LeadsAlike m.links a.links m.schema.withoutRest ∧
    Schema.LeadsAlike m.links d.links m.schema.withoutRest ∧
    (m.isValid composedValue = true ∧ a.isValid composedValue = true) ∧
    (∀ key ∈ Members.keys [("name", Json.str "a")], m.schema.names key = true) ∧
    a.isValid (.obj [("name", .str "a")]) = m.isValid (.obj [("name", .str "a")]) ∧
    d.isValid (.obj [("name", .str "a")]) = m.isValid (.obj [("name", .str "a")]) := by
  obtain ⟨hm, hmv⟩ := composedRoot_compiles .inherit
  obtain ⟨ha, -⟩ := composedRoot_compiles .allow
  obtain ⟨hd, -⟩ := composedRoot_compiles .deny
  have hallow := composedModel_leadsAlike .allow
  have hdeny := composedModel_leadsAlike .deny
  have hnames : ∀ key ∈ Members.keys [("name", Json.str "a")],
      (composedModel .inherit).schema.names key = true := by
    intro key hkey
    rw [List.mem_singleton.mp hkey]
    decide
  have hnamed : ∀ ms, Json.obj [("name", .str "a")] = .obj ms →
      ∀ key ∈ Members.keys ms, (composedModel .inherit).schema.names key = true := by
    rintro ms ⟨⟩
    exact hnames
  exact ⟨_,_,_,hm,ha,hd,hallow,hdeny,
    ⟨hmv,(policies_judge_alike hm ha hd hallow hdeny composedValue).1 hmv⟩,hnames,
    (policies_judge_alike hm ha hd hallow hdeny _).2 hnamed⟩

/-- The root without the rule on additional members no longer brings in the document that holds
the schema its other reference comes to. -/
theorem parcel_policies_differ : ∃ m a d,
    compile parcelFiles "Parcel" (.obj parcelRoot) .inherit = .ok m ∧
    compile parcelFiles "Parcel" (.obj parcelRoot) .allow = .ok a ∧
    compile parcelFiles "Parcel" (.obj parcelRoot) .deny = .ok d ∧
    m.avoidsRoot = true ∧ m.schema.names "weight" = true ∧
    m.isValid (.obj [("weight", .str "2 kg")]) = true ∧
    a.isValid (.obj [("weight", .str "2 kg")]) = false ∧
    d.isValid (.obj [("weight", .str "2 kg")]) = false := by
  obtain ⟨-, -, hm, ha, hd⟩ := roots_compile
  obtain ⟨m, hm, hmv⟩ := exists_of_toOption_any hm
  obtain ⟨a, ha, hav⟩ := exists_of_toOption_any ha
  obtain ⟨d, hd, hdv⟩ := exists_of_toOption_any hd
  simp only [Bool.and_eq_true, Bool.not_eq_true'] at hmv hav hdv
  exact ⟨m,a,d,hm,ha,hd,hmv.1.1,hmv.1.2,hmv.2,hav,hdv⟩

end SchemaModel
end Unseal
