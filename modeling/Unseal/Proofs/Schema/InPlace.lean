import Mathlib.Logic.Relation
import Unseal.Proofs.Schema.Filter
import Unseal.Proofs.Schema.Policies

/-!
# Members that nothing names

A rule looks at a member because it names the key, because it is on the rest of the members, or
through a schema that it applies to the whole value in its own place. So a key that no schema in
the place of the root names is looked at by none of them, however deep the judgement goes, and a
root that denies unknown members refuses it.
-/

set_option autoImplicit false

namespace Unseal

open Relation (TransGen ReflTransGen)

/-- The schemas that a rule applies to the very value that it judges, references apart. -/
def Rule.inPlace : Rule → List Schema
  | .dependentSchemas ds => ds.map (·.2)
  | .allOf ss => ss
  | .anyOf ss => ss
  | .oneOf ss => ss
  | .negation _ s => [s]
  | .conditional test positive negative => test :: (positive.toList ++ negative.toList)
  | _ => []

namespace Schema

def usesRest : Schema → Bool
  | .rules _ rs => rs.any Rule.onRest
  | _ => false

/-- A schema applies another in its own place, directly or by a reference. Each comes with the
bases of the documents on the way to it. -/
inductive Applies (links : Links) : List Uri × Schema → List Uri × Schema → Prop
  | part {scope : List Uri} {base : Uri} {rs : List Rule} {r : Rule} {s : Schema} :
      r ∈ rs → s ∈ r.inPlace → Applies links (scope, .rules base rs) (enter base scope, s)
  | target {scope : List Uri} {base : Uri} {rs : List Rule} {keyword : String} {t : Reference} :
      .link keyword t ∈ rs →
      Applies links (scope, .rules base rs) (enter base scope, links (enter base scope) t)

end Schema

namespace Judgement

variable {j : Judgement} {links : Links} {scope : List Uri} {rs : List Rule} {r : Rule}
  {key : String} {whole x : Json}

theorem option_any_eq_false {α : Type} {f : α → Bool} {o : Option α} (h : ∀ x ∈ o, f x = false) :
    o.any f = false := by
  cases o with
  | none => rfl
  | some x => exact h x rfl

theorem any_sees_eq_false {ss : List Schema} {spot : Spot}
    (h : ∀ s ∈ ss, j.sees scope s whole spot = false) :
    (ss.any fun s => j.sees scope s whole spot) = false := by
  apply List.any_eq_false.mpr
  intro s hs
  simp [h s hs]

theorem ruleSees_unnamed (hleaves : Rule.leaves rs key = true) (hr : r ∈ rs)
    (hrest : r.onRest = false)
    (hparts : ∀ s ∈ r.inPlace, j.sees scope s whole (.member key x) = false)
    (htarget : ∀ keyword t, r = .link keyword t →
      j.sees scope (links scope t) whole (.member key x) = false) :
    j.ruleSees links scope whole (.member key x) r = false := by
  obtain ⟨hnamed, hmatching⟩ : Rule.named rs key = [] ∧ Rule.matching rs key = [] := by
    simpa [Rule.leaves] using hleaves
  cases r with
  | link keyword t => exact htarget keyword t rfl
  | properties ps =>
    apply List.any_eq_false.mpr
    intro s hs
    have hmem : s ∈ Rule.named rs key := Rule.mem_named.mpr ⟨ps,hr,hs⟩
    rw [hnamed] at hmem
    cases hmem
  | patterns ps =>
    apply List.any_eq_false.mpr
    intro p hp hmatches
    have hmem : p ∈ Rule.matching rs key :=
      Rule.mem_matching.mpr ⟨ps,hr,List.mem_filter.mpr ⟨hp,hmatches⟩⟩
    rw [hmatching] at hmem
    cases hmem
  | additional s => cases hrest
  | unevaluatedProperties s => cases hrest
  | dependentSchemas ds =>
    cases whole with
    | obj ms =>
      apply List.any_eq_false.mpr
      intro d hd
      simp [hparts d.2 (List.mem_map_of_mem hd)]
    | _ => rfl
  | conditional test positive negative =>
    obtain ⟨htest, hpositive, hnegative⟩ :
        j.sees scope test whole (.member key x) = false ∧
          (∀ s ∈ positive, j.sees scope s whole (.member key x) = false) ∧
          ∀ s ∈ negative, j.sees scope s whole (.member key x) = false := by
      simpa [Rule.inPlace, or_imp, forall_and] using hparts
    simp only [ruleSees, htest, option_any_eq_false hpositive, option_any_eq_false hnegative,
      Bool.or_self, ite_self]
  | allOf ss =>
    have hnone : (ss.any fun s => j.sees scope s whole (.member key x)) = false :=
      any_sees_eq_false hparts
    rw [ruleSees, hnone, Bool.and_false]
  | anyOf ss =>
    have hnone : (ss.any fun s => j.sees scope s whole (.member key x)) = false :=
      any_sees_eq_false hparts
    rw [ruleSees, hnone, Bool.and_false]
  | oneOf ss =>
    rw [ruleSees]
    split
    next s hone =>
      have hs : s ∈ ss := List.mem_of_mem_filter (hone ▸ List.mem_singleton.mpr rfl)
      exact hparts s hs
    next => rfl
  | _ => rfl

theorem sees_unnamed {s : Schema}
    (h : ∀ p, ReflTransGen (Schema.Applies links) (scope, s) p →
      p.2.usesRest = false ∧ p.2.names key = false) (n : Nat) :
    (ofDepth links n).sees scope s whole (.member key x) = false := by
  induction n generalizing scope s with
  | zero => rfl
  | succ n ih =>
    cases s with
    | always => rfl
    | broken => rfl
    | rules base rs =>
      -- The node itself names nothing; what it applies in place is judged one schema less deep.
      obtain ⟨hrest, hnames⟩ := h _ .refl
      have hleaves : Rule.leaves rs key = true := by simpa [Schema.names] using hnames
      apply List.any_eq_false.mpr
      intro r hr
      have honRest : r.onRest = false := by
        simpa using List.any_eq_false.mp hrest r hr
      rw [ruleSees_unnamed hleaves hr honRest]
      · exact Bool.false_ne_true
      · intro s hs
        exact ih fun p hp => h p (.head (.part hr hs) hp)
      · rintro keyword t rfl
        exact ih fun p hp => h p (.head (.target hr) hp)

theorem denies_unnamed {base : Uri} {rs rs' : List Rule} (hd : Rule.Denies rs rs')
    (hrest : ∀ scope s, TransGen (Schema.Applies links) ([], .rules base rs') (scope, s) →
      s.usesRest = false)
    (hkey : ∀ scope s, ReflTransGen (Schema.Applies links) ([], .rules base rs') (scope, s) →
      s.names key = false) (n : Nat) (whole x : Json) :
    (ofDepth links n).nodeSees links (enter base []) rs' whole (.member key x) = false := by
  have hleaves : Rule.leaves rs' key = true := by simpa [Schema.names] using hkey _ _ .refl
  have hinside : ∀ p, Schema.Applies links ([], .rules base rs') p →
      (ofDepth links n).sees p.1 p.2 whole (.member key x) = false := by
    intro p hp
    exact sees_unnamed (fun q hq => ⟨hrest _ _ (.head' hp hq),hkey _ _ (.head hp hq)⟩) n
  apply List.any_eq_false.mpr
  intro r hr
  rw [Bool.not_eq_true]
  cases honRest : r.onRest with
  | false =>
    apply ruleSees_unnamed hleaves hr honRest
    · intro s hs
      exact hinside _ (.part hr hs)
    · rintro keyword t rfl
      exact hinside _ (.target hr)
  | true =>
    rcases hd.rest r hr honRest with rfl | rfl
    · cases n <;> rfl
    · cases n <;> rfl

end Judgement

namespace SchemaModel

variable {m d : SchemaModel} {index : Index} {name key : String} {root : Members Json}

/-- A denying root refuses every member that neither it nor a schema in its place names, whatever
the root itself says about the rest. That none of the others has a rule on the rest leaves out the
root again, since denial gives it one. -/
theorem deny_refuses_unnamed (hroot : (Members.keys root).Nodup)
    (hd : compile index name (.obj root) .deny = .ok d)
    (hrest : ∀ scope s, TransGen (Schema.Applies d.links) ([], d.schema) (scope, s) →
      s.usesRest = false)
    (hkey : ∀ scope s, ReflTransGen (Schema.Applies d.links) ([], d.schema) (scope, s) →
      s.names key = false)
    {ms : Members Json} (hms : key ∈ Members.keys ms) :
    d.isValid (.obj ms) = false ∧ ∃ err, d.check (.obj ms) = .error err := by
  obtain ⟨_, base, -, -, hschema⟩ := rules_of_compile hd
  have hdenies := @denies_deny base root hroot
  generalize Schema.assemble base (UnknownFields.deny.applyTo root) _ = rs at hschema hdenies
  rw [hschema] at hrest hkey
  obtain ⟨⟨_, x⟩, hmem, rfl⟩ := List.mem_map.mp hms
  have hunseen := Judgement.denies_unnamed hdenies hrest hkey (depthLimit - 1) (.obj ms) x
  have hinvalid : d.isValid (.obj ms) = false := by
    rw [isValid_rules hschema, List.all_eq_false]
    refine ⟨_,hdenies.denied,?_⟩
    rw [Judgement.rulePasses, List.all_eq_true]
    intro hall
    rw [hall _ hmem] at hunseen
    cases hunseen
  refine ⟨hinvalid,Traversal.exists_error_iff.mpr ?_⟩
  rintro ⟨w, hw⟩
  have hvalid := ((d.check_ok_iff _ _).mp hw).2
  rw [hinvalid] at hvalid
  cases hvalid

end SchemaModel

/-! ## A composed root that denies -/

def composedDenied : Schema :=
  basedRoot [.properties [("name", .rules Uri.root [])], .unevaluatedProperties (.always false)]

theorem composedDenied_applies {links : Links}
    (hlinks : ∀ scope, links scope looseReference = looseTarget) {p q : List Uri × Schema}
    (hp : p = ([], composedDenied) ∨ p = ([Uri.root], looseTarget))
    (h : Schema.Applies links p q) : q = ([Uri.root], looseTarget) := by
  rcases hp with rfl | rfl
  · cases h with
    | part hr hs =>
      simp only [List.mem_cons, List.not_mem_nil, or_false] at hr
      rcases hr with rfl | rfl | rfl <;> cases hs
    | target hr =>
      simp only [List.mem_cons, List.not_mem_nil, or_false, Rule.link.injEq, reduceCtorEq] at hr
      rw [hr.2, hlinks]
      rfl
  · cases h with
    | part hr hs =>
      cases List.mem_singleton.mp hr
      cases hs
    | target hr => cases List.mem_singleton.mp hr

theorem composedDenied_in_place {links : Links}
    (hlinks : ∀ scope, links scope looseReference = looseTarget) {p : List Uri × Schema}
    (h : TransGen (Schema.Applies links) ([], composedDenied) p) :
    p = ([Uri.root], looseTarget) := by
  induction h with
  | single h => exact composedDenied_applies hlinks (.inl rfl) h
  | tail _ h ih => exact composedDenied_applies hlinks (.inr ih) h

namespace SchemaModel

theorem composedRoot_deny_refuses : ∃ d,
    compile .empty "Model" (.obj composedRoot) .deny = .ok d ∧
    d.isValid (.obj [("id", .num (.int 1)), ("name", .str "a")]) = true ∧
    d.isValid (.obj [("id", .num (.int 1)), ("size", .num (.int 2))]) = false ∧
    ∃ err, d.check (.obj [("id", .num (.int 1)), ("size", .num (.int 2))]) = .error err := by
  obtain ⟨hd, hvalid⟩ := composedRoot_compiles .deny
  have hlinks := @base_links composedRoot rfl "Model" .deny
  have hrest : ∀ scope s, TransGen (Schema.Applies (composedModel .deny).links)
      ([], composedDenied) (scope, s) → s.usesRest = false := by
    intro scope s h
    cases composedDenied_in_place hlinks h
    rfl
  have hkey : ∀ scope s, ReflTransGen (Schema.Applies (composedModel .deny).links)
      ([], composedDenied) (scope, s) → s.names "size" = false := by
    intro scope s h
    rcases Relation.reflTransGen_iff_eq_or_transGen.mp h with h | h
    · cases h
      decide
    · cases composedDenied_in_place hlinks h
      decide
  exact ⟨_,hd,hvalid,deny_refuses_unnamed (by decide) hd hrest hkey (by decide)⟩

end SchemaModel
end Unseal
