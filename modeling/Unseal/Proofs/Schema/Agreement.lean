import Unseal.Proofs.Schema.Naming
import Unseal.Schema.Report

/-!
# Reports and verdicts

A schema reports nothing on a value exactly when the value passes. Most rules report on their own
account. Where a node restricts additional members, the rule on those reports for the rules on
named members too, so the node is compared as a whole.
-/

set_option autoImplicit false

namespace Unseal

/-! ## Counting on the way -/

theorem countTo_eq (p : Json → Bool) (n : Nat) (vs : List Json) :
    countTo p n vs = min n (vs.countP p) := by
  induction vs generalizing n with
  | nil => cases n <;> simp [countTo]
  | cons v vs ih =>
    cases n with
    | zero => simp [countTo]
    | succ n =>
      rw [countTo, ih, ih, List.countP_cons]
      cases p v with
      | true => simp
      | false => simp

theorem containsFault?_eq_none_iff {p : Json → Bool} {least most : Option Nat} {vs : List Json} :
    containsFault? p least most vs = none ↔ withinContains least most (vs.countP p) = true := by
  have hany : vs.any p = true ↔ 1 ≤ vs.countP p := by
    rw [List.any_eq_true, Nat.one_le_iff_ne_zero, ← Nat.pos_iff_ne_zero, List.countP_pos_iff]
  cases least with
  | none =>
    cases most with
    | none => simp [containsFault?, withinContains, hany]
    | some most =>
      simp only [containsFault?, withinContains, countTo_eq, ite_eq_right_iff, reduceCtorEq,
        imp_false, Option.getD_none, Bool.and_eq_true, decide_eq_true_eq]
      omega
  | some least =>
    cases most with
    | none =>
      simp only [containsFault?, withinContains, countTo_eq, ite_eq_right_iff, reduceCtorEq,
        imp_false, Option.getD_some, Bool.and_true, decide_eq_true_eq]
      omega
    | some most =>
      simp only [containsFault?, withinContains, countTo_eq, Option.getD_some, Bool.and_eq_true,
        decide_eq_true_eq]
      split
      next hmore => exact iff_of_false nofun (by omega)
      next =>
        simp only [ite_eq_right_iff, reduceCtorEq, imp_false]
        omega

theorem countP_eq_dropWhile {α : Type} (p : α → Bool) (l : List α) :
    l.countP p = match l.dropWhile fun x => !p x with
      | [] => 0
      | _ :: rest => rest.countP p + 1 := by
  induction l with
  | nil => rfl
  | cons x l ih =>
    cases hx : p x with
    | true => simp [hx]
    | false => simpa [hx] using ih

/-- A rule about the members that a node names, or about all others, that meets an object. -/
def Rule.isNaming : Rule → Json → Bool
  | .properties _, .obj _ => true
  | .patterns _, .obj _ => true
  | .additional _, .obj _ => true
  | _, _ => false

/-- A reporter finds fault exactly with what the judgement refuses, and the judgement takes bare
verdicts at their word. -/
structure Judgement.Agrees (j : Judgement) (report : Judgement.Reporter) : Prop where
  nil_iff : ∀ site scope s v, report site scope s v = [] ↔ j.passes scope s v = true
  always : ∀ scope b v, j.passes scope (.always b) v = b
  broken : ∀ scope f v, j.passes scope (.broken f) v = true

namespace Judgement.Agrees

variable {j : Judgement} {report : Judgement.Reporter} {links : Links} {scope : List Uri}
  {rs : List Rule} {site : Site} {v : Json} {ms : Members Json} {s : Schema}

theorem passes_of_not_restricts (h : j.Agrees report) (hs : s.restricts = false) :
    j.passes scope s v = true := by
  cases s with
  | always b =>
    cases b with
    | true => exact h.always ..
    | false => cases hs
  | rules => cases hs
  | broken => exact h.broken ..

/-! ## Rules that report on their own account -/

theorem zipIdx_flatMap_nil_iff {α : Type} {f : α × Nat → List Violation} {p : α → Bool}
    (hf : ∀ x, f x = [] ↔ p x.1 = true) (l : List α) (k : Nat) :
    (l.zipIdx k).flatMap f = [] ↔ l.all p = true := by
  induction l generalizing k with
  | nil => simp
  | cons x l ih => simp [hf, ih]

theorem flatMap_nil_iff {α : Type} {f : α → List Violation} {p : α → Bool}
    (hf : ∀ x, f x = [] ↔ p x = true) (l : List α) : l.flatMap f = [] ↔ l.all p = true := by
  simp [hf]

theorem if_nil_iff {c b : Bool} {found : List Violation} (h : found = [] ↔ b = true) :
    (if c then found else []) = [] ↔ (!c || b) = true := by
  cases c with
  | false => simp
  | true => simpa using h

theorem whole_nil_iff {r : Rule} :
    (if j.rulePasses links scope rs r v then []
      else
        let (keyword, message) := Judgement.complaint r v
        [(site.rule keyword).violation message]) = [] ↔
      j.rulePasses links scope rs r v = true := by
  split
  next h => simp [h]
  next h => simp [h]

theorem missing_nil_iff {keyword : String} {keys : List String} :
    (keys.filter fun k => !Members.contains k ms).map (Judgement.missing site keyword) = [] ↔
      (keys.all fun k => Members.contains k ms) = true := by
  simp [List.filter_eq_nil_iff]

/-- Where no name is allowed, a single violation stands for all of them. -/
theorem names_nil_iff (h : j.Agrees report) :
    j.ruleReport links scope report rs site (.names s) (.obj ms) = [] ↔
      (ms.all fun m => j.passes scope s (.str m.1)) = true := by
  have each (s : Schema) :
      (ms.flatMap fun m => report (site.rule "propertyNames") scope s (.str m.1)) = [] ↔
        (ms.all fun m => j.passes scope s (.str m.1)) = true :=
    flatMap_nil_iff (fun _ => h.nil_iff ..) ms
  cases s with
  | always b =>
    cases b with
    | true => exact each (.always true)
    | false =>
      cases ms with
      | nil => exact iff_of_true rfl rfl
      | cons m ms => simp [Judgement.ruleReport, h.always]
  | rules base rs => exact each (.rules base rs)
  | broken fault => exact each (.broken fault)

theorem contains_nil_iff {least most : Option Nat} {vs : List Json} :
    j.ruleReport links scope report rs site (.contains s least most) (.arr vs) = [] ↔
      j.rulePasses links scope rs (.contains s least most) (.arr vs) = true := by
  refine Iff.trans ?_ containsFault?_eq_none_iff
  simp only [Judgement.ruleReport]
  cases containsFault? (j.passes scope s) least most vs with
  | none => simp
  | some keyword => simp

theorem dependencies_nil_iff (h : j.Agrees report)
    {ds : List (String × List String × Schema)} :
    j.ruleReport links scope report rs site (.dependencies ds) (.obj ms) = [] ↔
      j.rulePasses links scope rs (.dependencies ds) (.obj ms) = true := by
  refine flatMap_nil_iff (fun d => if_nil_iff ?_) ds
  rw [List.append_eq_nil_iff, Bool.and_eq_true]
  exact and_congr missing_nil_iff (h.nil_iff ..)

/-- The first schema that accepts is looked for, and then any other behind it. -/
theorem oneOf_nil_iff {ss : List Schema} :
    j.ruleReport links scope report rs site (.oneOf ss) v = [] ↔
      j.rulePasses links scope rs (.oneOf ss) v = true := by
  simp only [Judgement.ruleReport, Judgement.rulePasses, beq_iff_eq]
  rw [countP_eq_dropWhile]
  cases ss.dropWhile fun s => !j.passes scope s v with
  | nil => simp
  | cons s others => simp [List.countP_eq_zero]

theorem conditional_nil_iff (h : j.Agrees report) {test : Schema}
    {positive negative : Option Schema} :
    j.ruleReport links scope report rs site (.conditional test positive negative) v = [] ↔
      j.rulePasses links scope rs (.conditional test positive negative) v = true := by
  have branch (keyword : String) (s? : Option Schema) :
      (s?.toList.flatMap fun s => report (site.rule keyword) scope s v) = [] ↔
        (s?.all fun s => j.passes scope s v) = true := by
    cases s? with
    | none => exact iff_of_true rfl rfl
    | some s => simpa using h.nil_iff ..
  simp only [Judgement.ruleReport, Judgement.rulePasses]
  split
  next => exact branch "then" positive
  next => exact branch "else" negative

theorem unevaluatedItems_nil_iff {vs : List Json} :
    j.ruleReport links scope report rs site (.unevaluatedItems s) (.arr vs) = [] ↔
      j.rulePasses links scope rs (.unevaluatedItems s) (.arr vs) = true := by
  have hunseen : j.unseenItems links scope rs vs = [] ↔
      j.rulePasses links scope rs (.unevaluatedItems s) (.arr vs) = true := by
    simp [Judgement.unseenItems, Judgement.rulePasses, List.filter_eq_nil_iff]
  rw [← hunseen, Judgement.ruleReport]
  cases j.unseenItems links scope rs vs with
  | nil => simp
  | cons => simp

theorem unevaluatedProperties_nil_iff :
    j.ruleReport links scope report rs site (.unevaluatedProperties s) (.obj ms) = [] ↔
      j.rulePasses links scope rs (.unevaluatedProperties s) (.obj ms) = true := by
  have hunseen : j.unseenMembers links scope rs ms = [] ↔
      j.rulePasses links scope rs (.unevaluatedProperties s) (.obj ms) = true := by
    simp [Judgement.unseenMembers, Judgement.rulePasses, List.filter_eq_nil_iff]
  rw [← hunseen, Judgement.ruleReport]
  cases j.unseenMembers links scope rs ms with
  | nil => simp
  | cons => simp

theorem ruleReport_nil_iff (h : j.Agrees report) {r : Rule} (hr : r.isNaming v = false) :
    j.ruleReport links scope report rs site r v = [] ↔ j.rulePasses links scope rs r v = true := by
  -- On a value of a kind that it is not about, every rule is one that reports itself.
  have whole := @whole_nil_iff j links scope rs site v r
  cases r with
  | link => exact h.nil_iff ..
  | contains =>
    cases v with
    | arr => exact contains_nil_iff
    | _ => exact whole
  | firstItems ss =>
    cases v with
    | arr vs => exact zipIdx_flatMap_nil_iff (fun x => h.nil_iff _ scope x.1.1 x.1.2) (ss.zip vs) 0
    | _ => exact whole
  | items skip s =>
    cases v with
    | arr vs => exact zipIdx_flatMap_nil_iff (fun _ => h.nil_iff ..) (vs.drop skip) skip
    | _ => exact whole
  | properties =>
    cases v with
    | obj => cases hr
    | _ => exact whole
  | patterns =>
    cases v with
    | obj => cases hr
    | _ => exact whole
  | additional =>
    cases v with
    | obj => cases hr
    | _ => exact whole
  | names s =>
    cases v with
    | obj ms => exact h.names_nil_iff
    | _ => exact whole
  | required =>
    cases v with
    | obj ms => exact missing_nil_iff
    | _ => exact whole
  | dependentRequired ds =>
    cases v with
    | obj ms => exact flatMap_nil_iff (fun _ => if_nil_iff missing_nil_iff) ds
    | _ => exact whole
  | dependentSchemas ds =>
    cases v with
    | obj ms => exact flatMap_nil_iff (fun _ => if_nil_iff (h.nil_iff ..)) ds
    | _ => exact whole
  | dependencies ds =>
    cases v with
    | obj ms => exact h.dependencies_nil_iff
    | _ => exact whole
  | allOf ss => exact zipIdx_flatMap_nil_iff (fun x => h.nil_iff _ scope x.1 v) ss 0
  | oneOf ss => exact oneOf_nil_iff
  | conditional => exact h.conditional_nil_iff
  | unevaluatedItems =>
    cases v with
    | arr => exact unevaluatedItems_nil_iff
    | _ => exact whole
  | unevaluatedProperties =>
    cases v with
    | obj => exact unevaluatedProperties_nil_iff
    | _ => exact whole
  | _ => exact whole

/-! ## Rules on named and additional members -/

def NamedPass (j : Judgement) (scope : List Uri) (rs : List Rule) (ms : Members Json) : Prop :=
  ∀ m ∈ ms, (∀ s ∈ Rule.named rs m.1, j.passes scope s m.2 = true) ∧
    ∀ p ∈ Rule.matching rs m.1, j.passes scope p.2 m.2 = true

theorem asked_iff {c b : Bool} : (!c || b) = true ↔ (c = true → b = true) := by
  cases c with
  | false => simp
  | true => simp

theorem properties_iff {ps : List (String × Schema)} :
    j.rulePasses links scope rs (.properties ps) (.obj ms) = true ↔
      ∀ m ∈ ms, ∀ s ∈ Schema.withKey m.1 ps, j.passes scope s m.2 = true := by
  simp only [Judgement.rulePasses, List.all_eq_true]

theorem patterns_iff {ps : List (Pattern × Schema)} :
    j.rulePasses links scope rs (.patterns ps) (.obj ms) = true ↔
      ∀ m ∈ ms, ∀ p ∈ ps.filter fun p => p.1.matches m.1, j.passes scope p.2 m.2 = true := by
  simp only [Judgement.rulePasses, List.all_eq_true, List.mem_filter, and_imp, asked_iff]

theorem additional_iff :
    j.rulePasses links scope rs (.additional s) (.obj ms) = true ↔
      ∀ m ∈ ms, Rule.leaves rs m.1 = true → j.passes scope s m.2 = true := by
  simp only [Judgement.rulePasses, List.all_eq_true, asked_iff]

theorem namedPass_iff :
    NamedPass j scope rs ms ↔
      (∀ ps, Rule.properties ps ∈ rs →
        j.rulePasses links scope rs (.properties ps) (.obj ms) = true) ∧
      ∀ ps, Rule.patterns ps ∈ rs →
        j.rulePasses links scope rs (.patterns ps) (.obj ms) = true := by
  simp only [NamedPass, properties_iff, patterns_iff, Rule.mem_named, Rule.mem_matching]
  constructor
  · intro h
    exact ⟨fun ps hps m hm s hs => (h m hm).1 s ⟨ps, hps, hs⟩,
      fun ps hps m hm p hp => (h m hm).2 p ⟨ps, hps, hp⟩⟩
  · rintro ⟨hn, hp⟩ m hm
    exact ⟨fun s ⟨ps, hps, hs⟩ => hn ps hps m hm s hs,
      fun p ⟨ps, hps, hs⟩ => hp ps hps m hm p hs⟩

theorem namedReport_nil_iff (h : j.Agrees report) {key : String} {x : Json} :
    Judgement.namedReport scope report rs site key x = [] ↔
      (∀ s ∈ Rule.named rs key, j.passes scope s x = true) ∧
        ∀ p ∈ Rule.matching rs key, j.passes scope p.2 x = true := by
  simp only [Judgement.namedReport, List.append_eq_nil_iff, List.flatMap_eq_nil_iff, h.nil_iff]

theorem forbidden_nil_iff (h : j.Agrees report) (hn : Rule.namesMembers rs = false) :
    ((ms.take 1).map fun m => (site.rule "additionalProperties").refusal m.2) = [] ↔
      NamedPass j scope rs ms ∧
        j.rulePasses links scope rs (.additional (.always false)) (.obj ms) = true := by
  have bare : NamedPass j scope rs ms := fun m _ => by simp [Rule.nothing_named hn]
  have left (key : String) : Rule.leaves rs key = true := by
    simp [Rule.leaves, Rule.nothing_named hn]
  rw [additional_iff]
  cases ms with
  | nil => simp [bare]
  | cons m ms =>
    refine iff_of_false (by simp) fun ⟨_, refused⟩ => ?_
    have := refused m (List.mem_cons_self ..) (left m.1)
    rw [h.always] at this
    cases this

/-- Where additional members are restricted, one report stands for the rules on all members. -/
theorem closedReport_nil_iff (h : j.Agrees report) (hs : s.restricts = true) :
    Judgement.closedReport scope report rs s site ms = [] ↔
      NamedPass j scope rs ms ∧
        j.rulePasses links scope rs (.additional s) (.obj ms) = true := by
  cases s with
  | always b =>
    cases b with
    | true => cases hs
    | false =>
      simp only [Judgement.closedReport]
      split
      next hn =>
        rw [List.append_eq_nil_iff, additional_iff]
        refine and_congr ?_ ?_
        · simp only [List.flatMap_eq_nil_iff, h.namedReport_nil_iff, NamedPass]
        · simp [h.always, List.filter_eq_nil_iff]
      next hn => exact h.forbidden_nil_iff (Bool.not_eq_true _ ▸ hn)
  | rules base inner =>
    have rest (m : String × Json) :
        (if Rule.leaves rs m.1 then
          report ((site.inside m.1).rule "additionalProperties") scope (.rules base inner) m.2
        else []) = [] ↔
          (Rule.leaves rs m.1 = true → j.passes scope (.rules base inner) m.2 = true) := by
      rw [if_nil_iff (h.nil_iff ..), asked_iff]
    simp only [Judgement.closedReport, List.flatMap_eq_nil_iff, List.append_eq_nil_iff,
      h.namedReport_nil_iff, additional_iff, NamedPass, rest]
    exact forall₂_and
  | broken => cases hs

/-- The rule on additional members reports for itself once the named members are known to pass. -/
theorem additionalReport_nil_iff (h : j.Agrees report)
    (hn : s.restricts = true → NamedPass j scope rs ms) :
    j.ruleReport links scope report rs site (.additional s) (.obj ms) = [] ↔
      j.rulePasses links scope rs (.additional s) (.obj ms) = true := by
  simp only [Judgement.ruleReport]
  split
  next hs =>
    rw [h.closedReport_nil_iff hs]
    exact and_iff_right (hn hs)
  next hs =>
    have unrestricted (x : Json) : j.passes scope s x = true :=
      h.passes_of_not_restricts (Bool.not_eq_true _ ▸ hs)
    simp [additional_iff, unrestricted]

theorem open_nil_iff (h : j.Agrees report) (ho : Rule.isClosed rs = false) {r : Rule}
    (hr : r ∈ rs) :
    j.ruleReport links scope report rs site r (.obj ms) = [] ↔
      j.rulePasses links scope rs r (.obj ms) = true := by
  have onMember {c : Prop} [Decidable c] {place : Site} {s : Schema} {x : Json} :
      (if c then report place scope s x else []) = [] ↔ (c → j.passes scope s x = true) := by
    split
    next hc => simp [hc, h.nil_iff]
    next hc => simp [hc]
  cases r with
  | properties ps =>
    simp only [properties_iff, Judgement.ruleReport, ho, Bool.false_eq_true, ↓reduceIte,
      List.flatMap_eq_nil_iff, onMember, Schema.mem_withKey]
    constructor
    · rintro reported m hm s ⟨p, hp, hkey, rfl⟩
      exact reported p hp m hm hkey.symm
    · intro passed p hp m hm hkey
      exact passed m hm p.2 ⟨p, hp, hkey.symm, rfl⟩
  | patterns ps =>
    simp only [patterns_iff, Judgement.ruleReport, ho, Bool.false_eq_true, ↓reduceIte,
      List.flatMap_eq_nil_iff, onMember, List.mem_filter]
    exact ⟨fun reported m hm p hp => reported p hp.1 m hm hp.2,
      fun passed p hp m hm hmatch => passed m hm p ⟨hp, hmatch⟩⟩
  | additional s =>
    refine h.additionalReport_nil_iff fun hs => ?_
    have := Rule.isClosed_iff.mpr ⟨s, hr, hs⟩
    rw [ho] at this
    cases this
  | _ => exact h.ruleReport_nil_iff rfl

theorem closed_nil_iff (h : j.Agrees report) (hc : Rule.isClosed rs = true) :
    (∀ r ∈ rs, j.ruleReport links scope report rs site r (.obj ms) = []) ↔
      ∀ r ∈ rs, j.rulePasses links scope rs r (.obj ms) = true := by
  constructor
  · intro reported
    -- The rule on additional members has reported on the named ones as well.
    obtain ⟨s, hs, restricts⟩ := Rule.isClosed_iff.mp hc
    have ⟨named, _⟩ : NamedPass j scope rs ms ∧
        j.rulePasses links scope rs (.additional s) (.obj ms) = true := by
      have closed := reported _ hs
      simp only [Judgement.ruleReport, restricts, ↓reduceIte] at closed
      exact (h.closedReport_nil_iff restricts).mp closed
    intro r hr
    cases r with
    | properties ps => exact (namedPass_iff.mp named).1 ps hr
    | patterns ps => exact (namedPass_iff.mp named).2 ps hr
    | additional s => exact (h.additionalReport_nil_iff fun _ => named).mp (reported _ hr)
    | _ => exact (h.ruleReport_nil_iff rfl).mp (reported _ hr)
  · intro passed
    have named : NamedPass j scope rs ms :=
      namedPass_iff.mpr ⟨fun _ hr => passed _ hr, fun _ hr => passed _ hr⟩
    intro r hr
    cases r with
    | properties ps => simp only [Judgement.ruleReport, hc, ↓reduceIte]
    | patterns ps => simp only [Judgement.ruleReport, hc, ↓reduceIte]
    | additional s => exact (h.additionalReport_nil_iff fun _ => named).mpr (passed _ hr)
    | _ => exact (h.ruleReport_nil_iff rfl).mpr (passed _ hr)

theorem node_nil_iff (h : j.Agrees report) :
    (rs.flatMap fun r => j.ruleReport links scope report rs site r v) = [] ↔
      (rs.all fun r => j.rulePasses links scope rs r v) = true := by
  simp only [List.flatMap_eq_nil_iff, List.all_eq_true]
  cases v with
  | obj ms =>
    cases hc : Rule.isClosed rs with
    | true => exact h.closed_nil_iff hc
    | false => exact forall₂_congr fun r hr => h.open_nil_iff hc hr
  | _ =>
    refine forall₂_congr fun r hr => h.ruleReport_nil_iff ?_
    cases r <;> rfl

end Judgement.Agrees

theorem Schema.report_agrees (links : Links) (n : Nat) :
    (Judgement.ofDepth links n).Agrees (Schema.report links n) := by
  induction n with
  | zero =>
    refine ⟨fun site scope s v => ?_, fun _ _ _ => rfl, fun _ _ _ => rfl⟩
    cases s with
    | always b =>
      cases b with
      | true => exact iff_of_true rfl rfl
      | false => exact iff_of_false (List.cons_ne_nil _ _) Bool.false_ne_true
    | _ => exact iff_of_true rfl rfl
  | succ n ih =>
    refine ⟨fun site scope s v => ?_, fun _ _ _ => rfl, fun _ _ _ => rfl⟩
    cases s with
    | always b =>
      cases b with
      | true => exact iff_of_true rfl rfl
      | false => exact iff_of_false (List.cons_ne_nil _ _) Bool.false_ne_true
    | rules base rs => exact ih.node_nil_iff
    | broken => exact iff_of_true rfl rfl

end Unseal
