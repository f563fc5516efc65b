import Unseal.Proofs.Schema.Naming
import Unseal.Schema.Judgement

/-!
# Shared schemas

What a rule says about a value depends only on what the judgement says about the schemas in the
rule and about the target of its reference. So two libraries judge a schema alike as long as no
reference on the way from it leads to different schemas.
-/

set_option autoImplicit false

namespace Unseal

def Rule.parts : Rule → List Schema
  | .contains s _ _ => [s]
  | .firstItems ss => ss
  | .items _ s => [s]
  | .properties ps => ps.map (·.2)
  | .patterns ps => ps.map (·.2)
  | .additional s => [s]
  | .names s => [s]
  | .dependentSchemas ds => ds.map (·.2)
  | .dependencies ds => ds.map (·.2.2)
  | .allOf ss => ss
  | .anyOf ss => ss
  | .oneOf ss => ss
  | .negation _ s => [s]
  | .conditional test positive negative => test :: (positive.toList ++ negative.toList)
  | .unevaluatedItems s => [s]
  | .unevaluatedProperties s => [s]
  | _ => []

namespace Judgement

structure Alike (j j' : Judgement) (scope : List Uri) (s : Schema) : Prop where
  passes : ∀ v, j.passes scope s v = j'.passes scope s v
  sees : ∀ whole spot, j.sees scope s whole spot = j'.sees scope s whole spot

/-- Two judgements say the same about all that a rule asks them. -/
structure AlikeOn (j j' : Judgement) (links links' : Links) (scope : List Uri) (r : Rule) :
    Prop where
  parts : ∀ s ∈ r.parts, j.Alike j' scope s
  target : ∀ keyword t, r = .link keyword t →
    links' scope t = links scope t ∧ j.Alike j' scope (links scope t)

variable {j j' : Judgement} {links links' : Links} {scope : List Uri} {rs rs' : List Rule}
  {r : Rule}

theorem any_congr_mem {α : Type} {f g : α → Bool} {l : List α} (h : ∀ x ∈ l, f x = g x) :
    l.any f = l.any g := by
  induction l with
  | nil => rfl
  | cons x l ih =>
    obtain ⟨hx, hl⟩ := List.forall_mem_cons.mp h
    rw [List.any_cons, List.any_cons, hx, ih hl]

theorem all_congr_mem {α : Type} {f g : α → Bool} {l : List α} (h : ∀ x ∈ l, f x = g x) :
    l.all f = l.all g := by
  induction l with
  | nil => rfl
  | cons x l ih =>
    obtain ⟨hx, hl⟩ := List.forall_mem_cons.mp h
    rw [List.all_cons, List.all_cons, hx, ih hl]

theorem option_any_congr {α : Type} {f g : α → Bool} {o : Option α} (h : ∀ x ∈ o, f x = g x) :
    o.any f = o.any g := by
  cases o with
  | none => rfl
  | some x => exact h x rfl

theorem option_all_congr {α : Type} {f g : α → Bool} {o : Option α} (h : ∀ x ∈ o, f x = g x) :
    o.all f = o.all g := by
  cases o with
  | none => rfl
  | some x => exact h x rfl

theorem branches_alike {test : Schema} {positive negative : Option Schema}
    (h : ∀ s ∈ (Rule.conditional test positive negative).parts, j.Alike j' scope s) :
    j.Alike j' scope test ∧ (∀ s ∈ positive, j.Alike j' scope s) ∧
      ∀ s ∈ negative, j.Alike j' scope s := by
  simpa [Rule.parts, or_imp, forall_and] using h

theorem any_sees_congr {ss : List Schema} (h : ∀ s ∈ ss, j.Alike j' scope s) (whole : Json)
    (spot : Spot) :
    (ss.any fun s => j.sees scope s whole spot) = ss.any fun s => j'.sees scope s whole spot :=
  any_congr_mem fun s hs => (h s hs).sees whole spot

theorem ruleSees_congr (h : AlikeOn j j' links links' scope r) (whole : Json) (spot : Spot) :
    j.ruleSees links scope whole spot r = j'.ruleSees links' scope whole spot r := by
  cases r with
  | link keyword t =>
    obtain ⟨htarget, halike⟩ := h.target keyword t rfl
    simp only [ruleSees, htarget, halike.sees]
  | properties ps =>
    cases spot with
    | member key x =>
      apply any_congr_mem
      intro s hs
      obtain ⟨p, hp, -, rfl⟩ := Schema.mem_withKey.mp hs
      exact (h.parts p.2 (List.mem_map_of_mem hp)).passes x
    | item => rfl
  | additional s =>
    cases spot with
    | member key x => exact (h.parts s (List.mem_singleton.mpr rfl)).passes x
    | item => rfl
  | unevaluatedProperties s =>
    cases spot with
    | member key x => exact (h.parts s (List.mem_singleton.mpr rfl)).passes x
    | item => rfl
  | dependentSchemas ds =>
    cases whole with
    | obj ms =>
      apply any_congr_mem
      intro d hd
      rw [(h.parts d.2 (List.mem_map_of_mem hd)).sees]
    | _ => rfl
  | contains s least most =>
    cases spot with
    | member => rfl
    | item i x => exact (h.parts s (List.mem_singleton.mpr rfl)).passes x
  | unevaluatedItems s =>
    cases spot with
    | member => rfl
    | item i x => exact (h.parts s (List.mem_singleton.mpr rfl)).passes x
  | conditional test positive negative =>
    obtain ⟨htest, hpositive, hnegative⟩ := branches_alike h.parts
    simp only [ruleSees, htest.passes, htest.sees,
      option_any_congr fun s hs => (hpositive s hs).sees whole spot,
      option_any_congr fun s hs => (hnegative s hs).sees whole spot]
  | allOf ss =>
    have hpasses : ∀ s ∈ ss, (!s.isNode || j.passes scope s whole) =
        (!s.isNode || j'.passes scope s whole) := fun s hs => by rw [(h.parts s hs).passes]
    have hparts : ∀ s ∈ ss, j.Alike j' scope s := h.parts
    simp only [ruleSees, all_congr_mem hpasses, any_sees_congr hparts]
  | anyOf ss =>
    have hpasses : ∀ s ∈ ss, (s.isNode && j.passes scope s whole) =
        (s.isNode && j'.passes scope s whole) := fun s hs => by rw [(h.parts s hs).passes]
    have hparts : ∀ s ∈ ss, j.Alike j' scope s := h.parts
    simp only [ruleSees, any_congr_mem hpasses, any_sees_congr hparts]
  | oneOf ss =>
    have hpasses : ∀ s ∈ ss, (s.isNode && j.passes scope s whole) =
        (s.isNode && j'.passes scope s whole) := fun s hs => by rw [(h.parts s hs).passes]
    simp only [ruleSees, List.filter_congr hpasses]
    split
    next s hone =>
      have hs : s ∈ ss := List.mem_of_mem_filter (hone ▸ List.mem_singleton.mpr rfl)
      exact (h.parts s hs).sees whole spot
    next => rfl
  | _ =>
    cases spot with
    | member => rfl
    | item => rfl

theorem nodeSees_congr (h : ∀ r ∈ rs, AlikeOn j j' links links' scope r) (whole : Json)
    (spot : Spot) :
    j.nodeSees links scope rs whole spot = j'.nodeSees links' scope rs whole spot :=
  any_congr_mem fun r hr => ruleSees_congr (h r hr) whole spot

/-- Two nodes leave the same parts of values to a rule on the rest of them. -/
structure SameRest (j j' : Judgement) (links links' : Links) (scope : List Uri)
    (rs rs' : List Rule) (r : Rule) : Prop where
  additional : ∀ s, r = .additional s → ∀ key, Rule.leaves rs key = Rule.leaves rs' key
  items : ∀ whole i x, j.nodeSees links scope rs whole (.item i x) =
    j'.nodeSees links' scope rs' whole (.item i x)
  members : ∀ s, r = .unevaluatedProperties s → ∀ whole key x,
    j.nodeSees links scope rs whole (.member key x) =
      j'.nodeSees links' scope rs' whole (.member key x)

theorem rulePasses_congr (h : AlikeOn j j' links links' scope r)
    (hrest : SameRest j j' links links' scope rs rs' r) (v : Json) :
    j.rulePasses links scope rs r v = j'.rulePasses links' scope rs' r v := by
  cases r with
  | link keyword t =>
    obtain ⟨htarget, halike⟩ := h.target keyword t rfl
    simp only [rulePasses, htarget, halike.passes]
  | contains s least most =>
    cases v with
    | arr vs =>
      have hcount : j.matchCount scope s vs = j'.matchCount scope s vs :=
        List.countP_congr fun x _ => by rw [(h.parts s (List.mem_singleton.mpr rfl)).passes]
      simp only [rulePasses, hcount]
    | _ => rfl
  | firstItems ss =>
    cases v with
    | arr vs => exact all_congr_mem fun p hp => (h.parts p.1 (List.of_mem_zip hp).1).passes p.2
    | _ => rfl
  | items skip s =>
    cases v with
    | arr vs => exact all_congr_mem fun x _ => (h.parts s (List.mem_singleton.mpr rfl)).passes x
    | _ => rfl
  | properties ps =>
    cases v with
    | obj ms =>
      apply all_congr_mem
      intro m hm
      apply all_congr_mem
      intro s hs
      obtain ⟨p, hp, -, rfl⟩ := Schema.mem_withKey.mp hs
      exact (h.parts p.2 (List.mem_map_of_mem hp)).passes m.2
    | _ => rfl
  | patterns ps =>
    cases v with
    | obj ms =>
      apply all_congr_mem
      intro m hm
      apply all_congr_mem
      intro p hp
      rw [(h.parts p.2 (List.mem_map_of_mem hp)).passes]
    | _ => rfl
  | additional s =>
    cases v with
    | obj ms =>
      apply all_congr_mem
      intro m hm
      rw [hrest.additional s rfl, (h.parts s (List.mem_singleton.mpr rfl)).passes]
    | _ => rfl
  | names s =>
    cases v with
    | obj ms => exact all_congr_mem fun m _ => (h.parts s (List.mem_singleton.mpr rfl)).passes _
    | _ => rfl
  | dependentSchemas ds =>
    cases v with
    | obj ms =>
      apply all_congr_mem
      intro d hd
      rw [(h.parts d.2 (List.mem_map_of_mem hd)).passes]
    | _ => rfl
  | dependencies ds =>
    cases v with
    | obj ms =>
      apply all_congr_mem
      intro d hd
      rw [(h.parts d.2.2 (List.mem_map_of_mem hd)).passes]
    | _ => rfl
  | allOf ss => exact all_congr_mem fun s hs => (h.parts s hs).passes v
  | anyOf ss => exact any_congr_mem fun s hs => (h.parts s hs).passes v
  | oneOf ss =>
    have hcount : ss.countP (fun s => j.passes scope s v) =
        ss.countP fun s => j'.passes scope s v :=
      List.countP_congr fun s hs => by rw [(h.parts s hs).passes]
    simp only [rulePasses, hcount]
  | negation source s =>
    simp only [rulePasses, (h.parts s (List.mem_singleton.mpr rfl)).passes]
  | conditional test positive negative =>
    obtain ⟨htest, hpositive, hnegative⟩ := branches_alike h.parts
    simp only [rulePasses, htest.passes,
      option_all_congr fun s hs => (hpositive s hs).passes v,
      option_all_congr fun s hs => (hnegative s hs).passes v]
  | unevaluatedItems s =>
    cases v with
    | arr vs => simp only [rulePasses, hrest.items]
    | _ => rfl
  | unevaluatedProperties s =>
    cases v with
    | obj ms => simp only [rulePasses, hrest.members s rfl]
    | _ => rfl
  | _ => cases v <;> rfl

end Judgement

/-! ## Libraries -/

/-- What judging a schema comes to: the schemas in it and the targets of its references, with the
bases of the documents on the way to them. -/
inductive Schema.Reached (links : Links) (start : Schema) : List Uri → Schema → Prop
  | start : Reached links start [] start
  | part {scope : List Uri} {base : Uri} {rs : List Rule} {r : Rule} {s : Schema} :
      Reached links start scope (.rules base rs) → r ∈ rs → s ∈ r.parts →
      Reached links start (enter base scope) s
  | target {scope : List Uri} {base : Uri} {rs : List Rule} {keyword : String} {t : Reference} :
      Reached links start scope (.rules base rs) → .link keyword t ∈ rs →
      Reached links start (enter base scope) (links (enter base scope) t)

/-- Every reference that is come to leads to the same schema. -/
def Schema.LeadsAlike (links links' : Links) (start : Schema) : Prop :=
  ∀ scope base rs keyword t, Reached links start scope (.rules base rs) →
    .link keyword t ∈ rs → links' (enter base scope) t = links (enter base scope) t

namespace Judgement

variable {j j' : Judgement} {links links' : Links} {start : Schema}

theorem alikeOn_of_reached (h : Schema.LeadsAlike links links' start)
    (halike : ∀ {scope s}, Schema.Reached links start scope s → j.Alike j' scope s)
    {scope : List Uri} {base : Uri} {rs : List Rule}
    (hs : Schema.Reached links start scope (.rules base rs)) {r : Rule} (hr : r ∈ rs) :
    AlikeOn j j' links links' (enter base scope) r := by
  constructor
  · intro s hpart
    exact halike (.part hs hr hpart)
  · rintro keyword t rfl
    exact ⟨h scope base rs keyword t hs hr,halike (.target hs hr)⟩

theorem ofDepth_alike (h : Schema.LeadsAlike links links' start) (n : Nat) {scope : List Uri}
    {s : Schema} (hs : Schema.Reached links start scope s) :
    (ofDepth links n).Alike (ofDepth links' n) scope s := by
  induction n generalizing scope s with
  | zero => exact ⟨fun _ => rfl,fun _ _ => rfl⟩
  | succ n ih =>
    cases s with
    | always => exact ⟨fun _ => rfl,fun _ _ => rfl⟩
    | broken => exact ⟨fun _ => rfl,fun _ _ => rfl⟩
    | rules base rs =>
      -- A node is judged by its rules, one schema less deep.
      have hrules : ∀ r ∈ rs, AlikeOn (ofDepth links n) (ofDepth links' n) links links'
          (enter base scope) r := fun r hr => alikeOn_of_reached h ih hs hr
      have hsees := nodeSees_congr hrules
      constructor
      · intro v
        apply all_congr_mem
        intro r hr
        exact rulePasses_congr (hrules r hr) ⟨fun _ _ _ => rfl,fun whole i x => hsees whole _,
          fun _ _ whole key x => hsees whole _⟩ v
      · exact hsees

end Judgement
end Unseal
