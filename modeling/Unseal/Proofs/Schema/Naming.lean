import Mathlib.Data.List.Basic
import Unseal.Schema.Basic

/-!
# Named members

Which schemas a node has for a key, in terms of its rules, and when it leaves the key to the rule
on additional members.
-/

set_option autoImplicit false

namespace Unseal

/-- Whether a schema has a rule of its own for a key, by its name or by a pattern. -/
def Schema.names (key : String) : Schema → Bool
  | .rules _ rs => !Rule.leaves rs key
  | _ => false

theorem Schema.mem_withKey {s : Schema} {key : String} {ps : List (String × Schema)} :
    s ∈ Schema.withKey key ps ↔ ∃ p ∈ ps, p.1 = key ∧ p.2 = s := by
  simp only [Schema.withKey, List.mem_filterMap, Option.ite_none_right_eq_some, Option.some.injEq]

namespace Rule

variable {rs : List Rule} {s : Schema}

theorem mem_named {key : String} :
    s ∈ named rs key ↔ ∃ ps, .properties ps ∈ rs ∧ s ∈ Schema.withKey key ps := by
  simp only [named, List.mem_flatMap]
  constructor
  · rintro ⟨r, hr, hs⟩
    cases r with
    | properties ps => exact ⟨ps, hr, hs⟩
    | _ => cases hs
  · rintro ⟨ps, hr, hs⟩
    exact ⟨_, hr, hs⟩

theorem mem_matching {key : String} {p : Pattern × Schema} :
    p ∈ matching rs key ↔
      ∃ ps, .patterns ps ∈ rs ∧ p ∈ ps.filter fun p => p.1.matches key := by
  simp only [matching, List.mem_flatMap]
  constructor
  · rintro ⟨r, hr, hp⟩
    cases r with
    | patterns ps => exact ⟨ps, hr, hp⟩
    | _ => cases hp
  · rintro ⟨ps, hr, hp⟩
    exact ⟨_, hr, hp⟩

theorem nothing_named (hn : namesMembers rs = false) (key : String) :
    named rs key = [] ∧ matching rs key = [] := by
  have naming (r : Rule) (hr : r ∈ rs) := List.any_eq_false.mp hn r hr
  refine ⟨List.eq_nil_iff_forall_not_mem.mpr fun s hs => ?_,
    List.eq_nil_iff_forall_not_mem.mpr fun p hp => ?_⟩
  · obtain ⟨ps, hps, -⟩ := mem_named.mp hs
    exact naming _ hps rfl
  · obtain ⟨ps, hps, -⟩ := mem_matching.mp hp
    exact naming _ hps rfl

theorem isClosed_iff :
    isClosed rs = true ↔ ∃ s, .additional s ∈ rs ∧ s.restricts = true := by
  simp only [isClosed, List.any_eq_true]
  constructor
  · rintro ⟨r, hr, hs⟩
    cases r with
    | additional s => exact ⟨s, hr, hs⟩
    | _ => cases hs
  · rintro ⟨s, hr, hs⟩
    exact ⟨_, hr, hs⟩

end Rule
end Unseal
