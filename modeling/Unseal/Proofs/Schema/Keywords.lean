import Unseal.Proofs.Members
import Unseal.Schema.Document

/-!
# Keywords and rules

The rule that a keyword of a node gives depends on its own value and on the few keywords that go
with it. Only two keywords give rules on the members that the others leave.
-/

set_option autoImplicit false

namespace Unseal

/-- Rules on the members that other rules leave. -/
def Rule.onRest : Rule → Bool
  | .additional _ => true
  | .unevaluatedProperties _ => true
  | _ => false

def Schema.onRest (keyword : String) : Bool :=
  keyword == "additionalProperties" || keyword == "unevaluatedProperties"

namespace Schema

variable {base : Uri} {ms ms' : Members Json} {keyword : String} {v : Json}

def partOf (base : Uri) (keyword : String) (v : Json) : Part :=
  match formOf keyword with
  | .one => .one (ofJson base v)
  | .many =>
    match v with
    | .arr vs => .many (listOf base vs)
    | _ => .other
  | .named =>
    match v with
    | .obj ms => .named (membersOf base ms)
    | _ => .other
  | .other => .other

theorem lookup_partsOf (base : Uri) (keyword : String) (ms : Members Json) :
    (partsOf base ms).lookup keyword = (Members.find? keyword ms).map (partOf base keyword) := by
  induction ms with
  | nil => rfl
  | cons m ms ih =>
    obtain ⟨k, v⟩ := m
    have hparts : partsOf base ((k, v) :: ms) = (k, partOf base k v) :: partsOf base ms := by
      rw [partsOf.eq_def]
      rfl
    rw [hparts, List.lookup_cons, Members.find?, ih]
    by_cases hk : keyword = k
    · subst hk
      simp
    · simp [Ne.symm hk, beq_false_of_ne hk]

def ruleOf (base : Uri) (ms : Members Json) (keyword : String) (v : Json) : Option Rule :=
  match (Members.find? keyword ms).map (partOf base keyword) with
  | some (.one s) => ruleOfOne ms (partsOf base ms) keyword v s
  | some (.many ss) => ruleOfMany keyword ss
  | some (.named ss) => ruleOfNamed keyword v ss
  | _ => (ruleOfValue base keyword v).or (ruleOfOther keyword v)

theorem assemble_eq_filterMap (base : Uri) (ms : Members Json) :
    assemble base ms (partsOf base ms) = ms.filterMap fun m => ruleOf base ms m.1 m.2 := by
  simp only [assemble, lookup_partsOf]
  rfl

theorem ruleOf_additionalProperties {x : Json}
    (h : Members.find? "additionalProperties" ms = some x) :
    ruleOf base ms "additionalProperties" v = some (.additional (ofJson base x)) := by
  rw [ruleOf, h]
  rfl

theorem ruleOf_unevaluatedProperties {x : Json}
    (h : Members.find? "unevaluatedProperties" ms = some x) :
    ruleOf base ms "unevaluatedProperties" v = some (.unevaluatedProperties (ofJson base x)) := by
  rw [ruleOf, h]
  rfl

/-- Keywords on the rest do not matter to other keywords. -/
theorem ruleOf_congr (h : ∀ k, onRest k = false → Members.find? k ms' = Members.find? k ms)
    (hk : onRest keyword = false) : ruleOf base ms' keyword v = ruleOf base ms keyword v := by
  have hfind := h keyword hk
  have hlookup : ∀ k, onRest k = false →
      (partsOf base ms').lookup k = (partsOf base ms).lookup k := by
    intro k hk
    rw [lookup_partsOf, lookup_partsOf, h k hk]
  have hone : ∀ s, ruleOfOne ms' (partsOf base ms') keyword v s =
      ruleOfOne ms (partsOf base ms) keyword v s := by
    intro s
    simp only [ruleOfOne, containsLimit, firstItemCount, partOne, h "minContains" (by decide),
      h "maxContains" (by decide), h "prefixItems" (by decide), hlookup "then" (by decide),
      hlookup "else" (by decide)]
  simp only [ruleOf, hfind, hone]

/-! ## Other keywords -/

theorem onRest_map {α : Type} {e : Except SchemaFault α} {f : α → Rule}
    (h : ∀ x, (f x).onRest = false) : (ruleOrBroken (e.map f)).onRest = false := by
  cases e with
  | error f => rfl
  | ok x => exact h x

theorem onRest_withNumber {f : Number → Rule} (h : ∀ n, (f n).onRest = false) :
    (withNumber v f).onRest = false := by
  cases v with
  | num n => exact h n
  | _ => rfl

theorem onRest_withArray {f : List Json → Except SchemaFault Rule}
    (h : ∀ vs, (ruleOrBroken (f vs)).onRest = false) : (withArray v f).onRest = false := by
  cases v with
  | arr vs => exact h vs
  | _ => rfl

variable {r : Rule}

theorem onRest_ruleOfOne {parts : List (String × Part)} {s : Schema}
    (hk : onRest keyword = false) (h : ruleOfOne ms parts keyword v s = some r) :
    r.onRest = false := by
  unfold ruleOfOne at h
  split at h
  · cases hk
  · cases h
    cases containsLimit "minContains" ms with
    | error f => rfl
    | ok least => cases containsLimit "maxContains" ms <;> rfl
  · cases h; rfl
  · cases h; rfl
  · cases h; rfl
  · cases h; rfl
  · cases h; rfl
  · cases hk
  · cases h

theorem onRest_ruleOfMany {ss : List Schema} (h : ruleOfMany keyword ss = some r) :
    r.onRest = false := by
  unfold ruleOfMany at h
  split at h
  all_goals cases h
  all_goals rfl

theorem onRest_ruleOfNamed {ss : List (String × Schema)}
    (h : ruleOfNamed keyword v ss = some r) : r.onRest = false := by
  unfold ruleOfNamed at h
  split at h
  · cases h; rfl
  · cases h; rfl
  · cases h; exact onRest_map fun _ => rfl
  · cases h; exact onRest_map fun _ => rfl
  · cases h

theorem onRest_ruleOfValue (h : ruleOfValue base keyword v = some r) : r.onRest = false := by
  have hlink : (ruleOfValue.link base v keyword).onRest = false := by
    unfold ruleOfValue.link
    split
    · exact onRest_map fun _ => rfl
    · rfl
  unfold ruleOfValue at h
  split at h
  all_goals try cases h
  -- One line for each way in which keywords read their values.
  all_goals first
    | rfl
    | exact hlink
    | exact onRest_map fun _ => rfl
    | exact onRest_withNumber fun _ => rfl
    | exact onRest_withArray fun _ => rfl
    | exact onRest_withArray fun _ => onRest_map fun _ => rfl
    | (split <;> first | rfl | exact onRest_map fun _ => rfl)
    | (split at h <;> cases h; rfl)

theorem onRest_ruleOfOther (h : ruleOfOther keyword v = some r) : r.onRest = false := by
  unfold ruleOfOther at h
  split at h
  all_goals cases h
  all_goals rfl

theorem onRest_ruleOf (hk : onRest keyword = false) (h : ruleOf base ms keyword v = some r) :
    r.onRest = false := by
  rw [ruleOf] at h
  split at h
  · exact onRest_ruleOfOne hk h
  · exact onRest_ruleOfMany h
  · exact onRest_ruleOfNamed h
  · rcases Option.or_eq_some_iff.mp h with h | ⟨_, h⟩
    · exact onRest_ruleOfValue h
    · exact onRest_ruleOfOther h

/-- Whether a rule is on the rest can be seen from its keyword. -/
theorem onRest_eq (hm : (keyword, v) ∈ ms) (h : ruleOf base ms keyword v = some r) :
    r.onRest = onRest keyword := by
  cases hk : onRest keyword with
  | false => exact onRest_ruleOf hk h
  | true =>
    obtain ⟨x, hx⟩ := Option.isSome_iff_exists.mp (Members.find?_isSome_of_mem hm)
    simp only [onRest, Bool.or_eq_true, beq_iff_eq] at hk
    rcases hk with rfl | rfl
    · rw [ruleOf_additionalProperties hx] at h
      cases h
      rfl
    · rw [ruleOf_unevaluatedProperties hx] at h
      cases h
      rfl

end Schema
end Unseal
