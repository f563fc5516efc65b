import Unseal.Record.Value
import Unseal.Proofs.Members
import Unseal.Proofs.Traversal

/-!
# The order of members does not matter

A record is filled member by member. Two members change places without effect: they fill
different fields, or no field, or one of them is a duplicate in either order.
-/

set_option autoImplicit false

namespace Unseal

namespace Fields

def answers (key : String) : Fields → Bool
  | .nil => false
  | .cons k _ rest => k.answers key || rest.answers key

/-- `put`, where a member that no field answers to changes nothing. -/
def fill (m : String × Json) : (fs : Fields) → fs.Slots → Except Mismatch fs.Slots
  | .nil, slots => .ok slots
  | .cons k s rest, (slot, slots) =>
    if k.answers m.1 then
      match slot with
      | some _ => .error (.duplicate k.name)
      | none => (s.ofJson m.2).map (some ·, slots)
    else (rest.fill m slots).map (slot, ·)

def absorb (strict : Bool) (fs : Fields) (slots : fs.Slots) (m : String × Json) :
    Except Mismatch fs.Slots := do
  match ← fs.put m.1 m.2 slots with
  | some slots => .ok slots
  | none => if strict then .error (.unknown m.1 fs.names) else .ok slots

section Cons

variable {k : Key} {s : Shape} {rest : Fields} {slots : rest.Slots} {m : String × Json}

theorem put_cons {key : String} {v : Json} {slot : Option s.Carrier} :
    put key v (.cons k s rest) (slot, slots) =
      if k.answers key then
        match slot with
        | some _ => .error (.duplicate k.name)
        | none => do
          let x ← s.ofJson v
          .ok (some (some x, slots))
      else (do
        match ← rest.put key v slots with
        | some slots => .ok (some (slot, slots))
        | none => .ok none) := rfl

theorem fill_answered (h : k.answers m.1 = true) :
    fill m (.cons k s rest) (none, slots) = (s.ofJson m.2).map (some ·, slots) := by
  show (if k.answers m.1 then _ else _) = _
  rw [if_pos h]
  rfl

theorem fill_duplicate {x : s.Carrier} (h : k.answers m.1 = true) :
    fill m (.cons k s rest) (some x, slots) = .error (.duplicate k.name) := by
  show (if k.answers m.1 then _ else _) = _
  rw [if_pos h]

theorem fill_rest {slot : Option s.Carrier} (h : k.answers m.1 = false) :
    fill m (.cons k s rest) (slot, slots) = (rest.fill m slots).map (slot, ·) := by
  show (if k.answers m.1 then _ else _) = _
  rw [if_neg (by simp [h])]
  rfl

end Cons

theorem put_eq (key : String) (v : Json) : (fs : Fields) → (slots : fs.Slots) →
    fs.put key v slots =
      if fs.answers key then (fs.fill (key, v) slots).map some else .ok none
  | .nil, slots => rfl
  | .cons k s rest, (slot, slots) => by
    rw [put_cons, answers]
    cases hk : k.answers key with
    | true =>
      cases slot with
      | some x => simp [fill_duplicate (m := (key, v)) hk, Except.map]
      | none =>
        rw [fill_answered (m := (key, v)) hk]
        cases hs : s.ofJson v <;> simp [bind, Except.bind, Except.map]
    | false =>
      rw [put_eq key v rest slots, fill_rest (m := (key, v)) hk]
      cases hr : rest.answers key with
      | true => cases hf : rest.fill (key, v) slots <;> simp [bind, Except.bind, Except.map]
      | false => simp [bind, Except.bind]

theorem fill_of_not_answers {m : String × Json} : (fs : Fields) → (slots : fs.Slots) →
    fs.answers m.1 = false → fs.fill m slots = .ok slots
  | .nil, _, _ => rfl
  | .cons k s rest, (slot, slots), h => by
    obtain ⟨hk, hr⟩ : k.answers m.1 = false ∧ rest.answers m.1 = false := by
      simpa [answers] using h
    rw [fill_rest hk, fill_of_not_answers rest slots hr]
    rfl

theorem absorb_ok_iff {strict : Bool} {fs : Fields} {slots r : fs.Slots} {m : String × Json} :
    absorb strict fs slots m = .ok r ↔
      (strict → fs.answers m.1) ∧ fs.fill m slots = .ok r := by
  rw [absorb, put_eq]
  cases ha : fs.answers m.1 with
  | true => cases hf : fs.fill m slots <;> simp [bind, Except.bind, Except.map]
  | false => cases strict <;> simp [fill_of_not_answers fs slots ha, bind, Except.bind]

theorem fill_cons_ok_iff {k : Key} {s : Shape} {rest : Fields} {m : String × Json}
    {slot r : Option s.Carrier} {slots rs : rest.Slots} :
    fill m (.cons k s rest) (slot, slots) = .ok (r, rs) ↔
      if k.answers m.1 then slot = none ∧ rs = slots ∧ ∃ x, s.ofJson m.2 = .ok x ∧ r = some x
      else r = slot ∧ rest.fill m slots = .ok rs := by
  cases hk : k.answers m.1 with
  | true =>
    cases slot with
    | some x => simp [fill_duplicate hk]
    | none =>
      rw [fill_answered hk, if_pos rfl]
      cases s.ofJson m.2 with
      | error e => simp [Except.map]
      | ok x =>
        constructor
        · rintro ⟨⟩
          exact ⟨rfl,rfl,x,rfl,rfl⟩
        · intro h
          obtain ⟨-, rfl, y, ⟨⟩, rfl⟩ := h
          rfl
  | false =>
    rw [fill_rest hk, if_neg (by simp)]
    cases rest.fill m slots with
    | error e => simp [Except.map]
    | ok ns =>
      constructor
      · rintro ⟨⟩
        exact ⟨rfl,rfl⟩
      · intro h
        obtain ⟨rfl, ⟨⟩⟩ := h
        rfl

theorem fill_comm {a b : String × Json} : (fs : Fields) → {slots r : fs.Slots} →
    (fs.fill a slots >>= fs.fill b) = .ok r → (fs.fill b slots >>= fs.fill a) = .ok r
  | .nil, _, _, h => h
  | .cons k s rest, (slot, slots), (r, rs), h => by
    obtain ⟨⟨mid, mids⟩, ha, hb⟩ := Traversal.bind_ok_iff.mp h
    rw [fill_cons_ok_iff] at ha hb
    apply Traversal.bind_ok_iff.mpr
    cases hka : k.answers a.1 <;> cases hkb : k.answers b.1 <;>
      simp only [hka, hkb, if_true, if_false, Bool.false_eq_true] at ha hb
    -- neither, the second, the first, or both fill this field
    · obtain ⟨ns, hfb, hfa⟩ :=
        Traversal.bind_ok_iff.mp (fill_comm rest (Traversal.bind_ok_iff.mpr ⟨mids,ha.2,hb.2⟩))
      exact ⟨(slot, ns),fill_cons_ok_iff.mpr (by simp [hkb, hfb]),
        fill_cons_ok_iff.mpr (by simp [hka, hfa, ha.1, hb.1])⟩
    · obtain ⟨rfl, hfa⟩ := ha
      obtain ⟨rfl, rfl, x, hx, rfl⟩ := hb
      exact ⟨(some x, slots),fill_cons_ok_iff.mpr (by simp [hkb, hx]),
        fill_cons_ok_iff.mpr (by simp [hka, hfa])⟩
    · obtain ⟨rfl, rfl, x, hx, rfl⟩ := ha
      obtain ⟨rfl, hfb⟩ := hb
      exact ⟨(none, rs),fill_cons_ok_iff.mpr (by simp [hkb, hfb]),
        fill_cons_ok_iff.mpr (by simp [hka, hx])⟩
    · obtain ⟨-, -, x, -, rfl⟩ := ha
      cases hb.1

theorem absorb_comm {strict : Bool} {fs : Fields} {slots r : fs.Slots} {a b : String × Json}
    (h : (absorb strict fs slots a >>= (absorb strict fs · b)) = .ok r) :
    (absorb strict fs slots b >>= (absorb strict fs · a)) = .ok r := by
  simp only [Traversal.bind_ok_iff, absorb_ok_iff] at h ⊢
  obtain ⟨mid, ⟨hsa, ha⟩, hsb, hb⟩ := h
  obtain ⟨ns, hb', ha'⟩ :=
    Traversal.bind_ok_iff.mp (fill_comm fs (Traversal.bind_ok_iff.mpr ⟨mid,ha,hb⟩))
  exact ⟨ns,⟨hsb,hb'⟩,hsa,ha'⟩

/-- A record takes its members in any order. -/
theorem absorb_perm {strict : Bool} {fs : Fields} {slots r : fs.Slots}
    {ms ns : List (String × Json)} (h : ms.Perm ns) :
    ms.foldlM (absorb strict fs) slots = .ok r ↔ ns.foldlM (absorb strict fs) slots = .ok r :=
  ⟨Traversal.foldlM_ok_of_perm absorb_comm h,Traversal.foldlM_ok_of_perm absorb_comm h.symm⟩

end Fields
end Unseal
