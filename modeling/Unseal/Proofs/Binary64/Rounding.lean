import Mathlib.Tactic.Linarith
import Mathlib.Tactic.Ring
import Mathlib.Tactic.Positivity
import Unseal.Binary64.Basic

/-!
# Rounding stays in range

A quotient is rounded to a finite double unless it is half a unit in the last place or more
above the greatest one. Rounding a quotient of at least one moves it by one part in `2^53` at the
most, so a significand of 64 bits and a power of ten multiply without overflow as long as the exact
product stays a little below that bound.
-/

set_option autoImplicit false

namespace Unseal.Binary64

/-- A significand of 53 bits and a scale that has not overflowed. -/
def Finite (x : Binary64) : Prop := x.significand < 2 * normal ∧ x.scale ≤ 2045

instance (x : Binary64) : Decidable x.Finite :=
  inferInstanceAs (Decidable (x.significand < 2 * normal ∧ x.scale ≤ 2045))

/-- Twice the least magnitude that overflows. -/
def overflow : Nat := (4 * normal - 1) * 2 ^ 2045

theorem sizes : 2 ^ 53 ≤ unit ∧ unit < 10 ^ 400 ∧ 24 * (2 ^ 64 * unit) < overflow ∧
    2 * (10 ^ 308 * unit) < overflow ∧ overflow < 2 * (10 ^ 309 * unit) ∧
    (ofInt 0).isZero := by
  decide +kernel

theorem unit_pos : 0 < unit := Nat.lt_of_lt_of_le (by decide) sizes.1

theorem normal_eq : normal = 2 ^ 52 := rfl

theorem magnitude_eq (x : Binary64) : x.magnitude = x.significand * 2 ^ x.scale :=
  Nat.shiftLeft_eq ..

/-! ## One rounding -/

theorem roundDiv_le (num den : Nat) : 2 * (den * roundDiv num den) ≤ 2 * num + den := by
  have hdiv := Nat.div_add_mod num den
  have hsucc : den * (num / den + 1) = den * (num / den) + den := Nat.mul_succ ..
  unfold roundDiv
  dsimp only
  split
  · omega
  split
  · omega
  split <;> omega

theorem div_le_roundDiv (num den : Nat) : num / den ≤ roundDiv num den := by
  unfold roundDiv
  dsimp only
  repeat' split
  all_goals omega

theorem lt_scaleFor (num den : Nat) : num / den < 2 ^ (scaleFor num den + 53) := by
  unfold scaleFor
  dsimp only
  split
  next h => rw [h]; positivity
  next h =>
    exact Nat.lt_of_lt_of_le Nat.lt_log2_self (Nat.pow_le_pow_right (by decide) (by omega))

theorem scaleFor_le {num den : Nat} (h : 0 < scaleFor num den) :
    2 ^ (scaleFor num den + 52) ≤ num / den := by
  unfold scaleFor at h ⊢
  dsimp only at h ⊢
  split at h
  · omega
  next hq =>
    rw [if_neg hq]
    exact Nat.le_trans (Nat.pow_le_pow_right (by decide) (by omega)) (Nat.log2_self_le hq)

/-! ## Quotients -/

section
variable {negative : Bool} {num den : Nat} {x : Binary64}

def place (num den : Nat) : Nat := scaleFor (num * unit) den

/-- The significand of a quotient, before a carry. -/
def rounded (num den : Nat) : Nat := roundDiv (num * unit) (den <<< place num den)

theorem rounded_le (num den : Nat) :
    2 * (den * 2 ^ place num den * rounded num den) ≤
      2 * (num * unit) + den * 2 ^ place num den := by
  rw [rounded, Nat.shiftLeft_eq]
  exact roundDiv_le _ _

theorem lt_of_place (num : Nat) (hden : 0 < den) :
    num * unit < den * 2 ^ (place num den + 53) := by
  rw [Nat.mul_comm den]
  exact (Nat.div_lt_iff_lt_mul hden).mp (lt_scaleFor (num * unit) den)

theorem le_of_place (h : 0 < place num den) : den * 2 ^ (place num den + 52) ≤ num * unit :=
  (Nat.mul_le_mul_left den (scaleFor_le h)).trans (Nat.mul_div_le (num * unit) den)

theorem rounded_le_normal (num : Nat) (hden : 0 < den) : rounded num den ≤ 2 * normal := by
  have hround := rounded_le num den
  have hplace := lt_of_place num hden
  have hgrain : 0 < den * 2 ^ place num den := by positivity
  rw [pow_add, ← Nat.mul_assoc] at hplace
  generalize den * 2 ^ place num den = grain at *
  refine Nat.le_of_lt_succ (Nat.lt_of_mul_lt_mul_left (a := grain) ?_)
  rw [normal_eq]
  omega

def nearest (negative : Bool) (num den : Nat) : Binary64 :=
  if rounded num den = 2 * normal then ⟨negative, normal, place num den + 1⟩
  else ⟨negative, rounded num den, place num den⟩

theorem ofRatio_eq (negative : Bool) (num den : Nat) : ofRatio negative num den =
    if (nearest negative num den).scale ≤ 2045 then some (nearest negative num den) else none := rfl

theorem nearest_magnitude (negative : Bool) (num den : Nat) :
    (nearest negative num den).magnitude = rounded num den * 2 ^ place num den := by
  unfold nearest
  split
  next hcarry =>
    rw [magnitude_eq, hcarry, pow_succ]
    ring
  next => exact magnitude_eq _

theorem nearest_significand_lt (negative : Bool) (hden : 0 < den) :
    (nearest negative num den).significand < 2 * normal := by
  have hle := rounded_le_normal num hden
  unfold nearest
  split
  next => exact (by decide : normal < 2 * normal)
  next hne => exact Nat.lt_of_le_of_ne hle hne

theorem ofRatio_eq_some (h : ofRatio negative num den = some x) :
    x = nearest negative num den ∧ x.scale ≤ 2045 := by
  rw [ofRatio_eq] at h
  split at h
  next hscale =>
    cases h
    exact ⟨rfl,hscale⟩
  next => cases h

theorem ofRatio_finite (hden : 0 < den) (h : ofRatio negative num den = some x) : x.Finite := by
  obtain ⟨rfl, hscale⟩ := ofRatio_eq_some h
  exact ⟨nearest_significand_lt negative hden,hscale⟩

theorem mul_magnitude_eq (h : ofRatio negative num den = some x) :
    den * x.magnitude = den * 2 ^ place num den * rounded num den := by
  obtain ⟨rfl, -⟩ := ofRatio_eq_some h
  rw [nearest_magnitude]
  ring

theorem two_mul_magnitude_le (hx : ofRatio negative num den = some x) :
    2 * (den * x.magnitude) ≤ 3 * (num * unit) + den := by
  have hround := rounded_le num den
  rw [mul_magnitude_eq hx]
  cases hplace : place num den with
  | zero =>
    rw [hplace, pow_zero, Nat.mul_one] at hround
    rw [pow_zero, Nat.mul_one]
    omega
  | succ k =>
    have hlow := le_of_place (show 0 < place num den by omega)
    have hgrain : den * 2 ^ place num den ≤ den * 2 ^ (place num den + 52) :=
      Nat.mul_le_mul_left den (Nat.pow_le_pow_right (by decide) (Nat.le_add_right ..))
    rw [← hplace]
    omega

theorem two_pow_mul_le {a b c : Nat} (h : a + b ≤ c) : 2 ^ a * 2 ^ b ≤ 2 ^ c := by
  rw [← pow_add]
  exact Nat.pow_le_pow_right (by decide) h

theorem place_le (h : 2 * (num * unit) < den * overflow) : place num den ≤ 2045 := by
  by_contra hlarge
  have hlow := le_of_place (show 0 < place num den by omega)
  have hmul := Nat.mul_le_mul_left den
    (two_pow_mul_le (a := 2045) (b := 53) (c := place num den + 52) (by omega))
  rw [overflow, normal_eq] at h
  generalize 2 ^ 2045 = grain at *
  have hcomm : den * (grain * 2 ^ 53) = 2 ^ 53 * (den * grain) := by ring
  have hcomm' : den * ((4 * 2 ^ 52 - 1) * grain) = (4 * 2 ^ 52 - 1) * (den * grain) := by ring
  omega

/-- A quotient has a double if it is less than half a unit in the last place above the greatest. -/
theorem ofRatio_isSome (negative : Bool) (h : 2 * (num * unit) < den * overflow) :
    ∃ x, ofRatio negative num den = some x := by
  have hplace := place_le h
  refine ⟨nearest negative num den,(ofRatio_eq ..).trans (if_pos ?_)⟩
  unfold nearest
  split
  next hcarry =>
    -- A carry at the last scale would have rounded the bound itself up.
    refine Nat.lt_of_le_of_ne hplace fun hlast => ?_
    have hround := rounded_le num den
    rw [overflow] at h
    rw [hcarry, hlast, normal_eq] at hround
    rw [normal_eq] at h
    generalize 2 ^ 2045 = grain at *
    have hcomm : den * ((4 * 2 ^ 52 - 1) * grain) = (4 * 2 ^ 52 - 1) * (den * grain) := by ring
    omega
  next => exact hplace

/-! ## Quotients of at least one -/

theorem place_pos (hden : 0 < den) (h : den ≤ num) : 0 < place num den := by
  by_contra hzero
  have hlow := lt_of_place num hden
  rw [Nat.eq_zero_of_not_pos hzero] at hlow
  exact Nat.lt_irrefl _ (hlow.trans_le (Nat.mul_le_mul h sizes.1))

theorem place_le_quotient (hden : 0 < den) (h : den ≤ num) :
    normal * (den * 2 ^ place num den) ≤ num * unit := by
  rw [normal_eq]
  calc 2 ^ 52 * (den * 2 ^ place num den) = den * 2 ^ (place num den + 52) := by ring
    _ ≤ num * unit := le_of_place (place_pos hden h)

theorem magnitude_le_of_ofRatio (hden : 0 < den) (h : den ≤ num)
    (hx : ofRatio negative num den = some x) :
    2 * normal * (den * x.magnitude) ≤ (2 * normal + 1) * (num * unit) := by
  have hlast := place_le_quotient hden h
  have hround := rounded_le num den
  rw [mul_magnitude_eq hx]
  rw [normal_eq] at hlast ⊢
  omega

theorem le_magnitude_of_ofRatio (hden : 0 < den) (h : den ≤ num)
    (hx : ofRatio negative num den = some x) : num * unit ≤ 2 * (den * x.magnitude) := by
  have hlast := place_le_quotient hden h
  have hgrain : 0 < den * 2 ^ place num den := by positivity
  -- The quotient by the last bit is at least one, so its floor is more than half of it.
  have hround : num * unit / (den * 2 ^ place num den) ≤ rounded num den := by
    rw [rounded, Nat.shiftLeft_eq]
    exact div_le_roundDiv _ _
  have hnext := Nat.lt_mul_div_succ (num * unit) hgrain
  have hmul := Nat.mul_le_mul_left (den * 2 ^ place num den) hround
  have hfirst : den * 2 ^ place num den ≤
      den * 2 ^ place num den * (num * unit / (den * 2 ^ place num den)) :=
    Nat.le_mul_of_pos_right _ (Nat.div_pos ((Nat.le_mul_of_pos_left _ (by decide)).trans hlast)
      hgrain)
  rw [mul_magnitude_eq hx]
  rw [Nat.mul_add, Nat.mul_one] at hnext
  omega

end

/-! ## Integers and powers of ten -/

theorem ofRatio_one (negative : Bool) {n : Nat} (hn : 0 < n) (h : 2 * (n * unit) < overflow) :
    ∃ x, ofRatio negative n 1 = some x ∧
      2 * normal * x.magnitude ≤ (2 * normal + 1) * (n * unit) ∧
      n * unit ≤ 2 * x.magnitude := by
  have hone : 2 * (n * unit) < 1 * overflow := by rwa [Nat.one_mul]
  obtain ⟨x, hx⟩ := ofRatio_isSome negative hone
  have hhigh := magnitude_le_of_ofRatio Nat.one_pos hn hx
  have hlow := le_magnitude_of_ofRatio Nat.one_pos hn hx
  rw [Nat.one_mul] at hhigh hlow
  exact ⟨x,hx,hhigh,hlow⟩

theorem pow_lt_overflow {e : Nat} (h : e ≤ 308) : 2 * (10 ^ e * unit) < overflow := by
  obtain ⟨-, -, -, hmax, -⟩ := sizes
  have hpow : 10 ^ e ≤ 10 ^ 308 := pow_le_pow_right₀ (by decide) h
  exact (Nat.mul_le_mul_left 2 (Nat.mul_le_mul_right unit hpow)).trans_lt hmax

theorem pow10_bounds {e : Nat} (h : e ≤ 308) :
    2 * normal * (pow10 e).magnitude ≤ (2 * normal + 1) * (10 ^ e * unit) ∧
      10 ^ e * unit ≤ 2 * (pow10 e).magnitude := by
  obtain ⟨x, hx, hbounds⟩ := ofRatio_one false (Nat.pow_pos (by decide)) (pow_lt_overflow h)
  have hpow10 : pow10 e = x := congrArg (Option.getD · _) hx
  rwa [hpow10]

theorem ofInt_bound {d : Nat} (hd : 0 < d) (h : d < 2 ^ 64) :
    2 * normal * (ofInt d).magnitude ≤ (2 * normal + 1) * (d * unit) := by
  obtain ⟨-, -, hmax, -⟩ := sizes
  have hsmall : 2 * (d * unit) < overflow :=
    (Nat.mul_le_mul (by decide) (Nat.mul_le_mul_right unit h.le)).trans_lt hmax
  obtain ⟨x, hx, hbound, -⟩ := ofRatio_one (decide ((d : Int) < 0)) hd hsmall
  have hint : ofInt d = x := congrArg (Option.getD · _) hx
  rwa [hint]

theorem ofInt_small {d : Nat} (hd : 0 < d) (h : d < 2 ^ 64) :
    12 * (ofInt d).magnitude < overflow := by
  obtain ⟨-, -, hmax, -⟩ := sizes
  have hunit : d * unit ≤ 2 ^ 64 * unit := Nat.mul_le_mul_right unit h.le
  have hx := ofInt_bound hd h
  rw [normal_eq] at hx
  omega

/-! ## Decimals -/

theorem mul_pow10 {x : Binary64} {e d : Nat} (he : e ≤ 308)
    (hx : 2 * normal * x.magnitude ≤ (2 * normal + 1) * (d * unit))
    (h : (2 * normal + 1) ^ 2 * (2 * (d * 10 ^ e * unit)) < (2 * normal) ^ 2 * overflow) :
    ∃ y, mul x (pow10 e) = some y := by
  have hpow := (pow10_bounds he).1
  apply ofRatio_isSome
  have hprod := Nat.mul_le_mul hx hpow
  generalize (pow10 e).magnitude = p at *
  have hbound : (2 * normal) ^ 2 * (2 * (x.magnitude * p * unit)) <
      (2 * normal) ^ 2 * (unit * unit * overflow) :=
    calc (2 * normal) ^ 2 * (2 * (x.magnitude * p * unit))
        = 2 * unit * (2 * normal * x.magnitude * (2 * normal * p)) := by ring
      _ ≤ 2 * unit * ((2 * normal + 1) * (d * unit) * ((2 * normal + 1) * (10 ^ e * unit))) :=
        Nat.mul_le_mul_left _ hprod
      _ = unit * unit * ((2 * normal + 1) ^ 2 * (2 * (d * 10 ^ e * unit))) := by ring
      _ < unit * unit * ((2 * normal) ^ 2 * overflow) :=
        Nat.mul_lt_mul_of_pos_left h (Nat.mul_pos unit_pos unit_pos)
      _ = (2 * normal) ^ 2 * (unit * unit * overflow) := by ring
  exact Nat.lt_of_mul_lt_mul_left hbound

theorem unit_le_pow10 {e : Nat} (h : e ≤ 308) : unit ≤ 2 * (pow10 e).magnitude :=
  (Nat.le_mul_of_pos_left unit (Nat.pow_pos (by decide))).trans (pow10_bounds h).2

theorem pow10_pos {e : Nat} (h : e ≤ 308) : 0 < (pow10 e).magnitude := by
  have hunit := unit_pos.trans_le (unit_le_pow10 h)
  omega

theorem isZero_iff (x : Binary64) : x.isZero ↔ x.magnitude = 0 := by
  rw [magnitude_eq, isZero, beq_iff_eq]
  simp

/-- Dividing by a power of ten does not overflow. The quotient is at most three times the dividend,
so it can be divided again. -/
theorem div_pow10 {x : Binary64} {e : Nat} (he : e ≤ 308) (hx : 4 * x.magnitude < overflow) :
    ∃ y, div x (pow10 e) = some y ∧ y.magnitude ≤ 3 * x.magnitude := by
  have hpos := pow10_pos he
  have hunit := unit_le_pow10 he
  have hzero : ¬(pow10 e).isZero := by
    rw [isZero_iff]
    omega
  have hsmall : 2 * (x.magnitude * unit) < (pow10 e).magnitude * overflow :=
    calc 2 * (x.magnitude * unit) ≤ 2 * (x.magnitude * (2 * (pow10 e).magnitude)) :=
        Nat.mul_le_mul_left 2 (Nat.mul_le_mul_left _ hunit)
      _ = (pow10 e).magnitude * (4 * x.magnitude) := by ring
      _ < (pow10 e).magnitude * overflow := Nat.mul_lt_mul_of_pos_left hx hpos
  obtain ⟨y, hy⟩ := ofRatio_isSome (x.negative != (pow10 e).negative) hsmall
  refine ⟨y,?_,?_⟩
  · rw [div, if_neg hzero]
    exact hy
  · have hquotient := two_mul_magnitude_le hy
    have hnum := Nat.mul_le_mul_left x.magnitude hunit
    refine Nat.lt_add_one_iff.mp (Nat.lt_of_mul_lt_mul_left (a := (pow10 e).magnitude) ?_)
    have hcomm : x.magnitude * (2 * (pow10 e).magnitude) =
        2 * ((pow10 e).magnitude * x.magnitude) := by ring
    have hsucc : (pow10 e).magnitude * (3 * x.magnitude + 1) =
        3 * ((pow10 e).magnitude * x.magnitude) + (pow10 e).magnitude := by ring
    omega

/-- A significand of 64 bits is scaled without overflow if the exact product, enlarged by two
roundings, stays below the least magnitude that overflows. -/
theorem scaleDecimal_isSome {d : Nat} {e : Int} (hd : d < 2 ^ 64) (he : e ≤ 308)
    (h : 0 ≤ e →
      (2 * normal + 1) ^ 2 * (2 * (d * 10 ^ e.toNat * unit)) < (2 * normal) ^ 2 * overflow) :
    ∃ y, scaleDecimal (ofInt d) e = some y := by
  unfold scaleDecimal
  dsimp only
  split
  · exact ⟨_,rfl⟩
  next hzero =>
    have hpos : 0 < d := by
      refine Nat.pos_of_ne_zero fun hd => hzero ?_
      rw [hd]
      exact sizes.2.2.2.2.2
    have hsmall := ofInt_small hpos hd
    split
    next hsign =>
      have habs : e.natAbs = e.toNat := by omega
      rw [if_pos (by omega), habs]
      exact mul_pow10 (by omega) (ofInt_bound hpos hd) (h hsign)
    next =>
      split
      next hnear =>
        obtain ⟨y, hy, -⟩ := div_pow10 hnear (x := ofInt d) (by omega)
        exact ⟨y,hy⟩
      next =>
        obtain ⟨y, hy, hle⟩ := div_pow10 (e := 308) (Nat.le_refl _) (x := ofInt d) (by omega)
        rw [hy, Option.bind_some]
        split
        · exact ⟨y,rfl⟩
        split
        next hfar =>
          obtain ⟨z, hz, -⟩ := div_pow10 hfar (x := y) (by omega)
          exact ⟨z,hz⟩
        next => exact ⟨_,rfl⟩

/-! ## Results are finite -/

theorem zero_finite (negative : Bool) : (zero negative).Finite :=
  ⟨(by decide : 0 < 2 * normal),Nat.zero_le _⟩

theorem ofInt_finite (n : Int) : (ofInt n).Finite := by
  rw [ofInt]
  cases h : ofRatio (decide (n < 0)) n.natAbs 1 with
  | none => exact zero_finite false
  | some x => exact ofRatio_finite Nat.one_pos h

theorem mul_finite {x y z : Binary64} (h : mul x y = some z) : z.Finite :=
  ofRatio_finite (Nat.mul_pos unit_pos unit_pos) h

theorem div_finite {x y z : Binary64} (h : div x y = some z) : z.Finite := by
  unfold div at h
  split at h
  · cases h
  next hy =>
    refine ofRatio_finite (Nat.pos_of_ne_zero fun hzero => hy ?_) h
    exact (isZero_iff y).mpr hzero

theorem scaleDecimal_finite {x y : Binary64} {e : Int} (hx : x.Finite)
    (h : scaleDecimal x e = some y) : y.Finite := by
  unfold scaleDecimal at h
  dsimp only at h
  split at h
  · cases h
    exact hx
  split at h
  · split at h
    · exact mul_finite h
    · cases h
  split at h
  · exact div_finite h
  obtain ⟨z, hz, h⟩ := Option.bind_eq_some_iff.mp h
  split at h
  · cases h
    exact div_finite hz
  split at h
  · exact div_finite h
  · cases h
    exact zero_finite _

end Unseal.Binary64
