import Mathlib.Algebra.Order.Field.Power
import Mathlib.Algebra.Order.Field.Rat
import Mathlib.Tactic.FieldSimp
import Mathlib.Tactic.GCongr
import Mathlib.Tactic.NormNum
import Unseal.Binary64.Shortest
import Unseal.Proofs.Binary64.Rounding

/-!
# Shortest digits lie in the interval

The grids are tried from the coarsest to one finer than the interval of the double, so one of them
has a point inside. The digits that are written are the digits of such a point.
-/

set_option autoImplicit false

namespace Unseal.Binary64

variable {x : Binary64}

/-- `d * 10^t`, in quarters of `2^-1074`. -/
def quarters (d : Nat) (t : Int) : ℚ := d * 10 ^ t * (4 * unit)

/-! ## Points of the interval -/

theorem inside_iff (d : Nat) (t : Int) : x.inside d t ↔
    if x.significand % 2 = 0 then (x.interval.1 : ℚ) ≤ quarters d t ∧ quarters d t ≤ x.interval.2
    else (x.interval.1 : ℚ) < quarters d t ∧ quarters d t < x.interval.2 := by
  -- The program multiplies both sides by `10^|t|` where `t` is negative.
  have hscaled : ∃ p s : Nat, 0 < s ∧ quarters d t = p / s ∧ x.inside d t =
      if x.significand % 2 = 0 then decide (x.interval.1 * s ≤ p) && decide (p ≤ x.interval.2 * s)
      else decide (x.interval.1 * s < p) && decide (p < x.interval.2 * s) := by
    unfold inside quarters
    by_cases ht : 0 ≤ t
    · refine ⟨d * 10 ^ t.toNat * (4 * unit),1,Nat.one_pos,?_,by simp only [ht, if_true]; rfl⟩
      lift t to ℕ using ht
      simp
    · refine ⟨d * (4 * unit),10 ^ t.natAbs,by positivity,?_,by simp only [ht, if_false]; rfl⟩
      obtain ⟨n, rfl⟩ : ∃ n : ℕ, t = -n := ⟨t.natAbs,by omega⟩
      simp
      field_simp
  obtain ⟨p, s, hs, hquarters, hinside⟩ := hscaled
  have hs' : (0 : ℚ) < s := Nat.cast_pos.mpr hs
  rw [hinside, hquarters]
  split
  · rw [le_div_iff₀ hs', div_le_iff₀ hs']
    norm_cast
    simp
  · rw [lt_div_iff₀ hs', div_lt_iff₀ hs']
    norm_cast
    simp

theorem pos_of_not_isZero (h : x.isZero = false) : 0 < x.significand := by
  simpa [isZero, Nat.pos_iff_ne_zero] using h

theorem grain_le_magnitude (h : x.isZero = false) : 2 ^ x.scale ≤ x.magnitude := by
  rw [magnitude_eq]
  exact Nat.le_mul_of_pos_left _ (pos_of_not_isZero h)

theorem interval_fst_le (h : x.isZero = false) : x.interval.1 + 2 ^ x.scale ≤ 4 * x.magnitude := by
  have hgrain := grain_le_magnitude h
  simp only [interval, Nat.shiftLeft_eq]
  split <;> omega

theorem interval_snd_eq (x : Binary64) : x.interval.2 = 4 * x.magnitude + 2 * 2 ^ x.scale := by
  simp only [interval, Nat.shiftLeft_eq]

theorem le_of_inside {d : Nat} {t : Int} (h : x.inside d t) :
    quarters d t ≤ 4 * x.magnitude + 2 * 2 ^ x.scale := by
  have hle : quarters d t ≤ x.interval.2 := by
    have hinside := (inside_iff d t).mp h
    split at hinside
    · exact hinside.2
    · exact hinside.2.le
  rw [interval_snd_eq] at hle
  exact_mod_cast hle

theorem inside_of_lt {d : Nat} {t : Int} (hx : x.isZero = false)
    (hlow : 4 * x.magnitude < quarters d t + 2 ^ x.scale) (hhigh : quarters d t ≤ 4 * x.magnitude) :
    x.inside d t := by
  have hfst : (x.interval.1 : ℚ) + 2 ^ x.scale ≤ 4 * x.magnitude := by
    exact_mod_cast interval_fst_le hx
  have hsnd : (x.interval.2 : ℚ) = 4 * x.magnitude + 2 * 2 ^ x.scale := by
    exact_mod_cast interval_snd_eq x
  have hgrain : (0 : ℚ) < 2 ^ x.scale := by positivity
  rw [inside_iff]
  split <;> constructor <;> linarith

/-! ## Points of a grid -/

theorem quarters_add (d : Nat) (t : Int) :
    quarters (d + 1) t = quarters d t + quarters 1 t := by
  simp only [quarters]
  push_cast
  ring

theorem neighbours_bounds (x : Binary64) (t : Int) :
    quarters (neighbours x.magnitude unit t) t ≤ 4 * x.magnitude ∧
      4 * x.magnitude < quarters (neighbours x.magnitude unit t + 1) t := by
  have hscaled : ∃ (num den : Nat) (c : ℚ), 0 < c ∧ 0 < den ∧
      neighbours x.magnitude unit t = num / den ∧ (x.magnitude : ℚ) = num * c ∧
      (10 : ℚ) ^ t * unit = den * c := by
    unfold neighbours
    by_cases ht : 0 ≤ t
    · refine ⟨x.magnitude,unit * 10 ^ t.toNat,1,one_pos,Nat.mul_pos unit_pos (by positivity),
        by simp only [ht, if_true]; rfl,by simp,?_⟩
      lift t to ℕ using ht
      simp [mul_comm]
    · refine ⟨x.magnitude * 10 ^ t.natAbs,unit,(10 ^ t.natAbs)⁻¹,by positivity,unit_pos,
        by simp only [ht, if_false]; rfl,by simp,?_⟩
      obtain ⟨n, rfl⟩ : ∃ n : ℕ, t = -n := ⟨t.natAbs,by omega⟩
      simp [mul_comm]
  obtain ⟨num, den, c, hc, hden, hneighbours, hvalue, hgrid⟩ := hscaled
  have hle : (den : ℚ) * (num / den : ℕ) ≤ num := by exact_mod_cast Nat.mul_div_le num den
  have hlt : (num : ℚ) < den * ((num / den : ℕ) + 1) := by
    exact_mod_cast Nat.lt_mul_div_succ num hden
  have hquarters : ∀ d : Nat, quarters d t = 4 * (den * d * c) := by
    intro d
    calc quarters d t = 4 * d * (10 ^ t * unit) := by rw [quarters]; ring
      _ = 4 * (den * d * c) := by rw [hgrid]; ring
  rw [hneighbours, hquarters, hquarters, hvalue]
  push_cast
  constructor
  · linarith [mul_le_mul_of_nonneg_right hle hc.le]
  · linarith [mul_lt_mul_of_pos_right hlt hc]

theorem inside_of_onGrid {t : Int} {d : Nat} (h : x.onGrid t = some d) : x.inside d t := by
  unfold onGrid at h
  dsimp only at h
  split at h
  next hlow hhigh =>
    split at h
    · cases h; exact hlow
    split at h
    · cases h; exact hhigh
    split at h
    · cases h; exact hlow
    · cases h; exact hhigh
  next hlow _ => cases h; exact hlow
  next _ hhigh => cases h; exact hhigh
  next => cases h

theorem onGrid_fine {t : Int} (hx : x.isZero = false) (h : quarters 1 t ≤ 2 ^ x.scale) :
    ∃ d, d ≠ 0 ∧ x.onGrid t = some d := by
  obtain ⟨hlow, hhigh⟩ := neighbours_bounds x t
  have hgrain : (2 : ℚ) ^ x.scale ≤ x.magnitude := by exact_mod_cast grain_le_magnitude hx
  have hpos : (0 : ℚ) < 2 ^ x.scale := by positivity
  have hadd := quarters_add (neighbours x.magnitude unit t) t
  have hinside : x.inside (neighbours x.magnitude unit t) t :=
    inside_of_lt hx (by linarith) hlow
  have hne : neighbours x.magnitude unit t ≠ 0 := by
    intro hzero
    have hquarters : quarters 0 t = 0 := by simp [quarters]
    rw [hzero] at hadd hhigh
    linarith
  unfold onGrid
  dsimp only
  rw [hinside]
  split
  next =>
    split
    · exact ⟨_,hne,rfl⟩
    split
    · exact ⟨_,Nat.succ_ne_zero _,rfl⟩
    split
    · exact ⟨_,hne,rfl⟩
    · exact ⟨_,Nat.succ_ne_zero _,rfl⟩
  next => exact ⟨_,hne,rfl⟩
  next h _ => cases h
  next h _ => cases h

theorem firstGrid_eq_some {top : Int} {fuel n d : Nat} {t : Int}
    (h : x.firstGrid top fuel n = some (d, t)) :
    d ≠ 0 ∧ x.onGrid t = some d ∧ top - (n + fuel : Nat) < t := by
  induction fuel generalizing n with
  | zero => cases h
  | succ fuel ih =>
    unfold firstGrid at h
    split at h
    next d' hgrid =>
      split at h
      next hzero =>
        obtain ⟨hne, hhit, hlow⟩ := ih h
        exact ⟨hne,hhit,by omega⟩
      next hne =>
        cases h
        exact ⟨hne,hgrid,by omega⟩
    next =>
      obtain ⟨hne, hhit, hlow⟩ := ih h
      exact ⟨hne,hhit,by omega⟩

theorem firstGrid_isSome {top : Int} {fuel n i : Nat} (hi : i < fuel)
    (h : ∃ d, d ≠ 0 ∧ x.onGrid (top - (n + i : Nat)) = some d) :
    ∃ d t, x.firstGrid top fuel n = some (d, t) := by
  induction fuel generalizing n i with
  | zero => exact absurd hi (Nat.not_lt_zero i)
  | succ fuel ih =>
    have hnext : i ≠ 0 → ∃ d t, x.firstGrid top fuel (n + 1) = some (d, t) := by
      intro hi0
      refine ih (i := i - 1) (by omega) ?_
      rwa [show n + 1 + (i - 1) = n + i by omega]
    unfold firstGrid
    split
    next d' hgrid =>
      split
      next hzero =>
        refine hnext ?_
        rintro rfl
        obtain ⟨d, hd, hhit⟩ := h
        rw [Nat.add_zero, hgrid, hzero] at hhit
        exact hd (Option.some.inj hhit).symm
      next => exact ⟨_,_,rfl⟩
    next hgrid =>
      refine hnext ?_
      rintro rfl
      obtain ⟨d, -, hhit⟩ := h
      rw [Nat.add_zero, hgrid] at hhit
      cases hhit

/-! ## The number of digits before the point -/

theorem length_digitsOf (n : Nat) : (digitsOf n).length = (Nat.toDigits 10 n).length :=
  List.length_map ..

theorem lt_pow_length (n : Nat) : n < 10 ^ (digitsOf n).length := by
  rw [length_digitsOf]
  exact (Nat.length_toDigits_le_iff (by decide) Nat.length_toDigits_pos).mp (Nat.le_refl _)

theorem pow_length_le {n : Nat} (h : n ≠ 0) : 10 ^ ((digitsOf n).length - 1) ≤ n := by
  rw [length_digitsOf]
  have hpos : 0 < (Nat.toDigits 10 n).length := Nat.length_toDigits_pos
  by_cases hone : (Nat.toDigits 10 n).length = 1
  · rw [hone]
    exact Nat.pos_of_ne_zero h
  · by_contra hlt
    have hle := (Nat.length_toDigits_le_iff (b := 10) (by decide) (by omega)).mpr
      (Nat.lt_of_not_le hlt)
    omega

theorem magnitude10_bounds (h : x.isZero = false) :
    (10 : ℚ) ^ (x.magnitude10 - 1) * unit ≤ x.magnitude ∧
      (x.magnitude : ℚ) ≤ 10 ^ x.magnitude10 * unit := by
  have hpos : 0 < x.magnitude := (Nat.two_pow_pos _).trans_le (grain_le_magnitude h)
  unfold magnitude10
  dsimp only
  split
  next hq =>
    have hlen : 0 < (digitsOf (x.magnitude / unit)).length := by
      rw [length_digitsOf]
      exact Nat.length_toDigits_pos
    have hlow := Nat.mul_le_mul_right unit (pow_length_le hq.ne')
    have hhigh := Nat.mul_le_mul_right unit (lt_pow_length (x.magnitude / unit))
    have hfloor := Nat.div_mul_le_self x.magnitude unit
    have hceil := Nat.lt_div_mul_add (a := x.magnitude) unit_pos
    rw [Nat.succ_mul] at hhigh
    obtain ⟨n, hn⟩ := Nat.exists_eq_succ_of_ne_zero hlen.ne'
    rw [hn] at hlow hhigh ⊢
    have hexp : ((n.succ : ℕ) : ℤ) - 1 = (n : ℕ) := by push_cast; omega
    rw [hexp, zpow_natCast, zpow_natCast]
    constructor
    · exact_mod_cast hlow.trans hfloor
    · exact_mod_cast (hceil.trans_le hhigh).le
  next hq =>
    have hlt : x.magnitude < unit := Nat.lt_of_div_eq_zero unit_pos (Nat.eq_zero_of_not_pos hq)
    have hr : unit / x.magnitude ≠ 0 := (Nat.div_pos hlt.le hpos).ne'
    have hlen : 0 < (digitsOf (unit / x.magnitude)).length := by
      rw [length_digitsOf]
      exact Nat.length_toDigits_pos
    have hlow := Nat.mul_le_mul_right x.magnitude (pow_length_le hr)
    have hhigh := Nat.mul_le_mul_right x.magnitude (lt_pow_length (unit / x.magnitude))
    have hfloor := Nat.div_mul_le_self unit x.magnitude
    have hceil := Nat.lt_div_mul_add (a := unit) hpos
    rw [Nat.succ_mul] at hhigh
    obtain ⟨n, hn⟩ := Nat.exists_eq_succ_of_ne_zero hlen.ne'
    rw [hn] at hlow hhigh ⊢
    have hexp : (1 - ((n.succ : ℕ) : ℤ)) - 1 = -((n.succ : ℕ) : ℤ) := by omega
    have hexp' : 1 - ((n.succ : ℕ) : ℤ) = -((n : ℕ) : ℤ) := by push_cast; omega
    rw [hexp, hexp', zpow_neg, zpow_neg, zpow_natCast, zpow_natCast]
    constructor
    · rw [inv_mul_le_iff₀ (by positivity)]
      exact_mod_cast (hceil.trans_le hhigh).le
    · rw [le_inv_mul_iff₀ (by positivity)]
      exact_mod_cast hlow.trans hfloor

theorem magnitude_lt (h : x.Finite) : x.magnitude < 2 * normal * 2 ^ x.scale := by
  rw [magnitude_eq]
  exact Nat.mul_lt_mul_of_pos_right h.1 (Nat.two_pow_pos _)

theorem quarters_last (hx : x.Finite) (h : x.isZero = false) :
    quarters 1 (x.magnitude10 + 1 - (0 + 20 : Nat)) ≤ 2 ^ x.scale := by
  have hlow := (magnitude10_bounds h).1
  have hlt : (x.magnitude : ℚ) < 2 * normal * 2 ^ x.scale := by exact_mod_cast magnitude_lt hx
  have hexp : x.magnitude10 + 1 - (0 + 20 : Nat) = x.magnitude10 - 1 + (-18) := by omega
  rw [quarters, hexp, zpow_add₀ (by norm_num)]
  have hnormal : (normal : ℚ) = 2 ^ 52 := by exact_mod_cast normal_eq
  rw [hnormal] at hlt
  have hgrain : (0 : ℚ) < 2 ^ x.scale := by positivity
  generalize (10 : ℚ) ^ (x.magnitude10 - 1) = low at *
  calc ((1 : ℕ) : ℚ) * (low * 10 ^ (-18 : ℤ)) * (4 * unit) = low * unit * (4 / 10 ^ 18) := by
        norm_num
        ring
    _ ≤ 2 * 2 ^ 52 * 2 ^ x.scale * (4 / 10 ^ 18) :=
        mul_le_mul_of_nonneg_right (hlow.trans hlt.le) (by norm_num)
    _ ≤ 2 ^ x.scale := by linarith

theorem dropZeros_append (ds : List Nat) : ∃ k, ds = dropZeros ds ++ List.replicate k 0 := by
  have hzeros : ∀ d ∈ ds.reverse.takeWhile (· == 0), d = 0 := fun d hd =>
    beq_iff_eq.mp (List.all_eq_true.mp List.all_takeWhile d hd)
  have hsplit : (ds.reverse.takeWhile (· == 0) ++ ds.reverse.dropWhile (· == 0)).reverse = ds := by
    rw [List.takeWhile_append_dropWhile, List.reverse_reverse]
  refine ⟨(ds.reverse.takeWhile (· == 0)).length,?_⟩
  rw [List.reverse_append, List.eq_replicate_of_mem hzeros, List.reverse_replicate] at hsplit
  exact hsplit.symm

/-- The digits that are written are those of a point inside, without the zeros at its end. -/
theorem shortest_spec (hx : x.Finite) (h : x.isZero = false) :
    ∃ (d k : Nat) (t : Int), d ≠ 0 ∧ x.inside d t ∧ x.magnitude10 - 20 < t ∧
      digitsOf d = x.shortest.digits ++ List.replicate k 0 ∧
      x.shortest.point = x.shortest.digits.length + (k + t) := by
  obtain ⟨d, t, hgrid⟩ : ∃ d t, x.firstGrid (x.magnitude10 + 1) 21 0 = some (d, t) :=
    firstGrid_isSome (by decide) (onGrid_fine h (quarters_last hx h))
  obtain ⟨hne, hhit, hlow⟩ := firstGrid_eq_some hgrid
  obtain ⟨k, hk⟩ := dropZeros_append (digitsOf d)
  have hshortest : x.shortest = ⟨dropZeros (digitsOf d), (digitsOf d).length + t⟩ := by
    rw [shortest, hgrid]
  refine ⟨d,k,t,hne,inside_of_onGrid hhit,by omega,by rw [hshortest, ← hk],?_⟩
  have hlength := congrArg List.length hk
  rw [List.length_append, List.length_replicate] at hlength
  rw [hshortest]
  dsimp only
  omega

/-! ## Bounds -/

theorem lt_of_inside {d : Nat} {t : Int} (h : x.isZero = false) (hd : x.inside d t)
    (ht : x.magnitude10 - 20 < t) : d < 2 ^ 64 := by
  have hle := le_of_inside hd
  have hgrain : (2 : ℚ) ^ x.scale ≤ x.magnitude := by exact_mod_cast grain_le_magnitude h
  have hhigh := (magnitude10_bounds h).2
  have hunit : (0 : ℚ) < unit := Nat.cast_pos.mpr unit_pos
  -- A point inside is at most one and a half times the value.
  have hpow : (10 : ℚ) ^ x.magnitude10 ≤ 10 ^ t * 10 ^ 19 := by
    rw [← zpow_natCast (10 : ℚ) 19, ← zpow_add₀ (by norm_num)]
    exact zpow_le_zpow_right₀ (by norm_num) (by omega)
  have hgrid : (0 : ℚ) < 10 ^ t * (4 * unit) :=
    mul_pos (zpow_pos (by norm_num) t) (mul_pos (by norm_num) hunit)
  have hscaled := mul_le_mul_of_nonneg_right hpow hunit.le
  have hbound : (d : ℚ) * (10 ^ t * (4 * unit)) ≤ 3 / 2 * 10 ^ 19 * (10 ^ t * (4 * unit)) :=
    calc (d : ℚ) * (10 ^ t * (4 * unit)) = quarters d t := by rw [quarters]; ring
      _ ≤ 6 * (10 ^ t * 10 ^ 19 * unit) := by linarith only [hle, hgrain, hhigh, hscaled]
      _ = 3 / 2 * 10 ^ 19 * (10 ^ t * (4 * unit)) := by ring
  have hd' := le_of_mul_le_mul_right hbound hgrid
  have hlt : (d : ℚ) < (2 ^ 64 : ℕ) := hd'.trans_lt (by norm_num)
  exact_mod_cast hlt

theorem quarters_shift (d k : Nat) (t : Int) : quarters (d * 10 ^ k) t = quarters d (k + t) := by
  rw [quarters, quarters, zpow_add₀ (by norm_num), zpow_natCast]
  push_cast
  ring

theorem two_mul_le_of_quarters {d n : Nat}
    (h : quarters d n ≤ 4 * x.magnitude + 2 * 2 ^ x.scale) :
    2 * (d * 10 ^ n * unit) ≤ (2 * x.significand + 1) * 2 ^ x.scale := by
  rw [quarters, zpow_natCast, magnitude_eq] at h
  have hnat : d * 10 ^ n * (4 * unit) ≤ 4 * (x.significand * 2 ^ x.scale) + 2 * 2 ^ x.scale := by
    exact_mod_cast h
  linarith only [hnat]

theorem le_overflow (hx : x.Finite) : (2 * x.significand + 1) * 2 ^ x.scale ≤ overflow := by
  have hlast : 2 * x.significand + 1 ≤ 4 * normal - 1 := by
    have hs := hx.1
    omega
  exact Nat.mul_le_mul hlast (pow_le_pow_right₀ (by decide) hx.2)

theorem exponent_le {d n : Nat} (hx : x.Finite) (hd : d ≠ 0)
    (h : quarters d n ≤ 4 * x.magnitude + 2 * 2 ^ x.scale) : n ≤ 308 := by
  by_contra hn
  obtain ⟨-, -, -, -, hmax, -⟩ := sizes
  have hpow : 10 ^ 309 ≤ 10 ^ n := pow_le_pow_right₀ (by decide) (by omega)
  have hpoint : 10 ^ n * unit ≤ d * 10 ^ n * unit :=
    Nat.mul_le_mul_right unit (Nat.le_mul_of_pos_left _ (Nat.pos_of_ne_zero hd))
  have hle := (two_mul_le_of_quarters h).trans (le_overflow hx)
  have hscaled := Nat.mul_le_mul_right unit hpow
  omega

theorem lt_magnitude10 (h : x.isZero = false) : -400 < x.magnitude10 := by
  unfold magnitude10
  dsimp only
  split
  · omega
  · have hpos : 0 < x.magnitude := (Nat.two_pow_pos _).trans_le (grain_le_magnitude h)
    obtain ⟨-, hmax, -⟩ := sizes
    have hlen := (Nat.length_toDigits_le_iff (b := 10) (by decide) (by decide)).mpr
      ((Nat.div_le_self unit x.magnitude).trans_lt hmax)
    rw [length_digitsOf]
    omega

/-- Not one of the two greatest magnitudes, whose digits are too near the bound for what two
roundings may add to any digits. -/
def Below (x : Binary64) : Prop := x.scale = 2045 → x.significand + 3 ≤ 2 * normal

theorem enlarged_lt_overflow (hx : x.Finite) (hbelow : x.Below) :
    (2 * normal + 1) ^ 2 * ((2 * x.significand + 1) * 2 ^ x.scale) <
      (2 * normal) ^ 2 * overflow := by
  rw [overflow]
  by_cases hscale : x.scale = 2045
  · have hlast : 2 * x.significand + 1 ≤ 4 * normal - 5 := by
      have hs := hbelow hscale
      omega
    have hpos : 0 < 2 ^ x.scale := Nat.two_pow_pos _
    rw [hscale] at hpos ⊢
    generalize 2 ^ 2045 = grain at *
    calc (2 * normal + 1) ^ 2 * ((2 * x.significand + 1) * grain)
        ≤ (2 * normal + 1) ^ 2 * ((4 * normal - 5) * grain) := by gcongr
      _ = (2 * normal + 1) ^ 2 * (4 * normal - 5) * grain := by ring
      _ < (2 * normal) ^ 2 * (4 * normal - 1) * grain :=
        Nat.mul_lt_mul_of_pos_right (by decide) hpos
      _ = (2 * normal) ^ 2 * ((4 * normal - 1) * grain) := by ring
  · have hlast : 2 * x.significand + 1 ≤ 4 * normal - 1 := by
      have hs := hx.1
      omega
    have hgrain : 2 ^ x.scale * 2 ^ 1 ≤ 2 ^ 2045 := by
      have hle := hx.2
      exact two_pow_mul_le (by omega)
    have hpos : 0 < 2 ^ x.scale := Nat.two_pow_pos _
    generalize 2 ^ 2045 = last at *
    generalize 2 ^ x.scale = grain at *
    calc (2 * normal + 1) ^ 2 * ((2 * x.significand + 1) * grain)
        ≤ (2 * normal + 1) ^ 2 * ((4 * normal - 1) * grain) := by gcongr
      _ = (2 * normal + 1) ^ 2 * (4 * normal - 1) * grain := by ring
      _ < (2 * normal) ^ 2 * (4 * normal - 1) * 2 * grain :=
        Nat.mul_lt_mul_of_pos_right (by decide) hpos
      _ = (2 * normal) ^ 2 * ((4 * normal - 1) * (grain * 2 ^ 1)) := by ring
      _ ≤ (2 * normal) ^ 2 * ((4 * normal - 1) * last) := by gcongr

section
variable {d k : Nat} {t : Int}

theorem le_of_inside_shift (h : x.inside (d * 10 ^ k) t) {n : Nat} (hn : (k : Int) + t = n) :
    quarters d n ≤ 4 * x.magnitude + 2 * 2 ^ x.scale := by
  rw [← hn, ← quarters_shift]
  exact le_of_inside h

theorem exponent_bounds (hx : x.Finite) (h : x.isZero = false) (hd : d ≠ 0)
    (hinside : x.inside (d * 10 ^ k) t) (ht : x.magnitude10 - 20 < t) :
    -420 < (k : Int) + t ∧ (k : Int) + t ≤ 308 := by
  have hlow := lt_magnitude10 h
  constructor
  · omega
  · by_contra hlarge
    have hexp := exponent_le hx hd
      (le_of_inside_shift (n := (k + t).toNat) hinside (by omega))
    omega

/-- The digits of a point inside, without zeros at its end, are scaled without overflow. -/
theorem scaleDecimal_of_inside (hx : x.Finite) (h : x.isZero = false) (hbelow : x.Below)
    (hd : d ≠ 0) (hinside : x.inside (d * 10 ^ k) t) (ht : x.magnitude10 - 20 < t) :
    ∃ y, scaleDecimal (ofInt d) (k + t) = some y := by
  have hlt : d < 2 ^ 64 :=
    (Nat.le_mul_of_pos_right d (by positivity)).trans_lt (lt_of_inside h hinside ht)
  apply scaleDecimal_isSome hlt (exponent_bounds hx h hd hinside ht).2
  intro hsign
  have hpoint := two_mul_le_of_quarters
    (le_of_inside_shift (n := (k + t).toNat) hinside (by omega))
  exact (Nat.mul_le_mul_left _ hpoint).trans_lt (enlarged_lt_overflow hx hbelow)

end

end Unseal.Binary64
