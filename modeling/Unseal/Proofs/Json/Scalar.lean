import Unseal.Json.Skip

/-!
# Scalars read and scalars skipped

Skipping checks less than reading. What can be read can be skipped, and both end at the same
place; so whatever holds of the place where a skipped scalar ends holds of a read one.
-/

set_option autoImplicit false

namespace Unseal.Json

namespace Cursor

def left (c : Cursor) : Nat := c.rest.length

theorem skipBlankFrom_left (cs : List Char) (p : Place) :
    (skipBlankFrom cs p).left ≤ cs.length := by
  induction cs generalizing p with
  | nil => simp [skipBlankFrom, left]
  | cons c cs ih =>
    unfold skipBlankFrom
    split
    · exact Nat.le_trans (ih _) (by simp)
    · simp [left]

theorem skipBlank_left (c : Cursor) : c.skipBlank.left ≤ c.left := skipBlankFrom_left _ _

theorem skipBlankFrom_skipBlank (cs : List Char) (p : Place) :
    (skipBlankFrom cs p).skipBlank = skipBlankFrom cs p := by
  induction cs generalizing p with
  | nil => simp [skipBlankFrom, skipBlank]
  | cons c cs ih =>
    by_cases h : isBlank c
    · simpa [skipBlankFrom, h] using ih _
    · simp [skipBlankFrom, skipBlank, h]

@[simp] theorem skipBlank_skipBlank (c : Cursor) : c.skipBlank.skipBlank = c.skipBlank :=
  skipBlankFrom_skipBlank _ _

theorem eat_left {c : Cursor} {x : Char} {cs : List Char} (h : c.rest = x :: cs) :
    c.eat.left + 1 = c.left := by
  simp [eat, left, h]

end Cursor

theorem readIdent_left {xs : List Char} {c c' : Cursor} (h : readIdent xs c = .ok c') :
    c'.left + xs.length = c.left := by
  induction xs generalizing c with
  | nil => cases h; rfl
  | cons x xs ih =>
    unfold readIdent at h
    split at h
    next => cases h
    next y ys hc =>
      split at h
      · have hl := ih h
        have he := Cursor.eat_left hc
        simp only [List.length_cons]
        omega
      · cases h

/-! ## Strings -/

theorem skipStringFrom_left {st : Pending} {cs : List Char} {p : Place} {c' : Cursor}
    (h : skipStringFrom st cs p = .ok c') : c'.left < cs.length := by
  fun_induction skipStringFrom st cs p <;> grind [Cursor.left]

/-- `SkipsAs st st'`: skipping in state `st'` goes along with reading in state `st`. -/
inductive SkipsAs : Pending → Pending → Prop
  | plain : SkipsAs .plain .plain
  | escape : SkipsAs .escape .escape
  | hex {lead lead' : Option Nat} {left value value' : Nat} {bad : Bool} :
      SkipsAs (.hex lead left value bad) (.hex lead' left value' bad)
  | lead {n : Nat} : SkipsAs (.lead n) .plain
  | leadEscape {n : Nat} : SkipsAs (.leadEscape n) .escape

theorem completeHex_ok {lead : Option Nat} {value : Nat} {bad : Bool} {r : Sum Char Nat}
    (h : completeHex lead value bad = .ok r) : bad = false := by
  cases bad with
  | false => rfl
  | true => simp [completeHex] at h

theorem skipStringFrom_of_read {st st' : Pending} {acc cs out : List Char} {p : Place}
    {c' : Cursor} (h : readStringFrom st acc cs p = .ok (out, c')) (hs : SkipsAs st st') :
    skipStringFrom st' cs p = .ok c' := by
  fun_induction readStringFrom st acc cs p generalizing st' with
  | case1 => cases h
  | case2 => cases hs; cases h; simp [skipStringFrom]
  | case3 acc cs p hq ih => cases hs; simpa [skipStringFrom, hq] using ih h .escape
  | case4 => cases h
  | case5 acc c cs p hq hb hc ih => cases hs; simpa [skipStringFrom, hq, hb, hc] using ih h .plain
  | case6 acc c cs p x hx ih => cases hs; simpa [skipStringFrom, hx] using ih h .plain
  | case7 acc cs p hx ih => cases hs; simpa [skipStringFrom, hx] using ih h .hex
  | case8 => cases h
  | case9 lead left value bad acc c cs p hc bad' value' p' hl x hx =>
    rename_i ih
    cases hs
    have hb : bad' = false := completeHex_ok hx
    have hb : (bad || (hexValue? c).isNone) = false := hb
    simpa [skipStringFrom, hc, hl, hb] using ih h .plain
  | case10 lead left value bad acc c cs p hc bad' value' p' hl n hx =>
    rename_i ih
    cases hs
    have hb : bad' = false := completeHex_ok hx
    have hb : (bad || (hexValue? c).isNone) = false := hb
    simpa [skipStringFrom, hc, hl, hb] using ih h .lead
  | case11 => cases h
  | case12 lead left value bad acc c cs p hc bad' value' p' hl =>
    rename_i ih
    cases hs
    simpa [skipStringFrom, hc, hl] using ih h .hex
  | case13 => cases h
  | case14 lead left value bad acc c cs p hc hl ih =>
    cases hs
    simpa [skipStringFrom, hc, hl] using ih h .hex
  | case15 n acc cs p ih => cases hs; simpa [skipStringFrom] using ih h .leadEscape
  | case16 => cases h
  | case17 n acc cs p ih => cases hs; simpa [skipStringFrom, simpleEscape?] using ih h .hex
  | case18 => cases h

theorem readString_skip {c c' : Cursor} {s : String} (h : readString c = .ok (s, c')) :
    skipString c = .ok c' := by
  unfold readString at h
  split at h
  next hs => cases h; exact skipStringFrom_of_read hs .plain
  next => cases h

theorem readString_left {c c' : Cursor} {s : String} (h : readString c = .ok (s, c')) :
    c'.left < c.left := skipStringFrom_left (readString_skip h)

/-! ## Numbers -/

theorem numberAt_cursor {r : Option Number} {c c' : Cursor} {n : Number}
    (h : numberAt r c = .ok (n, c')) : c' = c := by
  cases r with
  | none => cases h
  | some m => cases h; rfl

theorem floatAt_cursor {negative : Bool} {significand : Nat} {exponent : Int} {c c' : Cursor}
    {n : Number} (h : floatAt negative significand exponent c = .ok (n, c')) : c' = c :=
  numberAt_cursor h

theorem readExponentDigits_cursor {negative minus : Bool} {significand : Nat} {exponent : Int}
    {c c' : Cursor} {n : Number}
    (h : readExponentDigits negative significand exponent minus c = .ok (n, c')) :
    ∃ d ds, c.rest = d :: ds ∧ isDigit d ∧
      c' = ⟨c.rest.dropWhile isDigit, c.place.skip (c.rest.takeWhile isDigit).length⟩ := by
  unfold readExponentDigits at h
  split at h
  next => cases h
  next d ds hc =>
    split at h
    next hd =>
      refine ⟨d,ds,hc,hd,?_⟩
      dsimp only at h
      split at h
      next => exact floatAt_cursor h
      next =>
        split at h
        · cases h
        · cases h; rfl
    next => cases h

theorem readExponent_skip {negative : Bool} {significand : Nat} {exponent : Int} {c c' : Cursor}
    {n : Number} (h : readExponent negative significand exponent c = .ok (n, c')) :
    skipExponent c = .ok c' := by
  unfold readExponent at h
  unfold skipExponent
  split at h
  all_goals
    obtain ⟨d, ds, hc, hd, rfl⟩ := readExponentDigits_cursor h
    simp_all

theorem readFraction_skip {negative : Bool} {significand : Nat} {exponent : Int} {c c' : Cursor}
    {n : Number} (h : readFraction negative significand exponent c = .ok (n, c')) :
    skipFraction c = .ok c' := by
  unfold readFraction at h
  unfold skipFraction
  dsimp only at h ⊢
  split at h
  next => cases h
  next hds =>
    rw [if_neg hds]
    split at h
    next hr => simpa only [hr] using readExponent_skip h
    next hr => simpa only [hr] using readExponent_skip h
    next => exact congrArg _ (floatAt_cursor h).symm

theorem readTail_skip {negative : Bool} {significand dropped : Nat} {c c' : Cursor}
    {n : Number} (h : readTail negative significand dropped c = .ok (n, c')) :
    skipTail c = .ok c' := by
  unfold readTail at h
  unfold skipTail
  split at h
  next hr => simpa only [hr] using readFraction_skip h
  next hr => simpa only [hr] using readExponent_skip h
  next hr => simpa only [hr] using readExponent_skip h
  next h1 h2 h3 =>
    have hc : c' = c := by
      split at h
      · cases h; rfl
      · exact floatAt_cursor h
    rw [hc]

theorem readNumber_skip {negative : Bool} {c c' : Cursor} {n : Number}
    (h : readNumber negative c = .ok (n, c')) :
    skipNumber c = .ok c' := by
  unfold readNumber at h
  unfold skipNumber
  split at h
  next => cases h
  next d cs hc =>
    simp only
    split at h
    next hd =>
      rw [if_pos hd]
      dsimp only at h ⊢
      split at h
      next e es =>
        split at h
        · cases h
        next he => simpa [he] using readTail_skip h
      next => exact readTail_skip h
    next hd =>
      rw [if_neg hd]
      split at h
      next hdig =>
        rw [if_pos hdig]
        exact readTail_skip h
      next => cases h

theorem dropWhile_left (p : Char → Bool) (cs : List Char) (q : Place) :
    Cursor.left ⟨cs.dropWhile p, q⟩ ≤ cs.length := (List.dropWhile_suffix p).length_le

theorem skipExponent_left {c c' : Cursor} (h : skipExponent c = .ok c') : c'.left ≤ c.left := by
  unfold skipExponent at h
  extract_lets b at h
  have hb : b.left ≤ c.left := by
    unfold b
    split <;> simp_all [Cursor.left]
  split at h
  next => cases h
  next d ds hd =>
    split at h
    · cases h
      exact Nat.le_trans (dropWhile_left _ _ _) hb
    · cases h

theorem skipFraction_left {c c' : Cursor} (h : skipFraction c = .ok c') : c'.left ≤ c.left := by
  unfold skipFraction at h
  dsimp only at h
  have hd := dropWhile_left isDigit c.rest c.place
  split at h
  · cases h
  · split at h
    next hr =>
      have := skipExponent_left h
      simp only [Cursor.left, hr, List.length_cons] at *
      omega
    next hr =>
      have := skipExponent_left h
      simp only [Cursor.left, hr, List.length_cons] at *
      omega
    next => cases h; exact hd

theorem skipTail_left {c c' : Cursor} (h : skipTail c = .ok c') : c'.left ≤ c.left := by
  have hcons : ∀ {x : Char} {cs : List Char} {p : Place}, c.rest = x :: cs →
      c'.left ≤ Cursor.left ⟨cs, p⟩ → c'.left ≤ c.left := by
    intro x cs p hr hle
    simp only [Cursor.left, hr, List.length_cons] at *
    omega
  unfold skipTail at h
  split at h
  next hr => exact hcons hr (skipFraction_left h)
  next hr => exact hcons hr (skipExponent_left h)
  next hr => exact hcons hr (skipExponent_left h)
  next => cases h; exact Nat.le_refl _

theorem skipNumber_left {c c' : Cursor} (h : skipNumber c = .ok c') : c'.left < c.left := by
  unfold skipNumber at h
  split at h
  next => cases h
  next d cs hc =>
    have hlen : c.left = cs.length + 1 := by simp [Cursor.left, hc]
    split at h
    · have hzero : skipTail ⟨cs, c.place.skip 1⟩ = .ok c' := by
        dsimp only at h
        split at h
        · split at h
          · cases h
          · exact h
        · exact h
      have hle := skipTail_left hzero
      rw [hlen]
      exact Nat.lt_succ_of_le hle
    · split at h
      next hd =>
        have hle := skipTail_left h
        have hdrop : (c.rest.dropWhile isDigit).length ≤ cs.length := by
          rw [hc, List.dropWhile_cons_of_pos hd]
          exact (List.dropWhile_suffix _).length_le
        simp only [Cursor.left] at hle hlen ⊢
        omega
      next => cases h

theorem readNumber_left {negative : Bool} {c c' : Cursor} {n : Number}
    (h : readNumber negative c = .ok (n, c')) : c'.left < c.left :=
  skipNumber_left (readNumber_skip h)

end Unseal.Json
