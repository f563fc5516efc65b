import Unseal.Proofs.Binary64.Shortest
import Unseal.Proofs.Json.FloatWritten

/-!
# Written decimals read back

In each of its layouts a decimal is read as its digits, scaled by the power of ten that its point
leaves. Only an integer in full takes a zero more into the significand, the one after the point.
The digits of a finite double scale without overflow, so every finite double is readable.
-/

set_option autoImplicit false

namespace Unseal.Json

open Binary64 (Decimal)

/-! ## Digits -/

theorem digitValue_le {c : Char} (h : isDigit c) : digitValue c ≤ 9 := by
  have hc : c ≤ '9' := by
    simp only [isDigit, Bool.and_eq_true, decide_eq_true_eq] at h
    exact h.2
  have hle : c.toNat ≤ 57 := Char.le_def.mp hc
  rw [digitValue]
  omega

theorem ofDigitChars_step (d : Char) (ds : List Char) (value : Nat) :
    Nat.ofDigitChars 10 (d :: ds) value = Nat.ofDigitChars 10 ds (value * 10 + digitValue d) := by
  rw [Nat.ofDigitChars_cons, Nat.mul_comm]
  rfl

theorem ofDigitChars_zeros (k value : Nat) :
    Nat.ofDigitChars 10 (List.replicate k '0') value = value * 10 ^ k := by
  induction k generalizing value with
  | zero => rw [pow_zero, Nat.mul_one]; rfl
  | succ k ih =>
    rw [List.replicate_succ, ofDigitChars_step, ih, pow_succ]
    show (value * 10 + 0) * 10 ^ k = _
    ring

theorem ofDigitChars_lt {ds : List Char} (h : ∀ d ∈ ds, isDigit d) (value : Nat) :
    Nat.ofDigitChars 10 ds value < (value + 1) * 10 ^ ds.length := by
  induction ds generalizing value with
  | nil => simp [Nat.ofDigitChars]
  | cons d ds ih =>
    have hd := digitValue_le (h d List.mem_cons_self)
    rw [ofDigitChars_step, List.length_cons, pow_succ]
    refine (ih (fun x hx => h x (List.mem_cons_of_mem d hx)) _).trans_le ?_
    calc (value * 10 + digitValue d + 1) * 10 ^ ds.length
        ≤ ((value + 1) * 10) * 10 ^ ds.length := Nat.mul_le_mul_right _ (by omega)
      _ = (value + 1) * (10 ^ ds.length * 10) := by ring

/-! ## Parts of a number -/

theorem afterFraction_ends (negative : Bool) (significand : Nat) (exponent : Int)
    {rest : List Char} (hr : Ends rest) (p : Place) :
    afterFraction negative significand exponent ⟨rest, p⟩ =
      floatAt negative significand exponent ⟨rest, p⟩ := by
  unfold afterFraction
  split
  next h => exact absurd rfl (hr _ _ h).2.2.1
  next h => exact absurd rfl (hr _ _ h).2.2.2
  next => rfl

theorem readTail_point (negative : Bool) (significand : Nat) {ds rest : List Char} (hne : ds ≠ [])
    (hd : ∀ d ∈ ds, isDigit d) (hfits : Nat.ofDigitChars 10 ds significand ≤ significandLimit)
    (hr : Stops rest) (p : Place) :
    ∃ q, readTail negative significand 0 ⟨'.' :: (ds ++ rest), p⟩ =
      afterFraction negative (Nat.ofDigitChars 10 ds significand) (-ds.length) ⟨rest, q⟩ := by
  refine ⟨(p.skip 1).skip ds.length,?_⟩
  show readFraction negative significand 0 ⟨ds ++ rest, p.skip 1⟩ = _
  rw [readFraction_digits _ _ _ hne hd hr, absorb_all hfits]
  congr 1
  simp

theorem readExponentDigits_natChars (negative : Bool) (significand : Nat) (exponent : Int)
    (minus : Bool) {n : Nat} (hn : n ≤ exponentLimit) {rest : List Char} (hr : Stops rest)
    (p : Place) :
    ∃ q, readExponentDigits negative significand exponent minus ⟨natChars n ++ rest, p⟩ =
      floatAt negative significand (if minus then exponent - n else exponent + n) ⟨rest, q⟩ := by
  obtain ⟨htake, hdrop⟩ := hr.takeWhile (natChars n) isDigit_natChars
  have hvalue : Nat.ofDigitChars 10 (natChars n) 0 = n := Nat.ofDigitChars_ten_toDigits
  have habsorb : absorb exponentLimit 0 (natChars n) = (n, []) := by
    rw [absorb_all (by rwa [hvalue]), hvalue]
  obtain ⟨d, ds, hds⟩ := List.exists_cons_of_ne_nil (Nat.toDigits_ne_nil (n := n) (b := 10))
  have hchars : natChars n = d :: ds := hds
  have hd := isDigit_natChars d (n := n) (by simp [hchars])
  refine ⟨p.skip (natChars n).length,?_⟩
  unfold readExponentDigits
  rw [hchars] at htake hdrop habsorb ⊢
  simp only [htake, hdrop, habsorb]
  simp only [List.cons_append, hd, if_true]

def markChars (e : Int) : List Char :=
  'e' :: (if e < 0 then '-' else '+') :: natChars e.natAbs

theorem stops_markChars (e : Int) (rest : List Char) : Stops (markChars e ++ rest) := by
  rintro x xs ⟨⟩
  rfl

theorem readExponent_mark (negative : Bool) (significand : Nat) (exponent : Int) {e : Int}
    (he : e.natAbs ≤ exponentLimit) {rest : List Char} (hr : Stops rest) (p : Place) :
    ∃ q, readExponent negative significand exponent
        ⟨(if e < 0 then '-' else '+') :: natChars e.natAbs ++ rest, p⟩ =
      floatAt negative significand (exponent + e) ⟨rest, q⟩ := by
  by_cases hneg : e < 0
  · obtain ⟨q, hq⟩ := readExponentDigits_natChars negative significand exponent true he hr
      (p.skip 1)
    rw [if_pos rfl, show exponent - (e.natAbs : ℤ) = exponent + e by omega] at hq
    rw [if_pos hneg]
    exact ⟨q,hq⟩
  · obtain ⟨q, hq⟩ := readExponentDigits_natChars negative significand exponent false he hr
      (p.skip 1)
    rw [if_neg (by decide), show exponent + (e.natAbs : ℤ) = exponent + e by omega] at hq
    rw [if_neg hneg]
    exact ⟨q,hq⟩

theorem readTail_mark (negative : Bool) (significand : Nat) {e : Int}
    (he : e.natAbs ≤ exponentLimit) {rest : List Char} (hr : Stops rest) (p : Place) :
    ∃ q, readTail negative significand 0 ⟨markChars e ++ rest, p⟩ =
      floatAt negative significand e ⟨rest, q⟩ := by
  obtain ⟨q, hq⟩ := readExponent_mark negative significand 0 he hr (p.skip 1)
  rw [Int.zero_add] at hq
  exact ⟨q,hq⟩

theorem afterFraction_mark (negative : Bool) (significand : Nat) (exponent : Int) {e : Int}
    (he : e.natAbs ≤ exponentLimit) {rest : List Char} (hr : Stops rest) (p : Place) :
    ∃ q, afterFraction negative significand exponent ⟨markChars e ++ rest, p⟩ =
      floatAt negative significand (exponent + e) ⟨rest, q⟩ :=
  readExponent_mark negative significand exponent he hr (p.skip 1)

/-- Digits that begin with another one than zero. -/
structure Leading (ds : List Char) : Prop where
  digit : ∀ d ∈ ds, isDigit d
  head : ∃ a as, ds = a :: as ∧ a ≠ '0'

theorem Leading.zeros {ds : List Char} (h : Leading ds) (k : Nat) :
    Leading (ds ++ List.replicate k '0') where
  digit := by
    intro d hmem
    rcases List.mem_append.mp hmem with hd | hd
    · exact h.digit d hd
    · rw [List.eq_of_mem_replicate hd]
      rfl
  head := by
    obtain ⟨a, as, rfl, ha⟩ := h.head
    exact ⟨a,as ++ List.replicate k '0',rfl,ha⟩

theorem Leading.take {ds : List Char} (h : Leading ds) {k : Nat} (hk : 0 < k) :
    Leading (ds.take k) where
  digit := fun d hmem => h.digit d (List.mem_of_mem_take hmem)
  head := by
    obtain ⟨a, as, rfl, ha⟩ := h.head
    obtain ⟨n, rfl⟩ := Nat.exists_eq_add_one.mpr hk
    exact ⟨a,as.take n,rfl,ha⟩

theorem readNumber_leading (negative : Bool) {ds rest : List Char} (h : Leading ds)
    (hfits : Nat.ofDigitChars 10 ds 0 ≤ significandLimit) (hr : Stops rest) (p : Place) :
    readNumber negative ⟨ds ++ rest, p⟩ =
      readTail negative (Nat.ofDigitChars 10 ds 0) 0 ⟨rest, p.skip ds.length⟩ := by
  obtain ⟨hd, a, as, rfl, ha⟩ := h
  rw [readNumber_digits negative ha hd hr, absorb_all hfits]
  rfl

/-! ## Decimals -/

def decimalChars (s : Decimal) : List Char :=
  if -5 < s.point ∧ s.point ≤ 0 then
    '0' :: '.' :: (List.replicate s.point.natAbs '0' ++ digitChars s.digits)
  else if 0 < s.point ∧ s.point ≤ 16 then
    if (s.digits.length : Int) ≤ s.point then
      digitChars s.digits ++ List.replicate (s.point - s.digits.length).toNat '0' ++ ['.', '0']
    else
      digitChars (s.digits.take s.point.toNat) ++ '.' ::
        digitChars (s.digits.drop s.point.toNat)
  else
    match s.digits with
    | [a] => digitChars [a] ++ markChars (s.point - 1)
    | a :: rest => digitChars [a] ++ '.' :: (digitChars rest ++ markChars (s.point - 1))
    | [] => markChars (s.point - 1)

theorem floatChars_eq {x : Binary64} (h : x.isZero = false) :
    floatChars x = (if x.negative then ['-'] else []) ++ decimalChars x.shortest := by
  unfold floatChars decimalChars
  rw [h]
  dsimp only
  generalize (if x.negative then ['-'] else [] : List Char) = sign
  split
  next hzero => cases hzero
  split
  · rfl
  split
  · split
    · simp only [List.append_assoc]
    · simp only [List.append_assoc]
  · rcases x.shortest.digits with _ | ⟨a, _ | ⟨b, rest⟩⟩ <;>
      simp only [List.append_assoc, markChars]

theorem digitChars_append (as bs : List Nat) :
    digitChars (as ++ bs) = digitChars as ++ digitChars bs := List.map_append ..

theorem length_digitChars (ds : List Nat) : (digitChars ds).length = ds.length := List.length_map ..

def mantissa (s : Decimal) : Nat := Nat.ofDigitChars 10 (digitChars s.digits) 0

section
variable (negative : Bool) {s : Decimal} (hs : Leading (digitChars s.digits))
include hs

theorem readNumber_fraction (hfits : mantissa s ≤ significandLimit) (k : Nat) {rest : List Char}
    (hr : Ends rest) (p : Place) :
    ∃ q, readNumber negative
        ⟨'0' :: '.' :: (List.replicate k '0' ++ digitChars s.digits) ++ rest, p⟩ =
      floatAt negative (mantissa s) (-(k + s.digits.length : Nat)) ⟨rest, q⟩ := by
  have hvalue : Nat.ofDigitChars 10 (List.replicate k '0' ++ digitChars s.digits) 0 =
      mantissa s := by
    rw [Nat.ofDigitChars_append, ofDigitChars_zeros, Nat.zero_mul]
    rfl
  have hdigits : ∀ d ∈ List.replicate k '0' ++ digitChars s.digits, isDigit d := by
    intro d hmem
    rcases List.mem_append.mp hmem with hd | hd
    · rw [List.eq_of_mem_replicate hd]
      rfl
    · exact hs.digit d hd
  have hne : List.replicate k '0' ++ digitChars s.digits ≠ [] := by
    obtain ⟨a, as, has, -⟩ := hs.head
    simp [has]
  have hlength : (List.replicate k '0' ++ digitChars s.digits).length = k + s.digits.length := by
    rw [List.length_append, List.length_replicate, length_digitChars]
  obtain ⟨q, hq⟩ := readTail_point negative 0 hne hdigits (by rwa [hvalue])
    hr.stops (p.skip 1)
  rw [hvalue, hlength, afterFraction_ends _ _ _ hr] at hq
  refine ⟨q,?_⟩
  rw [List.cons_append, readNumber_zero _ (by rintro x xs ⟨⟩; rfl)]
  exact hq

theorem readNumber_whole {k : Nat} (hfits : mantissa s * 10 ^ k * 10 ≤ significandLimit)
    {rest : List Char} (hr : Ends rest) (p : Place) :
    ∃ q, readNumber negative
        ⟨digitChars s.digits ++ List.replicate k '0' ++ ['.', '0'] ++ rest, p⟩ =
      floatAt negative (mantissa s * 10 ^ k * 10) (-1) ⟨rest, q⟩ := by
  have hvalue : Nat.ofDigitChars 10 (digitChars s.digits ++ List.replicate k '0') 0 =
      mantissa s * 10 ^ k := by
    rw [Nat.ofDigitChars_append, ofDigitChars_zeros]
    rfl
  have hlast : Nat.ofDigitChars 10 ['0'] (mantissa s * 10 ^ k) = mantissa s * 10 ^ k * 10 :=
    ofDigitChars_zeros 1 _
  obtain ⟨q, hq⟩ := readTail_point negative (mantissa s * 10 ^ k) (List.cons_ne_nil '0' [])
    (by simp [isDigit]) (by rwa [hlast]) hr.stops
    (p.skip (digitChars s.digits ++ List.replicate k '0').length)
  rw [hlast, afterFraction_ends _ _ _ hr] at hq
  refine ⟨q,?_⟩
  rw [List.append_assoc _ ['.', '0'], readNumber_leading negative (hs.zeros k)
    (by rw [hvalue]; exact (Nat.le_mul_of_pos_right _ (by decide)).trans hfits)
    (by rintro x xs ⟨⟩; rfl), hvalue]
  exact hq

theorem readNumber_middle (hfits : mantissa s ≤ significandLimit) {k : Nat} (hk : 0 < k)
    (hlt : k < s.digits.length) {rest : List Char} (hr : Stops rest) (p : Place) :
    ∃ q, readNumber negative ⟨digitChars (s.digits.take k) ++ '.' ::
        (digitChars (s.digits.drop k) ++ rest), p⟩ =
      afterFraction negative (mantissa s) (-(s.digits.length - k : Nat)) ⟨rest, q⟩ := by
  have hsplit : digitChars (s.digits.take k) ++ digitChars (s.digits.drop k) =
      digitChars s.digits := by
    rw [← digitChars_append, List.take_append_drop]
  have hvalue : Nat.ofDigitChars 10 (digitChars (s.digits.drop k))
      (Nat.ofDigitChars 10 (digitChars (s.digits.take k)) 0) = mantissa s := by
    rw [mantissa, ← hsplit, Nat.ofDigitChars_append]
  have hlead : Leading (digitChars (s.digits.take k)) := by
    rw [digitChars, List.map_take]
    exact hs.take hk
  have hdigits : ∀ d ∈ digitChars (s.digits.drop k), isDigit d :=
    fun d hd => hs.digit d (hsplit ▸ List.mem_append_right _ hd)
  have hlength : (digitChars (s.digits.drop k)).length = s.digits.length - k := by
    rw [length_digitChars, List.length_drop]
  have hne : digitChars (s.digits.drop k) ≠ [] := by
    rw [← List.length_pos_iff_ne_nil, hlength]
    omega
  obtain ⟨q, hq⟩ := readTail_point negative _ hne hdigits (by rwa [hvalue]) hr
    (p.skip (digitChars (s.digits.take k)).length)
  rw [hvalue, hlength] at hq
  refine ⟨q,?_⟩
  rw [readNumber_leading negative hlead ((le_ofDigitChars _ _).trans (by rwa [hvalue]))
    (by rintro x xs ⟨⟩; rfl)]
  exact hq

/-- An integer in full has at most 16 digits, and one zero after the point. -/
theorem whole_le (h : (s.digits.length : Int) ≤ s.point ∧ s.point ≤ 16) :
    mantissa s * 10 ^ (s.point - s.digits.length).toNat * 10 ≤ significandLimit := by
  have hlt := ofDigitChars_lt hs.digit 0
  rw [length_digitChars, Nat.zero_add, Nat.one_mul] at hlt
  calc mantissa s * 10 ^ (s.point - s.digits.length).toNat * 10
      ≤ 10 ^ s.digits.length * 10 ^ (s.point - s.digits.length).toNat * 10 :=
        Nat.mul_le_mul_right 10 (Nat.mul_le_mul_right _ hlt.le)
    _ = 10 ^ (s.digits.length + (s.point - s.digits.length).toNat + 1) := by
        rw [pow_succ, pow_add]
    _ ≤ 10 ^ 17 := pow_le_pow_right₀ (by decide) (by omega)
    _ ≤ significandLimit := by decide

/-- Each layout is read as the digits at the place of the point. Where the digits are an integer,
they are read with the zeros that follow them. -/
theorem readNumber_decimalChars (hfits : mantissa s ≤ significandLimit)
    (hpoint : (s.point - 1).natAbs ≤ exponentLimit) {rest : List Char} (hr : Ends rest)
    (p : Place) :
    ∃ (significand : Nat) (exponent : Int) (q : Place), significand ≤ significandLimit ∧
      (significand = mantissa s ∧ exponent = s.point - s.digits.length ∨ exponent = -1) ∧
      readNumber negative ⟨decimalChars s ++ rest, p⟩ =
        floatAt negative significand exponent ⟨rest, q⟩ := by
  unfold decimalChars
  split
  next hsmall =>
    obtain ⟨q, hq⟩ := readNumber_fraction negative hs hfits s.point.natAbs hr p
    exact ⟨_,_,q,hfits,.inl ⟨rfl,by omega⟩,hq⟩
  split
  next hlarge =>
    split
    next hwhole =>
      have hmax : mantissa s * 10 ^ (s.point - s.digits.length).toNat * 10 ≤ significandLimit :=
        whole_le hs (by omega)
      obtain ⟨q, hq⟩ := readNumber_whole negative hs hmax hr p
      exact ⟨_,_,q,hmax,.inr rfl,hq⟩
    next hmiddle =>
      obtain ⟨q, hq⟩ := readNumber_middle negative hs hfits (k := s.point.toNat) (by omega)
        (by omega) hr.stops p
      rw [afterFraction_ends _ _ _ hr] at hq
      rw [List.append_assoc, List.cons_append]
      exact ⟨_,_,q,hfits,.inl ⟨rfl,by omega⟩,hq⟩
  next =>
    obtain ⟨digits, point⟩ := s
    rcases digits with _ | ⟨a, _ | ⟨b, more⟩⟩
    · obtain ⟨x, xs, hx, -⟩ := hs.head
      cases hx
    · obtain ⟨q, hq⟩ := readTail_mark negative (mantissa ⟨[a],point⟩) hpoint hr.stops
        (p.skip (digitChars [a]).length)
      refine ⟨_,_,q,hfits,.inl ⟨rfl,rfl⟩,?_⟩
      rw [List.append_assoc, readNumber_leading negative hs hfits (stops_markChars _ _)]
      exact hq
    · obtain ⟨q, hq⟩ := readNumber_middle negative hs hfits (k := 1) Nat.one_pos (by simp)
        (stops_markChars (point - 1) rest) p
      obtain ⟨r, hr⟩ := afterFraction_mark negative (mantissa ⟨a :: b :: more,point⟩)
        (-((a :: b :: more).length - 1 : Nat)) hpoint hr.stops q
      refine ⟨_,point - (a :: b :: more).length,r,hfits,.inl ⟨rfl,rfl⟩,?_⟩
      have hexponent : -((a :: b :: more).length - 1 : Nat) + (point - 1) =
          point - (a :: b :: more).length := by
        rw [List.length_cons]
        omega
      rw [hexponent] at hr
      rw [List.append_assoc, List.cons_append, List.append_assoc]
      exact hq.trans hr

end

/-! ## Finite doubles -/

theorem digit_of_readNumber {negative : Bool} {c c' : Cursor} {n : Number}
    (h : readNumber negative c = .ok (n, c')) : ∃ d cs, c.rest = d :: cs ∧ isDigit d := by
  unfold readNumber at h
  split at h
  next => cases h
  next d cs hc =>
    refine ⟨d,cs,hc,?_⟩
    split at h
    next hd =>
      rw [hd]
      rfl
    next =>
      split at h
      next hd => exact hd
      next => cases h

theorem readable_of_readNumber {x : Binary64} {cs : List Char}
    (hcs : floatChars x = (if x.negative then ['-'] else []) ++ cs)
    (h : ∀ p, ∃ y q, readNumber x.negative ⟨cs, p⟩ = .ok (.float y, ⟨[], q⟩)) : Readable x := by
  have htext : Cursor.ofText (compact (.num (.float x))) = ⟨floatChars x, .start⟩ := by
    simp [Cursor.ofText, compact, compactChars, numberChars]
  have hreads : ∃ y q, Reads depthLimit ⟨floatChars x, .start⟩ (.num (.float y)) ⟨[], q⟩ := by
    rw [hcs]
    cases hsign : x.negative with
    | true =>
      rw [hsign] at h
      have hskip : Cursor.skipBlank ⟨'-' :: cs, .start⟩ = ⟨'-' :: cs, .start⟩ :=
        Cursor.skipBlank_of_not_blank rfl rfl
      obtain ⟨y, q, hq⟩ := h (Place.start.advance '-')
      exact ⟨y,q,.negative (congrArg Cursor.rest hskip) (hskip.symm ▸ hq)⟩
    | false =>
      rw [hsign] at h
      obtain ⟨y, q, hq⟩ := h .start
      obtain ⟨d, ds, hds, hd⟩ := digit_of_readNumber hq
      have hskip : Cursor.skipBlank ⟨cs, .start⟩ = ⟨cs, .start⟩ :=
        Cursor.skipBlank_of_not_blank hds (not_blank_of_isDigit hd)
      exact ⟨y,q,.number ((congrArg Cursor.rest hskip).trans hds) hd (hskip.symm ▸ hq)⟩
  obtain ⟨y, q, hq⟩ := hreads
  exact ⟨y,(read_ok_iff_spells _ _).mpr ⟨_,⟨_,htext ▸ hq,rfl⟩,rfl⟩⟩

theorem floatAt_isSome {negative : Bool} {significand : Nat} {exponent : Int}
    (h : ∃ y, Binary64.scaleDecimal (Binary64.ofInt significand) exponent = some y) (c : Cursor) :
    ∃ y, floatAt negative significand exponent c = .ok (.float y, c) := by
  obtain ⟨y, hy⟩ := h
  exact ⟨_,by rw [floatAt, floatNumber, hy]; rfl⟩

theorem readable_zero {x : Binary64} (h : x.isZero) : Readable x := by
  have hall : ∀ negative, Readable (.zero negative) := by decide
  have htext : compact (.num (.float x)) = compact (.num (.float (.zero x.negative))) := by
    have hzero : Binary64.isZero (.zero x.negative) = true := rfl
    simp only [compact, compactChars, numberChars, floatChars, h, hzero, if_true]
    rfl
  rw [Readable, htext]
  exact hall x.negative

/-- The digits of the two greatest magnitudes do not overflow either. -/
theorem readable_last {x : Binary64} (hx : x.Finite) (h : ¬x.Below) : Readable x := by
  have hlast : ∀ negative, ∀ n < 2,
      Readable ⟨negative, 2 * Binary64.normal - 1 - n, 2045⟩ := by decide +kernel
  rw [Binary64.Below, Classical.not_imp] at h
  obtain ⟨negative, significand, scale⟩ := x
  obtain ⟨rfl, hlarge⟩ := h
  have hlt : significand < 2 * Binary64.normal := hx.1
  obtain ⟨n, hn, rfl⟩ : ∃ n < 2, significand = 2 * Binary64.normal - 1 - n :=
    ⟨2 * Binary64.normal - 1 - significand,by dsimp only at hlarge; omega,by omega⟩
  exact hlast negative n hn

theorem digitChars_digitsOf (n : Nat) : digitChars (Binary64.digitsOf n) = natChars n := by
  rw [digitChars, Binary64.digitsOf, List.map_map]
  refine (List.map_congr_left fun c hc => ?_).trans (List.map_id _)
  have hdigit := isDigit_natChars c hc
  simp only [isDigit, Bool.and_eq_true, decide_eq_true_eq] at hdigit
  have hlow : 48 ≤ c.toNat := Char.le_def.mp hdigit.1
  show Char.ofNat (48 + (c.toNat - 48)) = c
  rw [Nat.add_sub_cancel' hlow, Char.ofNat_toNat]

theorem natChars_split {ds : List Nat} {d k : Nat}
    (h : Binary64.digitsOf d = ds ++ List.replicate k 0) :
    digitChars ds ++ List.replicate k '0' = natChars d := by
  rw [← digitChars_digitsOf, h, digitChars_append]
  simp [digitChars]

theorem mantissa_split {s : Decimal} {d k : Nat}
    (h : Binary64.digitsOf d = s.digits ++ List.replicate k 0) : mantissa s * 10 ^ k = d := by
  have hvalue : Nat.ofDigitChars 10 (natChars d) 0 = d := Nat.ofDigitChars_ten_toDigits
  rwa [← natChars_split h, Nat.ofDigitChars_append, ofDigitChars_zeros] at hvalue

theorem leading_split {ds : List Nat} {d k : Nat} (hd : d ≠ 0)
    (h : Binary64.digitsOf d = ds ++ List.replicate k 0) : Leading (digitChars ds) where
  digit := fun c hc =>
    isDigit_natChars c (natChars_split h ▸ List.mem_append_left _ hc)
  head := by
    obtain ⟨a, as, has, ha⟩ := natChars_head (Nat.pos_of_ne_zero hd)
    rw [← natChars_split h] at has
    cases hds : digitChars ds with
    | nil =>
      rw [hds, List.nil_append] at has
      exact absurd (List.eq_of_mem_replicate (has ▸ List.mem_cons_self)) ha
    | cons b bs =>
      rw [hds] at has
      cases has
      exact ⟨_,_,rfl,ha⟩

theorem length_le_twenty {d : Nat} (h : d < 2 ^ 64) : (Binary64.digitsOf d).length ≤ 20 := by
  rw [Binary64.length_digitsOf]
  exact (Nat.length_toDigits_le_iff (by decide) (by decide)).mpr (h.trans (by decide))

theorem shortest_written {x : Binary64} (hx : x.Finite) (h : x.isZero = false) :
    Leading (digitChars x.shortest.digits) ∧ mantissa x.shortest ≤ significandLimit ∧
      (x.shortest.point - 1).natAbs ≤ exponentLimit ∧
      (x.Below → ∃ y, Binary64.scaleDecimal (Binary64.ofInt (mantissa x.shortest))
        (x.shortest.point - x.shortest.digits.length) = some y) := by
  obtain ⟨d, k, t, hd, hinside, ht, hdigits, hpoint⟩ := Binary64.shortest_spec hx h
  have hlt := Binary64.lt_of_inside h hinside ht
  have hlength := length_le_twenty hlt
  rw [hdigits, List.length_append, List.length_replicate] at hlength
  obtain rfl := mantissa_split (s := x.shortest) hdigits
  have hne : mantissa x.shortest ≠ 0 := fun hzero => hd (by rw [hzero, Nat.zero_mul])
  have hexponent := Binary64.exponent_bounds hx h hne hinside ht
  refine ⟨leading_split hd hdigits,?_,?_,fun hbelow => ?_⟩
  · exact Nat.le_of_lt_succ ((Nat.le_mul_of_pos_right _ (by positivity)).trans_lt hlt)
  · rw [exponentLimit]
    omega
  · rw [hpoint, add_sub_cancel_left]
    exact Binary64.scaleDecimal_of_inside hx h hbelow hne hinside ht

theorem readable {x : Binary64} (hx : x.Finite) : Readable x := by
  cases hzero : x.isZero with
  | true => exact readable_zero hzero
  | false =>
    by_cases hbelow : x.Below
    · obtain ⟨hleading, hfits, hpoint, hscale⟩ := shortest_written hx hzero
      refine readable_of_readNumber (floatChars_eq hzero) fun p => ?_
      obtain ⟨significand, exponent, q, hle, hread, hq⟩ :=
        readNumber_decimalChars x.negative hleading hfits hpoint ends_nil p
      have hsome : ∃ y, Binary64.scaleDecimal (Binary64.ofInt significand) exponent = some y := by
        rcases hread with ⟨rfl, rfl⟩ | rfl
        · exact hscale hbelow
        · exact Binary64.scaleDecimal_isSome (Nat.lt_succ_of_le hle) (by decide)
            fun h => absurd h (by decide)
      obtain ⟨y, hy⟩ := floatAt_isSome hsome ⟨[],q⟩
      rw [List.append_nil] at hq
      exact ⟨y,q,hq.trans hy⟩
    · exact readable_last hx hbelow

end Unseal.Json
