import Unseal.Proofs.Json.Reading
import Unseal.Json.Writer

/-!
# Written numbers read back

What a number is read as depends only on the characters that it takes, whatever ends it. So a
number that is read from its digits alone is read from them inside a longer text.
-/

set_option autoImplicit false

namespace Unseal.Json

/-- No number goes on here. -/
def Ends (rest : List Char) : Prop :=
  ∀ x xs, rest = x :: xs → isDigit x = false ∧ x ≠ '.' ∧ x ≠ 'e' ∧ x ≠ 'E'

theorem ends_nil : Ends [] := nofun

theorem ends_cons {x : Char} {xs : List Char} (hd : isDigit x = false) (hp : x ≠ '.')
    (he : x ≠ 'e') (hE : x ≠ 'E') : Ends (x :: xs) := by
  rintro y ys ⟨⟩
  exact ⟨hd,hp,he,hE⟩

def Stops (rest : List Char) : Prop := ∀ x xs, rest = x :: xs → isDigit x = false

theorem Ends.stops {rest : List Char} (h : Ends rest) : Stops rest := fun x xs hr => (h x xs hr).1

theorem Stops.takeWhile (ds : List Char) {rest : List Char} (h : Stops rest)
    (hd : ∀ d ∈ ds, isDigit d) :
    (ds ++ rest).takeWhile isDigit = ds ∧ (ds ++ rest).dropWhile isDigit = rest := by
  have hrest : rest.takeWhile isDigit = [] ∧ rest.dropWhile isDigit = rest := by
    cases rest with
    | nil => exact ⟨rfl,rfl⟩
    | cons x xs => simp [h x xs rfl]
  rw [List.takeWhile_append_of_pos hd, List.dropWhile_append_of_pos hd]
  simp [hrest]

theorem stops_dropWhile (cs : List Char) : Stops (cs.dropWhile isDigit) := by
  intro x xs hx
  have hne : cs.dropWhile isDigit ≠ [] := by simp [hx]
  have hhead := List.head_dropWhile_not isDigit hne
  simpa [hx] using hhead

theorem isDigit_of_mem_takeWhile {d : Char} {cs : List Char} (h : d ∈ cs.takeWhile isDigit) :
    isDigit d := List.all_eq_true.mp (List.all_takeWhile ..) d h

/-- A reader that looks no further than the characters it takes. -/
def Local (read : Cursor → Except Fault (Number × Cursor)) : Prop :=
  ∀ ⦃c c' : Cursor⦄ ⦃n : Number⦄, read c = .ok (n, c') → ∃ used, c.rest = used ++ c'.rest ∧
    ∀ rest, Ends rest → ∀ p, ∃ q, read ⟨used ++ rest, p⟩ = .ok (n, ⟨rest, q⟩)

theorem numberAt_place {r : Option Number} {c c' : Cursor} {n : Number}
    (h : numberAt r c = .ok (n, c')) (d : Cursor) : numberAt r d = .ok (n, d) := by
  cases r with
  | none => cases h
  | some m => cases h; rfl

theorem local_readExponentDigits (negative : Bool) (significand : Nat) (exponent : Int)
    (minus : Bool) : Local (readExponentDigits negative significand exponent minus) := by
  intro c c' n h
  obtain ⟨d, ds, hc, hd, rfl⟩ := readExponentDigits_cursor h
  refine ⟨c.rest.takeWhile isDigit,List.takeWhile_append_dropWhile.symm,?_⟩
  intro rest hrest p
  obtain ⟨htake, hdrop⟩ := hrest.stops.takeWhile (c.rest.takeWhile isDigit)
    fun _ => isDigit_of_mem_takeWhile
  have hused : c.rest.takeWhile isDigit = d :: ds.takeWhile isDigit := by
    rw [hc, List.takeWhile_cons_of_pos hd]
  refine ⟨p.skip (c.rest.takeWhile isDigit).length,?_⟩
  unfold readExponentDigits at h ⊢
  rw [hc] at h
  simp only [htake, hdrop]
  rw [hused] at htake hdrop ⊢
  simp only [List.cons_append, hd, if_true] at h ⊢
  rw [List.takeWhile_cons_of_pos hd] at h
  generalize absorb exponentLimit 0 (d :: ds.takeWhile isDigit) = r at h ⊢
  obtain ⟨e, _ | ⟨x, more⟩⟩ := r
  · exact numberAt_place h _
  · dsimp only at h ⊢
    split at h
    · cases h
    next hm =>
      rw [if_neg hm]
      cases h
      rfl

theorem Local.after {read : Cursor → Except Fault (Number × Cursor)} (hr : Local read) {x : Char}
    {cs ds : List Char} {p : Place} {n : Number} {c' : Cursor} (hc : ds = x :: cs)
    (h : read ⟨cs, p⟩ = .ok (n, c')) :
    ∃ used, ds = x :: used ++ c'.rest ∧
      ∀ rest, Ends rest → ∀ p, ∃ q, read ⟨used ++ rest, p⟩ = .ok (n, ⟨rest, q⟩) := by
  obtain ⟨used, hu, hread⟩ := hr h
  exact ⟨used,by rw [hc, List.cons_append, ← hu],hread⟩

theorem local_readExponent (negative : Bool) (significand : Nat) (exponent : Int) :
    Local (readExponent negative significand exponent) := by
  intro c c' n h
  unfold readExponent at h
  split at h
  next hc =>
    obtain ⟨used, hu, hread⟩ := (local_readExponentDigits _ _ _ _).after hc h
    exact ⟨'+' :: used,hu,fun rest hrest p => hread rest hrest (p.skip 1)⟩
  next hc =>
    obtain ⟨used, hu, hread⟩ := (local_readExponentDigits _ _ _ _).after hc h
    exact ⟨'-' :: used,hu,fun rest hrest p => hread rest hrest (p.skip 1)⟩
  next =>
    obtain ⟨used, hu, hread⟩ := local_readExponentDigits _ _ _ _ h
    refine ⟨used,hu,fun rest hrest p => ?_⟩
    obtain ⟨q, hq⟩ := hread rest hrest p
    obtain ⟨d, ds, hd, hdig, -⟩ := readExponentDigits_cursor hq
    refine ⟨q,?_⟩
    unfold readExponent
    split
    next hr =>
      rw [hd] at hr
      cases hr
      cases hdig
    next hr =>
      rw [hd] at hr
      cases hr
      cases hdig
    next => exact hq

def afterFraction (negative : Bool) (significand : Nat) (exponent : Int) (c : Cursor) :
    Except Fault (Number × Cursor) :=
  match c.rest with
  | 'e' :: cs => readExponent negative significand exponent ⟨cs, c.place.skip 1⟩
  | 'E' :: cs => readExponent negative significand exponent ⟨cs, c.place.skip 1⟩
  | _ => floatAt negative significand exponent c

theorem readFraction_digits (negative : Bool) (significand : Nat) (exponent : Int)
    {ds rest : List Char} (hne : ds ≠ []) (hd : ∀ d ∈ ds, isDigit d) (hr : Stops rest) (p : Place) :
    readFraction negative significand exponent ⟨ds ++ rest, p⟩ =
      afterFraction negative (absorb significandLimit significand ds).1
        (exponent - (ds.length - (absorb significandLimit significand ds).2.length : Nat))
        ⟨rest, p.skip ds.length⟩ := by
  obtain ⟨htake, hdrop⟩ := hr.takeWhile _ hd
  unfold readFraction
  simp only [htake, hdrop, List.isEmpty_iff, hne, if_false]
  rfl

theorem local_afterFraction (negative : Bool) (significand : Nat) (exponent : Int) :
    Local (afterFraction negative significand exponent) := by
  intro c c' n h
  unfold afterFraction at h
  split at h
  next hc =>
    obtain ⟨used, hu, hread⟩ := (local_readExponent _ _ _).after hc h
    exact ⟨'e' :: used,hu,fun rest hrest p => hread rest hrest (p.skip 1)⟩
  next hc =>
    obtain ⟨used, hu, hread⟩ := (local_readExponent _ _ _).after hc h
    exact ⟨'E' :: used,hu,fun rest hrest p => hread rest hrest (p.skip 1)⟩
  next =>
    obtain rfl := floatAt_cursor h
    refine ⟨[],rfl,fun rest hrest p => ⟨p,?_⟩⟩
    unfold afterFraction
    split
    next hr => exact absurd rfl (hrest _ _ hr).2.2.1
    next hr => exact absurd rfl (hrest _ _ hr).2.2.2
    next => exact numberAt_place h _

/-- What follows the digits does not begin with one, whatever comes after the number. -/
theorem stops_append {used tail rest : List Char} (ht : Stops (used ++ tail)) (hr : Ends rest) :
    Stops (used ++ rest) := by
  cases used with
  | nil => exact hr.stops
  | cons x xs =>
    rintro y ys ⟨⟩
    exact ht x _ rfl

theorem local_readFraction (negative : Bool) (significand : Nat) (exponent : Int) :
    Local (readFraction negative significand exponent) := by
  intro c c' n h
  have hall : ∀ d ∈ c.rest.takeWhile isDigit, isDigit d := fun _ => isDigit_of_mem_takeWhile
  have hsplit : c.rest.takeWhile isDigit ++ c.rest.dropWhile isDigit = c.rest :=
    List.takeWhile_append_dropWhile
  by_cases hne : c.rest.takeWhile isDigit = []
  · unfold readFraction at h
    simp [hne] at h
  · have hc : c = ⟨c.rest.takeWhile isDigit ++ c.rest.dropWhile isDigit, c.place⟩ := by
      rw [hsplit]
    rw [hc, readFraction_digits _ _ _ hne hall (stops_dropWhile _)] at h
    obtain ⟨used, hu, hread⟩ := local_afterFraction _ _ _ h
    dsimp only at hu
    refine ⟨c.rest.takeWhile isDigit ++ used,?_,fun rest hrest p => ?_⟩
    · rw [List.append_assoc, ← hu, hsplit]
    · have hstops := stops_append (hu ▸ stops_dropWhile c.rest) hrest
      rw [List.append_assoc, readFraction_digits _ _ _ hne hall hstops]
      exact hread rest hrest _

theorem local_readTail (negative : Bool) (significand dropped : Nat) :
    Local (readTail negative significand dropped) := by
  intro c c' n h
  unfold readTail at h
  split at h
  next hc =>
    obtain ⟨used, hu, hread⟩ := (local_readFraction _ _ _).after hc h
    exact ⟨'.' :: used,hu,fun rest hrest p => hread rest hrest (p.skip 1)⟩
  next hc =>
    obtain ⟨used, hu, hread⟩ := (local_readExponent _ _ _).after hc h
    exact ⟨'e' :: used,hu,fun rest hrest p => hread rest hrest (p.skip 1)⟩
  next hc =>
    obtain ⟨used, hu, hread⟩ := (local_readExponent _ _ _).after hc h
    exact ⟨'E' :: used,hu,fun rest hrest p => hread rest hrest (p.skip 1)⟩
  next =>
    have hcur : c' = c := by
      split at h
      · cases h; rfl
      · exact floatAt_cursor h
    subst hcur
    refine ⟨[],rfl,fun rest hrest p => ⟨p,?_⟩⟩
    unfold readTail
    split
    next hr => exact absurd rfl (hrest _ _ hr).2.1
    next hr => exact absurd rfl (hrest _ _ hr).2.2.1
    next hr => exact absurd rfl (hrest _ _ hr).2.2.2
    next =>
      split at h
      next hz =>
        rw [if_pos hz]
        cases h
        rfl
      next hz =>
        rw [if_neg hz]
        exact numberAt_place h _

theorem readNumber_zero (negative : Bool) {rest : List Char} (hr : Stops rest) (p : Place) :
    readNumber negative ⟨'0' :: rest, p⟩ = readTail negative 0 0 ⟨rest, p.skip 1⟩ := by
  cases rest with
  | nil => rfl
  | cons x xs => simp [readNumber, hr x xs rfl]

theorem readNumber_digits (negative : Bool) {d : Char} {ds rest : List Char} (hd : d ≠ '0')
    (hall : ∀ x ∈ d :: ds, isDigit x) (hr : Stops rest) (p : Place) :
    readNumber negative ⟨d :: ds ++ rest, p⟩ =
      readTail negative (absorb significandLimit 0 (d :: ds)).1
        (absorb significandLimit 0 (d :: ds)).2.length
        ⟨rest, p.skip (d :: ds).length⟩ := by
  obtain ⟨htake, hdrop⟩ := hr.takeWhile _ hall
  unfold readNumber
  simp only [htake, hdrop]
  simp only [List.cons_append, hd, hall d (by simp), if_true, if_false]

theorem local_readNumber (negative : Bool) : Local (readNumber negative) := by
  intro c c' n h
  obtain ⟨cs, p⟩ := c
  cases cs with
  | nil => cases h
  | cons d cs =>
    by_cases hd : d = '0'
    · subst hd
      have hstops : Stops cs := by
        rintro x xs rfl
        cases hx : isDigit x with
        | true => simp [readNumber, hx] at h
        | false => rfl
      rw [readNumber_zero _ hstops] at h
      obtain ⟨used, hu, hread⟩ := local_readTail _ _ _ h
      dsimp only at hu
      refine ⟨'0' :: used,by rw [List.cons_append, ← hu],fun rest hrest p => ?_⟩
      rw [List.cons_append, readNumber_zero _ (stops_append (hu ▸ hstops) hrest)]
      exact hread rest hrest _
    · have hdig : isDigit d := by
        cases hx : isDigit d with
        | true => rfl
        | false => simp [readNumber, hd, hx] at h
      have hall : ∀ x ∈ d :: cs.takeWhile isDigit, isDigit x := by
        simpa [hdig] using fun x (hx : x ∈ cs.takeWhile isDigit) => isDigit_of_mem_takeWhile hx
      have hsplit : cs = cs.takeWhile isDigit ++ cs.dropWhile isDigit :=
        List.takeWhile_append_dropWhile.symm
      have hcons : d :: cs = d :: cs.takeWhile isDigit ++ cs.dropWhile isDigit := by
        rw [List.cons_append, ← hsplit]
      rw [hcons, readNumber_digits _ hd hall (stops_dropWhile _)] at h
      obtain ⟨used, hu, hread⟩ := local_readTail _ _ _ h
      dsimp only at hu
      refine ⟨d :: cs.takeWhile isDigit ++ used,?_,fun rest hrest p => ?_⟩
      · rw [List.append_assoc, ← hu, ← hcons]
      · rw [List.append_assoc,
          readNumber_digits _ hd hall (stops_append (hu ▸ stops_dropWhile cs) hrest)]
        exact hread rest hrest _

/-! ## Integers -/

theorem le_ofDigitChars (ds : List Char) (value : Nat) : value ≤ Nat.ofDigitChars 10 ds value := by
  rw [Nat.ofDigitChars_eq_ofDigitChars_zero]
  exact Nat.le_trans (Nat.le_mul_of_pos_left _ (Nat.pow_pos (by decide))) (Nat.le_add_right _ _)

theorem absorb_all {limit value : Nat} {ds : List Char}
    (h : Nat.ofDigitChars 10 ds value ≤ limit) :
    absorb limit value ds = (Nat.ofDigitChars 10 ds value, []) := by
  induction ds generalizing value with
  | nil => rfl
  | cons d ds ih =>
    have hstep : Nat.ofDigitChars 10 (d :: ds) value =
        Nat.ofDigitChars 10 ds (value * 10 + digitValue d) := by
      rw [Nat.ofDigitChars_cons, Nat.mul_comm]
      rfl
    rw [hstep] at h ⊢
    rw [absorb, if_pos (Nat.le_trans (le_ofDigitChars _ _) h), ih h]

theorem isDigit_natChars {n : Nat} : ∀ d ∈ natChars n, isDigit d := by
  intro d hd
  have h := Nat.isDigit_of_mem_toDigits (by decide) (by decide) hd
  simpa [isDigit, Char.isDigit, Char.le_def] using h

theorem natChars_head {n : Nat} (h : 0 < n) : ∃ d ds, natChars n = d :: ds ∧ d ≠ '0' := by
  unfold natChars
  induction n using Nat.base_induction 10 (by decide) with
  | single m hm =>
    have hne : ∀ m < 10, 0 < m → m.digitChar ≠ '0' := by decide
    exact ⟨_,[],Nat.toDigits_of_lt_base hm,hne m hm h⟩
  | digit m k hk hm ih =>
    obtain ⟨d, ds, hds, hd⟩ := ih hm
    rw [← Nat.toDigits_append_toDigits (by decide) hm hk, hds]
    exact ⟨d,ds ++ Nat.toDigits 10 k,rfl,hd⟩

theorem readNumber_natChars (negative : Bool) {n : Nat} (hn : n ≤ significandLimit)
    {rest : List Char} (hr : Ends rest) (p : Place) :
    ∃ q, readNumber negative ⟨natChars n ++ rest, p⟩ =
      .ok (integerNumber negative n, ⟨rest, q⟩) := by
  have htail : ∀ p,
      readTail negative n 0 ⟨rest, p⟩ = .ok (integerNumber negative n, ⟨rest, p⟩) := by
    intro p
    unfold readTail
    split
    next h => exact absurd rfl (hr _ _ h).2.1
    next h => exact absurd rfl (hr _ _ h).2.2.1
    next h => exact absurd rfl (hr _ _ h).2.2.2
    next => rw [if_pos rfl]
  by_cases hz : n = 0
  · subst hz
    refine ⟨p.skip 1,?_⟩
    rw [natChars, Nat.toDigits_zero]
    exact (readNumber_zero negative hr.stops p).trans (htail _)
  · obtain ⟨d, ds, hds, hd⟩ := natChars_head (Nat.pos_of_ne_zero hz)
    have hvalue : Nat.ofDigitChars 10 (d :: ds) 0 = n := hds ▸ Nat.ofDigitChars_ten_toDigits
    have habsorb : absorb significandLimit 0 (d :: ds) = (n, []) := by
      rw [absorb_all (by rw [hvalue]; exact hn), hvalue]
    refine ⟨p.skip (d :: ds).length,?_⟩
    rw [hds, readNumber_digits negative hd (hds ▸ isDigit_natChars) hr.stops, habsorb]
    exact htail _

end Unseal.Json
