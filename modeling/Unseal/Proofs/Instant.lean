import Mathlib.Algebra.Group.Nat.Defs
import Unseal.Instant.Reader
import Unseal.Proofs.Json.NumberWritten

/-!
# Instants read back

Every number of a written instant has the width that its reader takes, or a mark after it that is
no digit, so the reader finds the parts where the writer put them. The leap second alone is put
together from two parts.
-/

set_option autoImplicit false

namespace Unseal.Instant

open Json (isDigit digitValue Stops isDigit_natChars)

/-! ## Padded numbers -/

theorem isDigit_padded {width n : Nat} : ∀ d ∈ padded width n, isDigit d := by
  intro d hd
  rcases List.mem_append.mp hd with hzero | hdigit
  · rw [List.eq_of_mem_replicate hzero]
    rfl
  · exact isDigit_natChars d hdigit

theorem padded_ne_nil {width n : Nat} : padded width n ≠ [] := by
  intro h
  exact Nat.toDigits_ne_nil (List.append_eq_nil_iff.mp h).2

theorem length_padded {width n : Nat} (hw : 0 < width) (hn : n < 10 ^ width) :
    (padded width n).length = width := by
  have hlen := (Nat.length_toDigits_le_iff (by decide : 1 < 10) hw).mpr hn
  simp only [padded, List.length_append, List.length_replicate]
  omega

theorem digitsValue_eq (ds : List Char) : digitsValue ds = Nat.ofDigitChars 10 ds 0 := by
  unfold digitsValue Nat.ofDigitChars digitValue
  simp only [Nat.mul_comm]
  rfl

theorem digitsValue_padded (width n : Nat) : digitsValue (padded width n) = n := by
  have hzeros : ∀ k ds, digitsValue (List.replicate k '0' ++ ds) = digitsValue ds := by
    intro k ds
    induction k with
    | zero => rfl
    | succ k ih => exact ih
  rw [padded, hzeros, digitsValue_eq, Nat.ofDigitChars_ten_toDigits]

/-! ## One part after another -/

theorem not_blank_of_isDigit {d : Char} (h : isDigit d) : Text.isBlank d = false := by
  have hrange : '0' ≤ d ∧ d ≤ '9' := by simpa [isDigit] using h
  have hlow : 48 ≤ d.toNat := hrange.1
  have hhigh : d.toNat ≤ 57 := hrange.2
  simp only [Text.isBlank]
  simp
  omega

theorem trimStart_cons {c : Char} (h : Text.isBlank c = false) (cs : List Char) :
    Text.trimStart (c :: cs) = c :: cs :=
  List.dropWhile_cons_of_neg (by simp [h])

theorem trimStart_digits {ds : List Char} (hne : ds ≠ []) (hd : ∀ d ∈ ds, isDigit d)
    (rest : List Char) : Text.trimStart (ds ++ rest) = ds ++ rest := by
  cases ds with
  | nil => exact absurd rfl hne
  | cons d ds => exact trimStart_cons (not_blank_of_isDigit (hd d (by simp))) _

/-- Digits end where the reader's width ends, or before something that is no digit. -/
theorem readDigits_digits {width : Nat} {ds rest : List Char} (hne : ds ≠ [])
    (hd : ∀ d ∈ ds, isDigit d) (hend : ds.length = width ∨ ds.length ≤ width ∧ Stops rest) :
    readDigits width (ds ++ rest) = .ok (ds, rest) := by
  have htake : ((ds ++ rest).take width).takeWhile isDigit = ds := by
    rcases hend with rfl | ⟨hle, hstops⟩
    · have hall : (ds ++ []).takeWhile isDigit = ds ++ [].takeWhile isDigit :=
        List.takeWhile_append_of_pos hd
      rw [List.take_left]
      simpa using hall
    · have hrest : Stops (rest.take (width - ds.length)) := by
        intro x xs hx
        cases rest with
        | nil => simp at hx
        | cons y ys =>
          have hxy : x = y := by
            cases hk : width - ds.length with
            | zero => simp [hk] at hx
            | succ k => simp [hk] at hx; exact hx.1.symm
          exact hxy ▸ hstops y ys rfl
      rw [List.take_append, List.take_of_length_le hle, (hrest.takeWhile ds hd).1]
  cases ds with
  | nil => exact absurd rfl hne
  | cons d ds =>
    have hfirst : isDigit d := hd d (by simp)
    rw [List.cons_append] at htake ⊢
    rw [readDigits, if_pos hfirst, htake, ← List.cons_append]
    exact congrArg (fun cs => Except.ok (d :: ds, cs)) List.drop_left

theorem readDigits_padded {width n : Nat} (hw : 0 < width) (hn : n < 10 ^ width)
    (rest : List Char) : readDigits width (padded width n ++ rest) = .ok (padded width n, rest) :=
  readDigits_digits padded_ne_nil isDigit_padded (.inl (length_padded hw hn))

theorem readField_padded {low high n : Nat} (hlow : low ≤ n) (hhigh : n ≤ high) (hn : n < 100)
    (rest : List Char) : readField low high (padded 2 n ++ rest) = .ok (n, rest) := by
  rw [readField, trimStart_digits padded_ne_nil isDigit_padded,
    readDigits_padded (by decide) hn]
  simp only [bind, Except.bind, digitsValue_padded, hlow, hhigh, and_self, if_true]

theorem readMark_self {mark : Char} (h : Text.isBlank mark = false) (rest : List Char) :
    readMark mark (mark :: rest) = .ok rest := by
  rw [readMark, trimStart_cons h]
  simp

theorem readYear_four {n : Nat} (hn : n < 10 ^ 4) (rest : List Char) :
    readYear (padded 4 n ++ rest) = .ok ((n : Int), rest) := by
  have hread := readDigits_padded (by decide : 0 < 4) hn rest
  have hsign : ∀ d ∈ padded 4 n, d ≠ '-' ∧ d ≠ '+' := by
    intro d hd
    have hdigit := isDigit_padded d hd
    constructor <;> (rintro rfl; cases hdigit)
  unfold readYear
  rw [trimStart_digits padded_ne_nil isDigit_padded]
  cases hp : padded 4 n with
  | nil => exact absurd hp padded_ne_nil
  | cons d ds =>
    obtain ⟨hminus, hplus⟩ := hsign d (hp ▸ List.mem_cons_self)
    have hvalue : digitsValue (d :: ds) = n := hp ▸ digitsValue_padded 4 n
    rw [hp] at hread
    dsimp only [List.cons_append] at hread ⊢
    split
    next h => exact absurd (List.cons.inj h).1 hminus
    next h => exact absurd (List.cons.inj h).1 hplus
    next =>
      rw [hread]
      simp only [bind, Except.bind, pure, Except.pure, hvalue]
      rw [if_pos (by omega)]

theorem readYear_signed {y : Int} (hy : -0x80000000 ≤ y ∧ y ≤ 0x7fffffff) {rest : List Char}
    (hrest : Stops rest) :
    readYear ((if y < 0 then '-' else '+') :: padded 4 y.natAbs ++ rest) = .ok (y, rest) := by
  have hread : readDigits (padded 4 y.natAbs ++ rest).length (padded 4 y.natAbs ++ rest) =
      .ok (padded 4 y.natAbs, rest) := by
    refine readDigits_digits padded_ne_nil isDigit_padded (.inr ⟨?_,hrest⟩)
    rw [List.length_append]
    exact Nat.le_add_right _ _
  unfold readYear
  split
  next hneg =>
    rw [List.cons_append, trimStart_cons (by decide)]
    dsimp only
    split
    next h =>
      obtain ⟨-, rfl⟩ := List.cons.inj h
      rw [hread]
      simp only [bind, Except.bind, pure, Except.pure, digitsValue_padded]
      rw [show (-(y.natAbs : Int)) = y by omega, if_pos hy]
    next h => exact absurd (List.cons.inj h).1 (by decide)
    next h _ => exact absurd rfl (h _)
  next hpos =>
    rw [List.cons_append, trimStart_cons (by decide)]
    dsimp only
    split
    next h => exact absurd (List.cons.inj h).1 (by decide)
    next h =>
      obtain ⟨-, rfl⟩ := List.cons.inj h
      rw [hread]
      simp only [bind, Except.bind, pure, Except.pure, digitsValue_padded]
      rw [show (y.natAbs : Int) = y by omega, if_pos hy]
    next _ h => exact absurd rfl (h _)

theorem readYear_yearChars {y : Int} (hy : -0x80000000 ≤ y ∧ y ≤ 0x7fffffff) {rest : List Char}
    (hrest : Stops rest) : readYear (yearChars y ++ rest) = .ok (y, rest) := by
  unfold yearChars
  split
  next hfour =>
    have hlt : y.toNat < 10 ^ 4 := by omega
    rw [readYear_four hlt rest, Int.toNat_of_nonneg hfour.1]
  next => exact readYear_signed hy hrest

theorem readFraction_fractionChars {n : Nat} (hn : n < 1000000000) {rest : List Char}
    (hrest : Stops rest) (hdot : ∀ cs, rest ≠ '.' :: cs) :
    readFraction (fractionChars n ++ rest) = .ok (n, rest) := by
  have hdrop : rest.dropWhile isDigit = rest := (hrest.takeWhile [] (List.forall_mem_nil _)).2
  have hpart : ∀ {width part : Nat}, 0 < width → width ≤ 9 → part < 10 ^ width →
      readFraction ('.' :: padded width part ++ rest) = .ok (part * 10 ^ (9 - width), rest) := by
    intro width part hpos hwidth hlt
    have hlen := length_padded hpos hlt
    have hread : readDigits 9 (padded width part ++ rest) = .ok (padded width part, rest) :=
      readDigits_digits padded_ne_nil isDigit_padded (.inr ⟨by omega,hrest⟩)
    rw [List.cons_append, readFraction, hread]
    simp only [bind, Except.bind, digitsValue_padded, hlen, hdrop]
    rfl
  unfold fractionChars
  split
  next hzero =>
    rw [hzero, List.nil_append]
    unfold readFraction
    split
    next h => exact absurd rfl (hdot _)
    next => rfl
  split
  next =>
    rw [hpart (by decide) (by decide) (by omega)]
    exact congrArg (fun k => Except.ok (k, rest)) (by omega)
  split
  next =>
    rw [hpart (by decide) (by decide) (by omega)]
    exact congrArg (fun k => Except.ok (k, rest)) (by omega)
  next =>
    rw [hpart (by decide) (by decide) (by omega)]
    exact congrArg (fun k => Except.ok (k, rest)) (by omega)

/-! ## The whole -/

theorem of?_self (d : Date) : Date.of? d.year d.month d.day = some d := by
  rw [Date.of?, dif_pos d.inYears, dif_pos d.inYear, dif_pos d.inMonth]

theorem ofLocal?_zero (t : Instant) : ofLocal? t.date t.second t.nano 0 t.inSecond = some t := by
  obtain ⟨date, second, nano, inDay, inSecond⟩ := t
  have hlow : ¬ (second : Int) - 0 * 60 < 0 := by omega
  have hhigh : ¬ 86400 ≤ (second : Int) - 0 * 60 := by omega
  have hsecond : (((second : Int) - 0 * 60) % 86400).toNat = second := by omega
  simp only [ofLocal?, if_neg hlow, if_neg hhigh, Option.map_some, hsecond]

/-- The second 60 that stands for a nanosecond past `10^9` is taken back. -/
theorem ofParts_parts (t : Instant) :
    ofParts t.date.year t.date.month t.date.day (t.second / 3600) (t.second / 60 % 60)
      (t.second % 60 + t.nano / 1000000000) (t.nano % 1000000000) 0 = .ok t := by
  have hin := t.inSecond
  have hleap : (if t.second % 60 + t.nano / 1000000000 = 60 then 1 else 0) =
      t.nano / 1000000000 := by
    split <;> omega
  have hsecond : t.second / 3600 * 3600 + t.second / 60 % 60 * 60 +
      (t.second % 60 + t.nano / 1000000000 - t.nano / 1000000000) = t.second := by omega
  have hnano : t.nano % 1000000000 + t.nano / 1000000000 * 1000000000 = t.nano := by omega
  unfold ofParts
  simp only [of?_self, hleap, hsecond, hnano]
  rw [if_pos (by decide), dif_pos hin, ofLocal?_zero]

theorem monthLength_le (year : Int) (month : Nat) : monthLength year month ≤ 31 := by
  unfold monthLength
  split
  · split <;> decide
  · split <;> decide

theorem readChars_chars (t : Instant) : readChars t.chars = .ok t := by
  have hyears := t.date.inYears
  have hyear := t.date.inYear
  have hmonth := t.date.inMonth
  have hlength := monthLength_le t.date.year t.date.month
  have hday := t.inDay
  have hsecond := t.inSecond
  have hstops : ∀ (c : Char) (cs : List Char), isDigit c = false → Stops (c :: cs) := by
    rintro c cs hc x xs ⟨⟩
    exact hc
  unfold readChars chars
  rw [readYear_yearChars (by omega) (hstops _ _ rfl)]
  simp only [bind, Except.bind]
  rw [readMark_self (by decide)]
  dsimp only
  rw [readField_padded hyear.1 hyear.2 (by omega)]
  dsimp only
  rw [readMark_self (by decide)]
  dsimp only
  rw [readField_padded hmonth.1 (by omega) (by omega)]
  dsimp only
  rw [if_pos (by decide), readField_padded (Nat.zero_le _) (by omega) (by omega)]
  dsimp only
  rw [readMark_self (by decide)]
  dsimp only
  rw [readField_padded (Nat.zero_le _) (by omega) (by omega)]
  dsimp only
  rw [readMark_self (by decide)]
  dsimp only
  rw [readField_padded (Nat.zero_le _) (by omega) (by omega)]
  dsimp only
  rw [readFraction_fractionChars (by omega) (hstops _ _ rfl) (by simp)]
  exact ofParts_parts t

theorem read_text (t : Instant) : read t.text = .ok t := by
  rw [read, text, String.toList_ofList, readChars_chars]

end Unseal.Instant
