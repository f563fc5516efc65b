import Unseal.Proofs.Json.NumberWritten
import Unseal.Proofs.Json.Pointer

/-!
# Where tokens lead

A walk goes from an object to the member whose key is the token, and from an array to the element
whose index has the token for its decimal text. It stops wherever a token names nothing. Walks one
behind the other are the walk of all their tokens.
-/

set_option autoImplicit false

namespace Unseal.Json.Pointer

/-! ## Indices -/

theorem exists_digitChar {c : Char} (h : c.isDigit) : ∃ d < 10, c = Nat.digitChar d := by
  have hrange : 48 ≤ c.toNat ∧ c.toNat ≤ 57 := by
    simpa [Char.isDigit, Char.le_def, UInt32.le_iff_toNat_le] using h
  refine ⟨c.toNat - 48,by omega,Char.toNat_inj.mp ?_⟩
  rw [Nat.toNat_digitChar_of_lt_ten (by omega)]
  omega

theorem toDigits_append_digits {cs : List Char} {n : Nat} (hn : 0 < n)
    (h : ∀ c ∈ cs, c.isDigit) :
    Nat.toDigits 10 n ++ cs = Nat.toDigits 10 (Nat.ofDigitChars 10 cs n) := by
  induction cs generalizing n with
  | nil => exact List.append_nil _
  | cons c cs ih =>
    obtain ⟨hc, hcs⟩ := List.forall_mem_cons.mp h
    obtain ⟨d, hd, rfl⟩ := exists_digitChar hc
    have hlonger := Nat.toDigits_append_toDigits (b := 10) (by decide) hn hd
    rw [Nat.toDigits_of_lt_base hd] at hlonger
    rw [Nat.ofDigitChars_cons_digitChar_of_lt_ten hd, ← ih (by omega) hcs, ← hlonger,
      List.append_assoc, List.singleton_append]

theorem toDigits_ofDigitChars {c : Char} {cs : List Char} (hc : c ≠ '0')
    (h : ∀ d ∈ c :: cs, d.isDigit) :
    Nat.toDigits 10 (Nat.ofDigitChars 10 (c :: cs) 0) = c :: cs := by
  obtain ⟨hdigit, hcs⟩ := List.forall_mem_cons.mp h
  obtain ⟨d, hd, rfl⟩ := exists_digitChar hdigit
  have hpos : 0 < d := Nat.pos_of_ne_zero fun hz => hc (by rw [hz]; rfl)
  rw [Nat.ofDigitChars_cons_digitChar_of_lt_ten hd, Nat.mul_zero, Nat.zero_add,
    ← toDigits_append_digits hpos hcs, Nat.toDigits_of_lt_base hd, List.singleton_append]

theorem foldl_digits (cs : List Char) :
    cs.foldl (fun n d => n * 10 + (d.toNat - 48)) 0 = Nat.ofDigitChars 10 cs 0 := by
  simp only [Nat.ofDigitChars_eq_foldl, Nat.mul_comm]
  rfl

theorem toList_toString (n : Nat) : (toString n).toList = Nat.toDigits 10 n := by
  rw [Nat.toString_eq_repr, Nat.toList_repr]

/-- The canonical text of a number has digits only, the first of them no zero unless it stands
alone. -/
theorem index?_eq_some_iff {token : String} {i : Nat} :
    index? token = some i ↔ token = toString i ∧ i ≤ 0xffffffffffffffff := by
  rw [← String.toList_inj, toList_toString]
  unfold index?
  constructor
  · intro h
    split at h
    next => cases h
    next c htoken =>
      obtain ⟨hdigit, hvalue⟩ := Option.ite_none_right_eq_some.mp h
      obtain ⟨d, hd, rfl⟩ := exists_digitChar hdigit
      rw [Nat.toNat_digitChar_sub_48_of_lt_ten hd] at hvalue
      cases hvalue
      exact ⟨htoken.trans (Nat.toDigits_of_lt_base hd).symm,by omega⟩
    next c cs _ htoken =>
      obtain ⟨hcanonical, h⟩ := Option.ite_none_left_eq_some.mp h
      obtain ⟨hle, hvalue⟩ := Option.ite_none_right_eq_some.mp h
      obtain ⟨hzero, hdigits⟩ : c ≠ '0' ∧ ∀ d ∈ c :: cs, d.isDigit := by
        simpa using hcanonical
      rw [foldl_digits] at hle hvalue
      cases hvalue
      exact ⟨htoken.trans (toDigits_ofDigitChars hzero hdigits).symm,hle⟩
  · rintro ⟨htoken, hle⟩
    rw [htoken]
    rcases Nat.lt_or_ge i 10 with hlt | hge
    · rw [Nat.toDigits_of_lt_base hlt]
      simp [Nat.isDigit_digitChar, hlt, Nat.toNat_digitChar_sub_48_of_lt_ten hlt]
    · obtain ⟨d, ds, hds, hd⟩ := natChars_head (n := i / 10) (by omega)
      have hdigits : Nat.toDigits 10 i = d :: (ds ++ [(i % 10).digitChar]) := by
        rw [Nat.toDigits_of_base_le (by decide) hge, ← natChars, hds]
        rfl
      obtain ⟨e, es, he⟩ := List.exists_cons_of_ne_nil
        (List.append_ne_nil_of_right_ne_nil ds (List.cons_ne_nil (i % 10).digitChar []))
      rw [he] at hdigits
      have hall : ∀ c ∈ Nat.toDigits 10 i, c.isDigit :=
        fun c hc => Nat.isDigit_of_mem_toDigits (by decide) (by decide) hc
      have hvalue : Nat.ofDigitChars 10 (Nat.toDigits 10 i) 0 = i := Nat.ofDigitChars_ten_toDigits
      rw [hdigits] at hall hvalue ⊢
      have hcanonical : ¬(d = '0' ∨ !(d :: e :: es).all Char.isDigit) := by
        simpa using ⟨hd,by simpa using hall⟩
      simp only [foldl_digits, hvalue, if_neg hcanonical, if_pos hle]

/-! ## Walks -/

inductive Leads : List String → Json → Json → Prop
  | here (v : Json) : Leads [] v v
  | member {token : String} {ts : List String} {ms : List (String × Json)} {v x : Json} :
      Members.find? token ms = some v → Leads ts v x → Leads (token :: ts) (.obj ms) x
  | item {i : Nat} {ts : List String} {vs : List Json} {v x : Json} :
      i ≤ 0xffffffffffffffff → vs[i]? = some v → Leads ts v x →
      Leads (toString i :: ts) (.arr vs) x

theorem walk_eq_some_iff {ts : List String} {v x : Json} :
    walk ts v = some x ↔ Leads ts v x := by
  constructor
  · intro h
    induction ts generalizing v with
    | nil =>
      cases h
      exact .here _
    | cons token ts ih =>
      obtain ⟨w, hstep, hwalk⟩ := Option.bind_eq_some_iff.mp h
      cases v with
      | obj ms => exact .member hstep (ih hwalk)
      | arr vs =>
        obtain ⟨i, hi, hget⟩ := Option.bind_eq_some_iff.mp hstep
        obtain ⟨rfl, hle⟩ := index?_eq_some_iff.mp hi
        exact .item hle hget (ih hwalk)
      | _ => cases hstep
  · intro h
    induction h with
    | here => rfl
    | member hfind _ ih => exact Option.bind_eq_some_iff.mpr ⟨_,hfind,ih⟩
    | item hle hget _ ih =>
      have hstep := Option.bind_eq_some_iff.mpr ⟨_,index?_eq_some_iff.mpr ⟨rfl,hle⟩,hget⟩
      exact Option.bind_eq_some_iff.mpr ⟨_,hstep,ih⟩

theorem leads_key_iff {key : String} {ms : List (String × Json)} {x : Json} :
    Leads [key] (.obj ms) x ↔ Members.find? key ms = some x := by
  simp [← walk_eq_some_iff, walk, step]

theorem walk_append (ts us : List String) (v : Json) :
    walk (ts ++ us) v = (walk ts v).bind (walk us) := by
  induction ts generalizing v with
  | nil => rfl
  | cons token ts ih =>
    rw [List.cons_append, walk, walk, Option.bind_assoc]
    exact congrArg _ (funext ih)

end Unseal.Json.Pointer
