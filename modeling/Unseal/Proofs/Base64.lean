import Mathlib.Tactic.SplitIfs
import Unseal.Base64
import Unseal.Proofs.Traversal

/-!
# Base64 undone

Decoding an encoded text gives its bytes back, and nothing else can be decoded. The symbols carry
six bits each, and where a quad is padded the bits that the padding stands for are zero.
-/

set_option autoImplicit false

namespace Unseal.Base64

open Traversal

theorem value?_symbol : ∀ n < 64, value? (symbol n) = some n := by decide

theorem symbol_ne_padding : ∀ n < 64, symbol n ≠ padding := by decide

theorem symbol_lt : ∀ n < 64, symbol n < 128 := by decide

theorem valueAt_symbol (i : Nat) {n : Nat} (h : n < 64) : valueAt i (symbol n) = .ok n := by
  simp [valueAt, value?_symbol n h]

section Quad

variable (i : Nat) (a b c : UInt8)

theorem first_eq {p q : Nat} (hp : p = a.toNat / 4) (hq : q / 16 = a.toNat % 4) :
    first p q = a := by
  have h : p * 4 + q / 16 = a.toNat := by omega
  rw [first, h, UInt8.ofNat_toNat]

theorem second_eq {q r : Nat} (hq : q % 16 = b.toNat / 16) (hr : r / 4 = b.toNat % 16) :
    second q r = b := by
  have h : q % 16 * 16 + r / 4 = b.toNat := by omega
  rw [second, h, UInt8.ofNat_toNat]

theorem third_eq {r s : Nat} (hr : r % 4 = c.toNat / 64) (hs : s = c.toNat % 64) :
    third r s = c := by
  have h : r % 4 * 64 + s = c.toNat := by omega
  rw [third, h, UInt8.ofNat_toNat]

theorem threeBytes_symbols :
    threeBytes i (symbol (a.toNat / 4)) (symbol (a.toNat % 4 * 16 + b.toNat / 16))
      (symbol (b.toNat % 16 * 4 + c.toNat / 64)) (symbol (c.toNat % 64)) = .ok [a, b, c] := by
  have ha := a.toNat_lt
  have hb := b.toNat_lt
  have hc := c.toNat_lt
  rw [threeBytes, valueAt_symbol _ (by omega), valueAt_symbol _ (by omega),
    valueAt_symbol _ (by omega), valueAt_symbol _ (by omega)]
  change Except.ok [first _ _, second _ _, third _ _] = _
  rw [first_eq a rfl (by omega), second_eq b (by omega) (by omega), third_eq c (by omega) rfl]

theorem twoBytes_symbols :
    twoBytes i (symbol (a.toNat / 4)) (symbol (a.toNat % 4 * 16 + b.toNat / 16))
      (symbol (b.toNat % 16 * 4)) = .ok [a, b] := by
  have ha := a.toNat_lt
  have hb := b.toNat_lt
  rw [twoBytes, valueAt_symbol _ (by omega), valueAt_symbol _ (by omega),
    valueAt_symbol _ (by omega)]
  change (if b.toNat % 16 * 4 % 4 = 0 then Except.ok [first _ _, second _ _] else _) = _
  rw [if_pos (by omega), first_eq a rfl (by omega), second_eq b (by omega) (by omega)]

theorem oneByte_symbols :
    oneByte i (symbol (a.toNat / 4)) (symbol (a.toNat % 4 * 16)) = .ok [a] := by
  have ha := a.toNat_lt
  rw [oneByte, valueAt_symbol _ (by omega), valueAt_symbol _ (by omega)]
  change (if a.toNat % 4 * 16 % 16 = 0 then Except.ok [first _ _] else _) = _
  rw [if_pos (by omega), first_eq a rfl (by omega)]

end Quad

theorem decodeFrom_four (i : Nat) (a b c d : UInt8) :
    decodeFrom i [a, b, c, d] = decodeLast i [a, b, c, d] := by
  rw [decodeFrom]
  nofun

theorem decodeFrom_quad (i : Nat) (a b c d : UInt8) (rest : List UInt8) (hd : d ≠ padding)
    (hc : c ≠ padding) :
    decodeFrom i (a :: b :: c :: d :: rest) =
      threeBytes i a b c d >>= fun bytes => (decodeFrom (i + 4) rest).map (bytes ++ ·) := by
  cases rest with
  | nil =>
    rw [decodeFrom_four, decodeLast, if_pos hd, if_neg hc]
    cases threeBytes i a b c d with
    | error f => rfl
    | ok bytes => exact congrArg _ (List.append_nil _).symm
  | cons e rest =>
    rw [decodeFrom]
    cases threeBytes i a b c d with
    | error f => rfl
    | ok bytes => cases decodeFrom (i + 4) (e :: rest) <;> rfl

theorem decodeFrom_encode (i : Nat) (bs : List UInt8) : decodeFrom i (encode bs) = .ok bs := by
  fun_induction encode bs generalizing i with
  | case1 => rfl
  | case2 a =>
    rw [decodeFrom_four, decodeLast, if_neg (by simp), if_pos rfl]
    exact oneByte_symbols i a
  | case3 a b =>
    have hb := b.toNat_lt
    rw [decodeFrom_four, decodeLast, if_neg (by simp), if_neg (symbol_ne_padding _ (by omega))]
    exact twoBytes_symbols i a b
  | case4 a b c rest ih =>
    have hb := b.toNat_lt
    have hc := c.toNat_lt
    rw [decodeFrom_quad _ _ _ _ _ _ (symbol_ne_padding _ (by omega))
      (symbol_ne_padding _ (by omega)), threeBytes_symbols, ih]
    rfl

theorem length_encode (bs : List UInt8) : (encode bs).length % 4 = 0 := by
  fun_induction encode bs with
  | case1 => rfl
  | case2 => simp
  | case3 => simp
  | case4 a b c rest ih => simp only [List.length_cons]; omega

theorem decode_encode (bs : List UInt8) : decode (encode bs) = .ok bs := by
  have hlen := length_encode bs
  unfold decode
  split
  next b hb =>
    rw [if_neg (by omega)]
    exact decodeFrom_encode 0 bs
  next h =>
    have hnil := List.getLast?_eq_none_iff.mp h
    have hd := decodeFrom_encode 0 bs
    rw [hnil] at hd
    exact hd

theorem lt_of_mem_encode (bs : List UInt8) : ∀ b ∈ encode bs, b < 128 := by
  have hpad : padding < 128 := by decide
  fun_induction encode bs with
  | case1 => simp
  | case2 a =>
    have ha := a.toNat_lt
    simp [hpad, symbol_lt (a.toNat / 4) (by omega), symbol_lt (a.toNat % 4 * 16) (by omega)]
  | case3 a b =>
    have ha := a.toNat_lt
    have hb := b.toNat_lt
    simp [hpad, symbol_lt (a.toNat / 4) (by omega),
      symbol_lt (a.toNat % 4 * 16 + b.toNat / 16) (by omega),
      symbol_lt (b.toNat % 16 * 4) (by omega)]
  | case4 a b c rest ih =>
    have ha := a.toNat_lt
    have hb := b.toNat_lt
    have hc := c.toNat_lt
    simpa [symbol_lt (a.toNat / 4) (by omega),
      symbol_lt (a.toNat % 4 * 16 + b.toNat / 16) (by omega),
      symbol_lt (b.toNat % 16 * 4 + c.toNat / 64) (by omega),
      symbol_lt (c.toNat % 64) (by omega)] using ih

/-! ## Only encoded texts -/

theorem symbol_of_value? {b : UInt8} {n : Nat} (h : value? b = some n) :
    n < 64 ∧ symbol n = b := by
  have hb := b.toNat_lt
  have hbyte : ∀ k, k = b.toNat → UInt8.ofNat k = b := by
    rintro k rfl
    exact UInt8.ofNat_toNat
  simp only [value?] at h
  unfold symbol
  split_ifs at h <;> cases h <;> refine ⟨by omega,?_⟩
  · rw [if_pos (by omega)]
    exact hbyte _ (by omega)
  · rw [if_neg (by omega), if_pos (by omega)]
    exact hbyte _ (by omega)
  · rw [if_neg (by omega), if_neg (by omega), if_pos (by omega)]
    exact hbyte _ (by omega)
  · exact hbyte 43 (by omega)
  · exact hbyte 47 (by omega)

theorem valueAt_ok_iff {i n : Nat} {b : UInt8} :
    valueAt i b = .ok n ↔ n < 64 ∧ b = symbol n := by
  constructor
  · intro h
    unfold valueAt at h
    split at h
    next k hk =>
      cases h
      obtain ⟨hlt, hsymbol⟩ := symbol_of_value? hk
      exact ⟨hlt,hsymbol.symm⟩
    next => cases h
  · rintro ⟨hn, rfl⟩
    exact valueAt_symbol i hn

section Bits

variable {p q r s : Nat}

theorem toNat_first (hp : p < 64) (hq : q < 64) : (first p q).toNat = p * 4 + q / 16 := by
  show (p * 4 + q / 16) % 256 = _
  omega

theorem toNat_second (hr : r < 64) : (second q r).toNat = q % 16 * 16 + r / 4 := by
  show (q % 16 * 16 + r / 4) % 256 = _
  omega

theorem toNat_third (hs : s < 64) : (third r s).toNat = r % 4 * 64 + s := by
  show (r % 4 * 64 + s) % 256 = _
  omega

end Bits

variable {i : Nat} {a b c d : UInt8} {bs : List UInt8}

theorem encode_of_threeBytes (h : threeBytes i a b c d = .ok bs) :
    ∃ x y z, bs = [x, y, z] ∧ encode [x, y, z] = [a, b, c, d] := by
  unfold threeBytes at h
  simp only [bind_ok_iff, valueAt_ok_iff] at h
  obtain ⟨p, ⟨hp, rfl⟩, q, ⟨hq, rfl⟩, r, ⟨hr, rfl⟩, s, ⟨hs, rfl⟩, ⟨⟩⟩ := h
  refine ⟨first p q,second q r,third r s,rfl,?_⟩
  have h1 : (p * 4 + q / 16) / 4 = p := by omega
  have h2 : (p * 4 + q / 16) % 4 * 16 + (q % 16 * 16 + r / 4) / 16 = q := by omega
  have h3 : (q % 16 * 16 + r / 4) % 16 * 4 + (r % 4 * 64 + s) / 64 = r := by omega
  have h4 : (r % 4 * 64 + s) % 64 = s := by omega
  simp only [encode, toNat_first hp hq, toNat_second hr, toNat_third hs, h1, h2, h3, h4]

theorem encode_of_twoBytes (h : twoBytes i a b c = .ok bs) : encode bs = [a, b, c, padding] := by
  unfold twoBytes at h
  simp only [bind_ok_iff, valueAt_ok_iff] at h
  obtain ⟨p, ⟨hp, rfl⟩, q, ⟨hq, rfl⟩, r, ⟨hr, rfl⟩, h⟩ := h
  split at h
  next hzero =>
    cases h
    have h1 : (p * 4 + q / 16) / 4 = p := by omega
    have h2 : (p * 4 + q / 16) % 4 * 16 + (q % 16 * 16 + r / 4) / 16 = q := by omega
    have h3 : (q % 16 * 16 + r / 4) % 16 * 4 = r := by omega
    simp only [encode, toNat_first hp hq, toNat_second hr, h1, h2, h3]
  next => cases h

theorem encode_of_oneByte (h : oneByte i a b = .ok bs) : encode bs = [a, b, padding, padding] := by
  unfold oneByte at h
  simp only [bind_ok_iff, valueAt_ok_iff] at h
  obtain ⟨p, ⟨hp, rfl⟩, q, ⟨hq, rfl⟩, h⟩ := h
  split at h
  next hzero =>
    cases h
    have h1 : (p * 4 + q / 16) / 4 = p := by omega
    have h2 : (p * 4 + q / 16) % 4 * 16 = q := by omega
    simp only [encode, toNat_first hp hq, h1, h2]
  next => cases h

theorem encode_of_decodeLast {t : List UInt8} (ht : t.length ≤ 4) (h : decodeLast i t = .ok bs) :
    encode bs = t := by
  -- What is longer than a quad is ruled out, and what is shorter is refused.
  have hnil : ∀ {a b c d : UInt8} {rest : List UInt8},
      (a :: b :: c :: d :: rest).length ≤ 4 → rest = [] := by
    intro a b c d rest hlen
    apply List.length_eq_zero_iff.mp
    simp only [List.length_cons] at hlen
    omega
  fun_cases decodeLast i t with
  | case1 =>
    cases h
    rfl
  | case2 => simp [decodeLast, bind_ok_iff] at h
  | case3 => simp [decodeLast, bind_ok_iff] at h
  | case4 a b c => by_cases hc : c = padding <;> simp [decodeLast, bind_ok_iff, hc] at h
  | case5 a b d rest hd => simp [decodeLast, bind_ok_iff, hd] at h
  | case6 a b c d rest hd hc =>
    obtain rfl := hnil ht
    rw [decodeLast, if_pos hd, if_neg hc] at h
    obtain ⟨x, y, z, rfl, hquad⟩ := encode_of_threeBytes h
    exact hquad
  | case7 a b d rest hd =>
    obtain rfl := hnil ht
    obtain rfl := not_not.mp hd
    rw [decodeLast, if_neg hd, if_pos rfl] at h
    exact encode_of_oneByte h
  | case8 a b c d rest hd hc =>
    obtain rfl := hnil ht
    obtain rfl := not_not.mp hd
    rw [decodeLast, if_neg hd, if_neg hc] at h
    exact encode_of_twoBytes h

theorem encode_of_decodeFrom {t : List UInt8} (h : decodeFrom i t = .ok bs) : encode bs = t := by
  fun_induction decodeFrom i t generalizing bs with
  | case1 i a b c d e rest ih =>
    obtain ⟨quad, hquad, h⟩ := bind_ok_iff.mp h
    obtain ⟨more, hmore, ⟨⟩⟩ := bind_ok_iff.mp h
    obtain ⟨x, y, z, rfl, hfour⟩ := encode_of_threeBytes hquad
    show encode [x, y, z] ++ encode more = _
    rw [hfour, ih hmore]
    rfl
  | case2 i last hshort =>
    apply encode_of_decodeLast _ h
    by_contra hlong
    match last with
    | [] | [_] | [_, _] | [_, _, _] | [_, _, _, _] => simp at hlong
    | a :: b :: c :: d :: e :: rest => exact hshort a b c d e rest rfl

theorem encode_of_decode {t : List UInt8} (h : decode t = .ok bs) : encode bs = t := by
  unfold decode at h
  split at h
  next b hb =>
    split at h
    next => cases h
    next => exact encode_of_decodeFrom h
  next hnone =>
    cases h
    exact (List.getLast?_eq_none_iff.mp hnone).symm

theorem decode_ok_iff {t : List UInt8} : decode t = .ok bs ↔ t = encode bs := by
  constructor
  · intro h
    exact (encode_of_decode h).symm
  · rintro rfl
    exact decode_encode bs

end Unseal.Base64
