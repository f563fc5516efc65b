import Unseal.Proofs.Traversal
import Unseal.Text.Utf8

/-!
# UTF-8 undone

Decoding the bytes of a text gives the text back, character by character, in the four lengths
that a character is written in, and no other bytes can be decoded.
-/

set_option autoImplicit false

namespace Unseal.Utf8

open Traversal

/-- A byte by its number, so that comparisons of bytes become arithmetic. -/
theorem toNat_ofNat_lt {n : Nat} (h : n < 256) : (UInt8.ofNat n).toNat = n := by
  simpa using h

theorem lt_ofNat {n : Nat} {b : UInt8} (h : n < 256) (hb : n < b.toNat) : UInt8.ofNat n < b := by
  rw [UInt8.lt_iff_toNat_lt, toNat_ofNat_lt h]
  exact hb

theorem not_lt_ofNat {n : Nat} {b : UInt8} (h : n < 256) (hb : b.toNat ≤ n) :
    ¬ UInt8.ofNat n < b := by
  rw [UInt8.lt_iff_toNat_lt, toNat_ofNat_lt h]
  exact Nat.not_lt.mpr hb

theorem ofNat_eq_iff {n : Nat} (h : n < 256) (b : UInt8) : UInt8.ofNat n = b ↔ n = b.toNat := by
  rw [← UInt8.toNat_inj, toNat_ofNat_lt h]

theorem isTail_ofNat {n : Nat} (hl : 0x80 ≤ n) (hh : n ≤ 0xBF) : isTail (UInt8.ofNat n) := by
  have h := toNat_ofNat_lt (n := n) (by omega)
  simp [isTail, UInt8.le_iff_toNat_le, h, hl, hh]

theorem val_ofNat {n : Nat} (h : n.isValidChar) : (Char.ofNat n).val.toNat = n := by
  unfold Char.ofNat
  rw [dif_pos h]
  rfl

section Lengths

variable (i : Nat) (rest : List UInt8) {n : Nat}

theorem decodeFrom_one (h : n < 0x80) :
    decodeFrom i (UInt8.ofNat n :: rest) =
      (decodeFrom (i + 1) rest).map (Char.ofNat n :: ·) := by
  have ha := lt_ofNat (b := 0x80) (n := n) (by omega) h
  rw [decodeFrom.eq_def]
  simp only [if_pos ha, toNat_ofNat_lt (n := n) (by omega)]

theorem decodeFrom_two (hl : 0x80 ≤ n) (hh : n < 0x800) :
    decodeFrom i (UInt8.ofNat (n / 64 % 0x20 + 0xc0) :: UInt8.ofNat (n % 0x40 + 0x80) :: rest) =
      (decodeFrom (i + 2) rest).map (Char.ofNat n :: ·) := by
  have hlt : n / 64 % 0x20 + 0xc0 < 256 := by omega
  have ht := isTail_ofNat (n := n % 0x40 + 0x80) (by omega) (by omega)
  have hpair : pair (UInt8.ofNat (n / 64 % 0x20 + 0xc0)) (UInt8.ofNat (n % 0x40 + 0x80)) =
      Char.ofNat n := by
    rw [pair, toNat_ofNat_lt hlt, toNat_ofNat_lt (by omega)]
    congr 1
    omega
  have h1 := not_lt_ofNat (b := 0x80) hlt (by simp)
  have h2 := not_lt_ofNat (b := 0xC2) hlt (by simp; omega)
  have h3 := lt_ofNat (b := 0xE0) hlt (by simp; omega)
  rw [decodeFrom.eq_def]
  simp only [if_neg h1, if_neg h2, if_pos h3, if_pos ht, hpair]

theorem isSecondOfThree_ofNat (hl : 0x800 ≤ n) (hh : n < 0x10000)
    (hs : n < 0xD800 ∨ 0xDFFF < n) :
    isSecondOfThree (UInt8.ofNat (n / 4096 % 0x10 + 0xe0))
      (UInt8.ofNat (n / 64 % 0x40 + 0x80)) := by
  have ha : n / 4096 % 0x10 + 0xe0 < 256 := by omega
  have ht := isTail_ofNat (n := n / 64 % 0x40 + 0x80) (by omega) (by omega)
  unfold isSecondOfThree
  simp only [beq_iff_eq, ofNat_eq_iff ha]
  split
  next h =>
    simp [UInt8.le_iff_toNat_le] at h ⊢
    omega
  split
  next h =>
    simp [UInt8.le_iff_toNat_le] at h ⊢
    omega
  exact ht

theorem decodeFrom_three (hl : 0x800 ≤ n) (hh : n < 0x10000) (hs : n < 0xD800 ∨ 0xDFFF < n) :
    decodeFrom i (UInt8.ofNat (n / 4096 % 0x10 + 0xe0) :: UInt8.ofNat (n / 64 % 0x40 + 0x80) ::
        UInt8.ofNat (n % 0x40 + 0x80) :: rest) =
      (decodeFrom (i + 3) rest).map (Char.ofNat n :: ·) := by
  have hlt : n / 4096 % 0x10 + 0xe0 < 256 := by omega
  have hb := isSecondOfThree_ofNat hl hh hs
  have hc := isTail_ofNat (n := n % 0x40 + 0x80) (by omega) (by omega)
  have htriple : triple (UInt8.ofNat (n / 4096 % 0x10 + 0xe0))
      (UInt8.ofNat (n / 64 % 0x40 + 0x80)) (UInt8.ofNat (n % 0x40 + 0x80)) = Char.ofNat n := by
    rw [triple, toNat_ofNat_lt hlt, toNat_ofNat_lt (by omega), toNat_ofNat_lt (by omega)]
    congr 1
    omega
  have h1 := not_lt_ofNat (b := 0x80) hlt (by simp)
  have h2 := not_lt_ofNat (b := 0xC2) hlt (by simp)
  have h3 := not_lt_ofNat (b := 0xE0) hlt (by simp)
  have h4 := lt_ofNat (b := 0xF0) hlt (by simp; omega)
  rw [decodeFrom.eq_def]
  simp only [if_neg h1, if_neg h2, if_neg h3, if_pos h4, hb, hc, htriple, Bool.not_true,
    Bool.false_eq_true, if_false]

theorem isSecondOfFour_ofNat (hl : 0x10000 ≤ n) (hh : n < 0x110000) :
    isSecondOfFour (UInt8.ofNat (n / 262144 % 0x08 + 0xf0))
      (UInt8.ofNat (n / 4096 % 0x40 + 0x80)) := by
  have ha : n / 262144 % 0x08 + 0xf0 < 256 := by omega
  have ht := isTail_ofNat (n := n / 4096 % 0x40 + 0x80) (by omega) (by omega)
  unfold isSecondOfFour
  simp only [beq_iff_eq, ofNat_eq_iff ha]
  split
  next h =>
    simp [UInt8.le_iff_toNat_le] at h ⊢
    omega
  split
  next h =>
    simp [UInt8.le_iff_toNat_le] at h ⊢
    omega
  exact ht

theorem decodeFrom_four (hl : 0x10000 ≤ n) (hh : n < 0x110000) :
    decodeFrom i (UInt8.ofNat (n / 262144 % 0x08 + 0xf0) ::
        UInt8.ofNat (n / 4096 % 0x40 + 0x80) :: UInt8.ofNat (n / 64 % 0x40 + 0x80) ::
        UInt8.ofNat (n % 0x40 + 0x80) :: rest) =
      (decodeFrom (i + 4) rest).map (Char.ofNat n :: ·) := by
  have hlt : n / 262144 % 0x08 + 0xf0 < 256 := by omega
  have hb := isSecondOfFour_ofNat hl hh
  have hc := isTail_ofNat (n := n / 64 % 0x40 + 0x80) (by omega) (by omega)
  have hd := isTail_ofNat (n := n % 0x40 + 0x80) (by omega) (by omega)
  have hquad : quadruple (UInt8.ofNat (n / 262144 % 0x08 + 0xf0))
      (UInt8.ofNat (n / 4096 % 0x40 + 0x80)) (UInt8.ofNat (n / 64 % 0x40 + 0x80))
      (UInt8.ofNat (n % 0x40 + 0x80)) = Char.ofNat n := by
    rw [quadruple, toNat_ofNat_lt hlt, toNat_ofNat_lt (by omega), toNat_ofNat_lt (by omega),
      toNat_ofNat_lt (by omega)]
    congr 1
    omega
  have h1 := not_lt_ofNat (b := 0x80) hlt (by simp)
  have h2 := not_lt_ofNat (b := 0xC2) hlt (by simp)
  have h3 := not_lt_ofNat (b := 0xE0) hlt (by simp)
  have h4 := not_lt_ofNat (b := 0xF0) hlt (by simp)
  have h5 := lt_ofNat (b := 0xF5) hlt (by simp; omega)
  rw [decodeFrom.eq_def]
  simp only [if_neg h1, if_neg h2, if_neg h3, if_neg h4, if_pos h5, hb, hc, hd, hquad,
    Bool.not_true, Bool.false_eq_true, if_false]

end Lengths

theorem decodeFrom_char (i : Nat) (c : Char) (rest : List UInt8) :
    ∃ j, decodeFrom i (String.utf8EncodeChar c ++ rest) =
      (decodeFrom j rest).map (c :: ·) := by
  have hvalid : c.toNat < 0xD800 ∨ 0xDFFF < c.toNat ∧ c.toNat < 0x110000 := c.valid
  have hc : Char.ofNat c.val.toNat = c := c.ofNat_toNat
  unfold String.utf8EncodeChar
  dsimp only
  change c.val.toNat < 0xD800 ∨ 0xDFFF < c.val.toNat ∧ c.val.toNat < 0x110000 at hvalid
  split
  · exact ⟨_,hc ▸ decodeFrom_one i rest (by omega)⟩
  split
  · exact ⟨_,hc ▸ decodeFrom_two i rest (by omega) (by omega)⟩
  split
  · exact ⟨_,hc ▸ decodeFrom_three i rest (by omega) (by omega) (by omega)⟩
  · exact ⟨_,hc ▸ decodeFrom_four i rest (by omega) (by omega)⟩

theorem encode_cons (c : Char) (cs : List Char) :
    encode (c :: cs) = String.utf8EncodeChar c ++ encode cs := List.flatMap_cons

theorem decodeFrom_encode (i : Nat) (cs : List Char) : decodeFrom i (encode cs) = .ok cs := by
  induction cs generalizing i with
  | nil => rfl
  | cons c cs ih =>
    obtain ⟨j, hj⟩ := decodeFrom_char i c (encode cs)
    rw [encode_cons, hj, ih]
    rfl

theorem decode_encode (t : String) : decode (encode t.toList) = .ok t := by
  rw [decode, decodeFrom_encode]
  exact congrArg _ String.ofList_toList

/-! ## Only the bytes of texts -/

theorem toNat_of_isTail {b : UInt8} (h : isTail b) : 0x80 ≤ b.toNat ∧ b.toNat ≤ 0xBF := by
  simpa [isTail, UInt8.le_iff_toNat_le] using h

theorem toNat_of_isSecondOfThree {a b : UInt8} (h : isSecondOfThree a b) :
    0x80 ≤ b.toNat ∧ b.toNat ≤ 0xBF ∧ (a.toNat = 0xE0 → 0xA0 ≤ b.toNat) ∧
      (a.toNat = 0xED → b.toNat ≤ 0x9F) := by
  unfold isSecondOfThree at h
  simp only [beq_iff_eq, ← UInt8.toNat_inj] at h
  split at h
  next ha =>
    simp [UInt8.le_iff_toNat_le] at h ha
    omega
  split at h
  next ha =>
    simp [UInt8.le_iff_toNat_le] at h ha
    omega
  next h0 hD =>
    have := toNat_of_isTail h
    simp at h0 hD
    omega

theorem toNat_of_isSecondOfFour {a b : UInt8} (h : isSecondOfFour a b) :
    0x80 ≤ b.toNat ∧ b.toNat ≤ 0xBF ∧ (a.toNat = 0xF0 → 0x90 ≤ b.toNat) ∧
      (a.toNat = 0xF4 → b.toNat ≤ 0x8F) := by
  unfold isSecondOfFour at h
  simp only [beq_iff_eq, ← UInt8.toNat_inj] at h
  split at h
  next ha =>
    simp [UInt8.le_iff_toNat_le] at h ha
    omega
  split at h
  next ha =>
    simp [UInt8.le_iff_toNat_le] at h ha
    omega
  next h0 h4 =>
    have := toNat_of_isTail h
    simp at h0 h4
    omega

section Characters

variable {a b c d : UInt8}

theorem encodeChar_one (ha : a < 0x80) : String.utf8EncodeChar (Char.ofNat a.toNat) = [a] := by
  rw [UInt8.lt_iff_toNat_lt] at ha
  change a.toNat < 128 at ha
  rw [String.utf8EncodeChar, val_ofNat (.inl (by omega))]
  simp only [if_pos (show a.toNat ≤ 127 by omega), UInt8.ofNat_toNat]

theorem encodeChar_pair (hl : ¬a < 0xC2) (hh : a < 0xE0) (hb : isTail b) :
    String.utf8EncodeChar (pair a b) = [a, b] := by
  rw [UInt8.lt_iff_toNat_lt] at hl hh
  change ¬a.toNat < 194 at hl
  change a.toNat < 224 at hh
  have htail := toNat_of_isTail hb
  rw [pair, String.utf8EncodeChar, val_ofNat (.inl (by omega))]
  simp only [if_neg (show ¬a.toNat % 32 * 64 + b.toNat % 64 ≤ 127 by omega),
    if_pos (show a.toNat % 32 * 64 + b.toNat % 64 ≤ 2047 by omega)]
  rw [(ofNat_eq_iff (by omega) a).mpr (by omega), (ofNat_eq_iff (by omega) b).mpr (by omega)]

theorem encodeChar_triple (hl : ¬a < 0xE0) (hh : a < 0xF0) (hb : isSecondOfThree a b)
    (hc : isTail c) : String.utf8EncodeChar (triple a b c) = [a, b, c] := by
  rw [UInt8.lt_iff_toNat_lt] at hl hh
  change ¬a.toNat < 224 at hl
  change a.toNat < 240 at hh
  have hsecond := toNat_of_isSecondOfThree hb
  have htail := toNat_of_isTail hc
  have hvalid : ((a.toNat % 16 * 64 + b.toNat % 64) * 64 + c.toNat % 64).isValidChar := by
    unfold Nat.isValidChar
    omega
  rw [triple, String.utf8EncodeChar, val_ofNat hvalid]
  generalize hn : (a.toNat % 16 * 64 + b.toNat % 64) * 64 + c.toNat % 64 = n
  simp only [if_neg (show ¬n ≤ 127 by omega), if_neg (show ¬n ≤ 2047 by omega),
    if_pos (show n ≤ 65535 by omega)]
  rw [(ofNat_eq_iff (by omega) a).mpr (by omega), (ofNat_eq_iff (by omega) b).mpr (by omega),
    (ofNat_eq_iff (by omega) c).mpr (by omega)]

theorem encodeChar_quadruple (hl : ¬a < 0xF0) (hh : a < 0xF5) (hb : isSecondOfFour a b)
    (hc : isTail c) (hd : isTail d) :
    String.utf8EncodeChar (quadruple a b c d) = [a, b, c, d] := by
  rw [UInt8.lt_iff_toNat_lt] at hl hh
  change ¬a.toNat < 240 at hl
  change a.toNat < 245 at hh
  have hsecond := toNat_of_isSecondOfFour hb
  have hthird := toNat_of_isTail hc
  have htail := toNat_of_isTail hd
  have hvalid : (((a.toNat % 8 * 64 + b.toNat % 64) * 64 + c.toNat % 64) * 64 +
      d.toNat % 64).isValidChar := by
    unfold Nat.isValidChar
    omega
  rw [quadruple, String.utf8EncodeChar, val_ofNat hvalid]
  generalize hn : ((a.toNat % 8 * 64 + b.toNat % 64) * 64 + c.toNat % 64) * 64 +
    d.toNat % 64 = n
  simp only [if_neg (show ¬n ≤ 127 by omega), if_neg (show ¬n ≤ 2047 by omega),
    if_neg (show ¬n ≤ 65535 by omega)]
  rw [(ofNat_eq_iff (by omega) a).mpr (by omega), (ofNat_eq_iff (by omega) b).mpr (by omega),
    (ofNat_eq_iff (by omega) c).mpr (by omega), (ofNat_eq_iff (by omega) d).mpr (by omega)]

end Characters

theorem encode_ascii {bs : List UInt8} (h : ∀ b ∈ bs, b < 128) :
    encode (bs.map fun b => Char.ofNat b.toNat) = bs := by
  induction bs with
  | nil => rfl
  | cons b bs ih =>
    obtain ⟨hb, hbs⟩ := List.forall_mem_cons.mp h
    rw [List.map_cons, encode_cons, encodeChar_one hb, ih hbs]
    rfl

theorem encode_of_decodeFrom {i : Nat} {bs : List UInt8} {cs : List Char}
    (h : decodeFrom i bs = .ok cs) : encode cs = bs := by
  fun_induction decodeFrom i bs generalizing cs with
  | case1 =>
    cases h
    rfl
  | case2 i a rest ha ih =>
    obtain ⟨more, hmore, rfl⟩ := map_ok_iff.mp h
    rw [encode_cons, encodeChar_one ha, ih hmore]
    rfl
  | case5 i a _ hl hh b rest hb ih =>
    obtain ⟨more, hmore, rfl⟩ := map_ok_iff.mp h
    rw [encode_cons, encodeChar_pair hl hh hb, ih hmore]
    rfl
  | case11 i a _ _ hl hh b c rest hb hc ih =>
    obtain ⟨more, hmore, rfl⟩ := map_ok_iff.mp h
    rw [encode_cons, encodeChar_triple hl hh (by simpa using hb) (by simpa using hc), ih hmore]
    rfl
  | case18 i a _ _ _ hl hh b c d rest hb hc hd ih =>
    obtain ⟨more, hmore, rfl⟩ := map_ok_iff.mp h
    rw [encode_cons, encodeChar_quadruple hl hh (by simpa using hb) (by simpa using hc)
      (by simpa using hd), ih hmore]
    rfl
  | _ => cases h

theorem decode_ok_iff {bs : List UInt8} {t : String} :
    decode bs = .ok t ↔ bs = encode t.toList := by
  constructor
  · intro h
    obtain ⟨cs, hcs, rfl⟩ := map_ok_iff.mp h
    rw [String.toList_ofList, encode_of_decodeFrom hcs]
  · rintro rfl
    exact decode_encode t

theorem encode_injective {s t : String} (h : encode s.toList = encode t.toList) : s = t := by
  have hs := decode_encode s
  rw [h, decode_encode] at hs
  exact (Except.ok.inj hs).symm

end Unseal.Utf8
