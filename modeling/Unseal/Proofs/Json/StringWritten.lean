import Unseal.Json.Writer
import Unseal.Json.StringText

/-!
# Written strings read back

Each character that the writer escapes is read from its escape, any other from itself.
-/

set_option autoImplicit false

namespace Unseal.Json

theorem hexValue?_hexDigit : ∀ n < 16, hexValue? (hexDigit n) = some n := by decide

theorem utf8Size_hexDigit : ∀ n < 16, (hexDigit n).utf8Size = 1 := by decide

theorem completeHex_control {n : Nat} (h : n < 0x20) :
    completeHex none n false = .ok (.inl (Char.ofNat n)) := by
  have hlead : isLeadSurrogate n = false := by simp [isLeadSurrogate]; omega
  have htrail : isTrailSurrogate n = false := by simp [isTrailSurrogate]; omega
  simp [completeHex, hlead, htrail]

/-- A control character written as `\u00XY`. -/
theorem readStringFrom_hex {n : Nat} (h : n < 0x20) (acc rest : List Char) (p : Place) :
    ∃ q, readStringFrom .plain acc
        ('\\' :: 'u' :: '0' :: '0' :: hexDigit (n / 16) :: hexDigit (n % 16) :: rest) p =
      readStringFrom .plain (Char.ofNat n :: acc) rest q := by
  have h1 := hexValue?_hexDigit (n / 16) (by omega)
  have h2 := hexValue?_hexDigit (n % 16) (by omega)
  have s1 := utf8Size_hexDigit (n / 16) (by omega)
  have s2 := utf8Size_hexDigit (n % 16) (by omega)
  have hzero : hexValue? '0' = some 0 := by decide
  have hsize : '0'.utf8Size = 1 := by decide
  have hn : n / 16 * 16 + n % 16 = n := by omega
  refine ⟨['\\', 'u', '0', '0', hexDigit (n / 16), hexDigit (n % 16)].foldl Place.advance p,?_⟩
  simp [readStringFrom, simpleEscape?, h1, h2, s1, s2, hzero, hsize, hn, completeHex_control h]

theorem readStringFrom_escapeChar (c : Char) (acc rest : List Char) (p : Place) :
    ∃ q, readStringFrom .plain acc (escapeChar c ++ rest) p =
      readStringFrom .plain (c :: acc) rest q := by
  unfold escapeChar
  split
  · subst c; exact ⟨_,rfl⟩
  split
  · subst c; exact ⟨_,rfl⟩
  split
  next hq hb hc =>
    refine ⟨p.advance c,?_⟩
    simp [readStringFrom, hq, hb, Nat.not_lt.mpr hc]
  split
  · subst c; exact ⟨_,rfl⟩
  split
  · subst c; exact ⟨_,rfl⟩
  split
  · subst c; exact ⟨_,rfl⟩
  split
  · subst c; exact ⟨_,rfl⟩
  split
  · subst c; exact ⟨_,rfl⟩
  next hc _ _ _ _ _ =>
    obtain ⟨q, hq⟩ := readStringFrom_hex (n := c.toNat) (by omega) acc rest p
    rw [Char.ofNat_toNat] at hq
    exact ⟨q,hq⟩

theorem readStringFrom_escape (cs acc rest : List Char) (p : Place) :
    ∃ q, readStringFrom .plain acc (escape cs ++ '"' :: rest) p =
      .ok (acc.reverse ++ cs, ⟨rest, q⟩) := by
  induction cs generalizing acc p with
  | nil => exact ⟨p.advance '"',by simp [escape, readStringFrom]⟩
  | cons c cs ih =>
    obtain ⟨q, hq⟩ := readStringFrom_escapeChar c acc (escape cs ++ '"' :: rest) p
    obtain ⟨r, hr⟩ := ih (c :: acc) q
    refine ⟨r,?_⟩
    have happ : escape (c :: cs) ++ '"' :: rest = escapeChar c ++ (escape cs ++ '"' :: rest) := by
      simp [escape]
    rw [happ, hq, hr]
    simp

theorem readString_stringChars (s : String) (rest : List Char) (p : Place) :
    ∃ q, readString ⟨escape s.toList ++ '"' :: rest, p⟩ = .ok (s, ⟨rest, q⟩) := by
  obtain ⟨q, hq⟩ := readStringFrom_escape s.toList [] rest p
  exact ⟨q,by simp [readString, hq]⟩

end Unseal.Json
