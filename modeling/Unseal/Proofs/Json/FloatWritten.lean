import Unseal.Proofs.Json.Reading
import Unseal.Proofs.Json.NumberWritten

/-!
# Written floats

The digits that a float is written with are read wherever they stand as they are read alone. Not
every float reads back as itself.
-/

set_option autoImplicit false

namespace Unseal.Json

theorem Cursor.skipBlank_of_not_blank {c : Cursor} {x : Char} {cs : List Char}
    (hc : c.rest = x :: cs) (hx : isBlank x = false) : c.skipBlank = c := by
  obtain ⟨rest, p⟩ := c
  cases hc
  simp [skipBlank, skipBlankFrom, hx]

theorem finish_rest {c : Cursor} (h : finish c = .ok ())
    (hb : ∀ x ∈ c.rest, Cursor.isBlank x = false) : c.rest = [] := by
  cases hc : c.rest with
  | nil => rfl
  | cons x xs =>
    have hskip := Cursor.skipBlank_of_not_blank hc (hb x (by simp [hc]))
    simp [finish, hskip, hc] at h

/-! ## Floats -/

/-- The digits that a float is written with are read as a float. -/
def Readable (x : Binary64) : Prop :=
  ∃ y, read (compact (.num (.float x))) = .ok (.num (.float y))

instance (x : Binary64) : Decidable (Readable x) :=
  decidable_of_iff ((match read (compact (.num (.float x))) with
    | .ok (.num (.float _)) => true
    | _ => false) = true) (by
    unfold Readable
    split
    next h => simp [h]
    next hne => simpa using hne)

/-- What the digits that a float is written with are read as. -/
def rereadFloat (x : Binary64) : Binary64 :=
  match read (compact (.num (.float x))) with
  | .ok (.num (.float y)) => y
  | _ => x

theorem Readable.read_eq {x : Binary64} (h : Readable x) :
    read (compact (.num (.float x))) = .ok (.num (.float (rereadFloat x))) := by
  obtain ⟨y, hy⟩ := h
  simp [rereadFloat, hy]

theorem not_blank_of_toNat {c : Char} (h : c.toNat = 0 ∨ 33 ≤ c.toNat) :
    Cursor.isBlank c = false := by
  have hne : ∀ x : Char, 0 < x.toNat → x.toNat < 33 → c ≠ x := by
    rintro x hp hx rfl
    omega
  simp [Cursor.isBlank, hne ' ' (by decide) (by decide), hne '\n' (by decide) (by decide),
    hne '\t' (by decide) (by decide), hne '\r' (by decide) (by decide)]

theorem not_blank_of_isDigit {c : Char} (h : isDigit c) : Cursor.isBlank c = false := by
  have hc : '0' ≤ c := by
    simp only [isDigit, Bool.and_eq_true, decide_eq_true_eq] at h
    exact h.1
  exact not_blank_of_toNat (.inr (Nat.le_trans (by decide) (Char.le_def.mp hc)))

abbrev Solid (cs : List Char) : Prop := ∀ c ∈ cs, Cursor.isBlank c = false

theorem Solid.append {as bs : List Char} (ha : Solid as) (hb : Solid bs) : Solid (as ++ bs) :=
  fun c hc => (List.mem_append.mp hc).elim (ha c) (hb c)

theorem Solid.cons {x : Char} {cs : List Char} (hx : Cursor.isBlank x = false) (h : Solid cs) :
    Solid (x :: cs) := List.forall_mem_cons.mpr ⟨hx,h⟩

theorem Solid.nil : Solid [] := List.forall_mem_nil _

theorem solid_digitChars (ds : List Nat) : Solid (digitChars ds) := by
  intro c hc
  obtain ⟨d, -, rfl⟩ := List.mem_map.mp hc
  apply not_blank_of_toNat
  unfold Char.ofNat
  by_cases hd : (48 + d).isValidChar
  · rw [dif_pos hd]
    exact .inr (show 33 ≤ 48 + d by omega)
  · rw [dif_neg hd]
    exact .inl rfl

theorem solid_natChars (n : Nat) : Solid (natChars n) :=
  fun c hc => not_blank_of_isDigit (isDigit_natChars c hc)

theorem solid_zeros (n : Nat) : Solid (List.replicate n '0') := by
  intro c hc
  rw [List.eq_of_mem_replicate hc]
  rfl

theorem solid_floatChars (x : Binary64) : Solid (floatChars x) := by
  have hsign : Solid (if x.negative then ['-'] else []) := by
    split <;> simp [Solid, Cursor.isBlank]
  have hmark : Solid ('e' :: (if x.shortest.point - 1 < 0 then '-' else '+') ::
      natChars (x.shortest.point - 1).natAbs) := by
    refine .cons rfl (.cons ?_ (solid_natChars _))
    split <;> rfl
  unfold floatChars
  dsimp only
  generalize (if x.negative then ['-'] else [] : List Char) = sign at *
  split
  · exact hsign.append (.cons rfl (.cons rfl (.cons rfl .nil)))
  split
  · exact hsign.append (.cons rfl (.cons rfl ((solid_zeros _).append (solid_digitChars _))))
  split
  · split
    · exact ((hsign.append (solid_digitChars _)).append (solid_zeros _)).append
        (.cons rfl (.cons rfl .nil))
    · exact (hsign.append (solid_digitChars _)).append (.cons rfl (solid_digitChars _))
  · split
    · exact (hsign.append (solid_digitChars _)).append hmark
    · exact (hsign.append (solid_digitChars _)).append
        (.cons rfl ((solid_digitChars _).append hmark))
    · exact hsign.append hmark

theorem Readable.reads {x : Binary64} (h : Readable x) (depth : Nat) {rest : List Char}
    (hr : Ends rest) (p : Place) :
    ∃ q, Reads depth ⟨floatChars x ++ rest, p⟩ (.num (.float (rereadFloat x))) ⟨rest, q⟩ := by
  obtain ⟨t, ⟨c, ht, hc⟩, hn⟩ := (read_ok_iff_spells _ _).mp h.read_eq
  have htext : Cursor.ofText (compact (.num (.float x))) = ⟨floatChars x, .start⟩ := by
    simp [Cursor.ofText, compact, compactChars, numberChars]
  rw [htext] at ht
  have hsolid := solid_floatChars x
  cases hchars : floatChars x with
  | nil =>
    obtain ⟨y, ys, hy, -⟩ := ht.lead
    simp [hchars, Cursor.skipBlank, Cursor.skipBlankFrom] at hy
  | cons y ys =>
    rw [hchars] at ht hsolid
    have hy := hsolid y (by simp)
    have hskip : ∀ cs p, Cursor.skipBlank ⟨y :: cs, p⟩ = ⟨y :: cs, p⟩ :=
      fun cs p => Cursor.skipBlank_of_not_blank rfl hy
    have hend : ∀ used : List Char, y :: ys = used ++ c.rest → c.rest = [] := by
      intro used hu
      exact finish_rest hc fun z hz => hsolid z (by rw [hu]; simp [hz])
    cases ht with
    | negative hq hread =>
      cases hn
      rw [hskip] at hq hread
      obtain ⟨rfl, rfl⟩ := List.cons.inj hq
      obtain ⟨used, hu, hlocal⟩ := local_readNumber true hread
      have hall : ys = used := by
        have hu' : ys = used ++ c.rest := hu
        simpa [hend ('-' :: used) (by rw [hu']; rfl)] using hu'
      obtain ⟨q, hq⟩ := hlocal rest hr (p.advance '-')
      refine ⟨q,.negative (by rw [List.cons_append, hskip]) ?_⟩
      rw [List.cons_append, hskip, hall]
      exact hq
    | number hq hd hread =>
      cases hn
      rw [hskip] at hq hread
      obtain ⟨rfl, rfl⟩ := List.cons.inj hq
      obtain ⟨used, hu, hlocal⟩ := local_readNumber false hread
      have hall : y :: ys = used := by
        have hu' : y :: ys = used ++ c.rest := hu
        simpa [hend used hu'] using hu'
      obtain ⟨q, hq⟩ := hlocal rest hr p
      refine ⟨q,.number (by rw [List.cons_append, hskip]) hd ?_⟩
      rw [List.cons_append, hskip, ← List.cons_append, hall]
      exact hq
    | str => cases hn
    | null => cases hn
    | yes => cases hn
    | no => cases hn
    | arr => cases hn
    | obj => cases hn

end Unseal.Json
