import Unseal.Proofs.Json.DecimalWritten
import Unseal.Proofs.Json.Legible

/-!
# Sound values

Values are built with integers of 64 bits, finite doubles and members in key order. Such a value
is legible if its containers leave the reader a level. Whatever is read is such a value, so what
has been read once is read again after it has been written.
-/

set_option autoImplicit false

namespace Unseal

def Number.fits : Number → Bool
  | int n => inRange n
  | float x => decide x.Finite

namespace Json

mutual
/-- How many containers stand inside each other at the most. -/
def nesting : Json → Nat
  | .arr vs => nestingItems vs + 1
  | .obj ms => nestingMembers ms + 1
  | _ => 0

def nestingItems : List Json → Nat
  | [] => 0
  | v :: vs => max (nesting v) (nestingItems vs)

def nestingMembers : List (String × Json) → Nat
  | [] => 0
  | (_, v) :: ms => max (nesting v) (nestingMembers ms)
end

mutual
/-- All objects keep their members in key order, as objects that are built here do. -/
def ordered : Json → Bool
  | .arr vs => orderedItems vs
  | .obj ms => decide (Members.Sorted ms) && orderedMembers ms
  | _ => true

def orderedItems : List Json → Bool
  | [] => true
  | v :: vs => ordered v && orderedItems vs

def orderedMembers : List (String × Json) → Bool
  | [] => true
  | (_, v) :: ms => ordered v && orderedMembers ms
end

mutual
def fits : Json → Bool
  | .num n => n.fits
  | .arr vs => fitsItems vs
  | .obj ms => fitsMembers ms
  | _ => true

def fitsItems : List Json → Bool
  | [] => true
  | v :: vs => fits v && fitsItems vs

def fitsMembers : List (String × Json) → Bool
  | [] => true
  | (_, v) :: ms => fits v && fitsMembers ms
end

def Sound (v : Json) : Prop := v.fits ∧ v.ordered

instance (v : Json) : Decidable v.Sound := inferInstanceAs (Decidable (v.fits ∧ v.ordered))

/-! ## Sound values are legible -/

mutual
theorem legible_of_fits : ∀ {v : Json} {depth : Nat}, v.fits → v.ordered → v.nesting < depth →
    Legible depth v
  | .null, _, _, _, _ => trivial
  | .bool _, _, _, _, _ => trivial
  | .num (.int _), _, hf, _, _ => hf
  | .num (.float _), _, hf, _, _ => readable (of_decide_eq_true hf)
  | .str _, _, _, _, _ => trivial
  | .arr _, _, hf, ho, hn => by
    rw [nesting] at hn
    exact ⟨by omega,legibleItems_of_fits hf ho (by omega)⟩
  | .obj _, _, hf, ho, hn => by
    rw [nesting] at hn
    obtain ⟨hs, ho⟩ := Bool.and_eq_true_iff.mp ho
    exact ⟨by omega,of_decide_eq_true hs,legibleMembers_of_fits hf ho (by omega)⟩

theorem legibleItems_of_fits : ∀ {vs : List Json} {depth : Nat}, fitsItems vs →
    orderedItems vs → nestingItems vs < depth → LegibleItems depth vs
  | [], _, _, _, _ => trivial
  | _ :: _, _, hf, ho, hn => by
    obtain ⟨hfv, hfvs⟩ := Bool.and_eq_true_iff.mp hf
    obtain ⟨hov, hovs⟩ := Bool.and_eq_true_iff.mp ho
    obtain ⟨hv, hvs⟩ := Nat.max_lt.mp hn
    exact ⟨legible_of_fits hfv hov hv,legibleItems_of_fits hfvs hovs hvs⟩

theorem legibleMembers_of_fits : ∀ {ms : List (String × Json)} {depth : Nat}, fitsMembers ms →
    orderedMembers ms → nestingMembers ms < depth → LegibleMembers depth ms
  | [], _, _, _, _ => trivial
  | _ :: _, _, hf, ho, hn => by
    obtain ⟨hfv, hfms⟩ := Bool.and_eq_true_iff.mp hf
    obtain ⟨hov, homs⟩ := Bool.and_eq_true_iff.mp ho
    obtain ⟨hv, hms⟩ := Nat.max_lt.mp hn
    exact ⟨legible_of_fits hfv hov hv,legibleMembers_of_fits hfms homs hms⟩
end

theorem Sound.legible {v : Json} (h : v.Sound) {depth : Nat} (hn : v.nesting < depth) :
    Legible depth v := legible_of_fits h.1 h.2 hn

/-! ## Numbers that are read -/

theorem absorb_le {limit value : Nat} (h : value ≤ limit) (ds : List Char) :
    (absorb limit value ds).1 ≤ limit := by
  induction ds generalizing value with
  | nil => exact h
  | cons d ds ih =>
    rw [absorb]
    split
    next hd => exact ih hd
    next => exact h

section
variable {negative : Bool} {significand : Nat} {exponent : Int} {c c' : Cursor} {n : Number}

theorem fits_of_finite {x : Binary64} (hx : x.Finite) (negative : Bool) :
    (Number.float { x with negative := negative }).fits :=
  decide_eq_true (p := Binary64.Finite ⟨negative, x.significand, x.scale⟩) hx

theorem floatAt_fits (h : floatAt negative significand exponent c = .ok (n, c')) : n.fits := by
  unfold floatAt floatNumber at h
  cases hscale : Binary64.scaleDecimal (Binary64.ofInt significand) exponent with
  | none =>
    rw [hscale] at h
    cases h
  | some y =>
    rw [hscale] at h
    cases h
    exact fits_of_finite (Binary64.scaleDecimal_finite (Binary64.ofInt_finite _) hscale) negative

theorem readExponentDigits_fits {minus : Bool}
    (h : readExponentDigits negative significand exponent minus c = .ok (n, c')) : n.fits := by
  unfold readExponentDigits at h
  split at h
  next => cases h
  next =>
    split at h
    next =>
      dsimp only at h
      split at h
      next => exact floatAt_fits h
      next =>
        split at h
        · cases h
        · cases h
          exact decide_eq_true (Binary64.zero_finite negative)
    next => cases h

theorem readExponent_fits (h : readExponent negative significand exponent c = .ok (n, c')) :
    n.fits := by
  unfold readExponent at h
  split at h
  all_goals exact readExponentDigits_fits h

theorem readFraction_fits (h : readFraction negative significand exponent c = .ok (n, c')) :
    n.fits := by
  unfold readFraction at h
  dsimp only at h
  split at h
  next => cases h
  next =>
    split at h
    next => exact readExponent_fits h
    next => exact readExponent_fits h
    next => exact floatAt_fits h

theorem integerNumber_fits (h : significand ≤ significandLimit) :
    (integerNumber negative significand).fits := by
  unfold integerNumber
  split
  next =>
    split
    next => exact fits_of_finite (Binary64.ofInt_finite significand) true
    next hs =>
      simp only [Number.fits, Number.inRange, Bool.and_eq_true, decide_eq_true_eq]
      omega
  next =>
    rw [significandLimit] at h
    simp only [Number.fits, Number.inRange, Bool.and_eq_true, decide_eq_true_eq]
    omega

theorem readTail_fits {dropped : Nat} (hs : significand ≤ significandLimit)
    (h : readTail negative significand dropped c = .ok (n, c')) : n.fits := by
  unfold readTail at h
  split at h
  next => exact readFraction_fits h
  next => exact readExponent_fits h
  next => exact readExponent_fits h
  next =>
    split at h
    next =>
      cases h
      exact integerNumber_fits hs
    next => exact floatAt_fits h

theorem readNumber_fits (h : readNumber negative c = .ok (n, c')) : n.fits := by
  unfold readNumber at h
  split at h
  next => cases h
  next =>
    split at h
    next =>
      dsimp only at h
      split at h
      next =>
        split at h
        · cases h
        · exact readTail_fits (Nat.zero_le _) h
      next => exact readTail_fits (Nat.zero_le _) h
    next =>
      split at h
      next => exact readTail_fits (absorb_le (Nat.zero_le _) _) h
      next => cases h

end

/-! ## Values that are read -/

mutual
theorem Reads.fits : ∀ {t : Json} {depth : Nat} {c c' : Cursor}, Reads depth c t c' → t.fits
  | .str _, _, _, _, _ => rfl
  | .num _, _, _, _, .negative _ hn => readNumber_fits hn
  | .num _, _, _, _, .number _ _ hn => readNumber_fits hn
  | .null, _, _, _, _ => rfl
  | .bool _, _, _, _, _ => rfl
  | .arr _, _, _, _, .arr _ _ hi _ => hi.fits
  | .obj _, _, _, _, .obj _ _ hm _ => hm.fits

theorem ReadsItems.fits : ∀ {ts : List Json} {depth : Nat} {first : Bool} {c c' : Cursor},
    ReadsItems depth first c ts c' → fitsItems ts
  | [], _, _, _, _, _ => rfl
  | _ :: _, _, _, _, _, .part _ ht hts => Bool.and_eq_true_iff.mpr ⟨ht.fits,hts.fits⟩

theorem ReadsMembers.fits : ∀ {ms : List (String × Json)} {depth : Nat} {first : Bool}
    {c c' : Cursor}, ReadsMembers depth first c ms c' → fitsMembers ms
  | [], _, _, _, _, _ => rfl
  | _ :: _, _, _, _, _, .part _ _ ht hms => Bool.and_eq_true_iff.mpr ⟨ht.fits,hms.fits⟩
end

mutual
theorem Reads.nesting_lt : ∀ {t : Json} {depth : Nat} {c c' : Cursor}, Reads depth c t c' →
    0 < depth → t.nesting < depth
  | .str _, _, _, _, _, hd => hd
  | .num _, _, _, _, _, hd => hd
  | .null, _, _, _, _, hd => hd
  | .bool _, _, _, _, _, hd => hd
  | .arr _, _, _, _, .arr _ hd hi _, _ => by
    have hlt := hi.nesting_lt (by omega)
    rw [nesting]
    omega
  | .obj _, _, _, _, .obj _ hd hm _, _ => by
    have hlt := hm.nesting_lt (by omega)
    rw [nesting]
    omega

theorem ReadsItems.nesting_lt : ∀ {ts : List Json} {depth : Nat} {first : Bool} {c c' : Cursor},
    ReadsItems depth first c ts c' → 0 < depth → nestingItems ts < depth
  | [], _, _, _, _, _, hd => hd
  | _ :: _, _, _, _, _, .part _ ht hts, hd => Nat.max_lt.mpr ⟨ht.nesting_lt hd,hts.nesting_lt hd⟩

theorem ReadsMembers.nesting_lt : ∀ {ms : List (String × Json)} {depth : Nat} {first : Bool}
    {c c' : Cursor}, ReadsMembers depth first c ms c' → 0 < depth → nestingMembers ms < depth
  | [], _, _, _, _, _, hd => hd
  | _ :: _, _, _, _, _, .part _ _ ht hms, hd =>
    Nat.max_lt.mpr ⟨ht.nesting_lt hd,hms.nesting_lt hd⟩
end

theorem fitsMembers_iff {ms : List (String × Json)} : fitsMembers ms ↔ ∀ m ∈ ms, m.2.fits := by
  induction ms with
  | nil => simp [fitsMembers]
  | cons m ms ih => rw [fitsMembers, Bool.and_eq_true_iff, ih, List.forall_mem_cons]

theorem orderedMembers_iff {ms : List (String × Json)} :
    orderedMembers ms ↔ ∀ m ∈ ms, m.2.ordered := by
  induction ms with
  | nil => simp [orderedMembers]
  | cons m ms ih => rw [orderedMembers, Bool.and_eq_true_iff, ih, List.forall_mem_cons]

theorem nestingMembers_le_iff {ms : List (String × Json)} {n : Nat} :
    nestingMembers ms ≤ n ↔ ∀ m ∈ ms, m.2.nesting ≤ n := by
  induction ms with
  | nil => simp [nestingMembers]
  | cons m ms ih => rw [nestingMembers, Nat.max_le, ih, List.forall_mem_cons]

mutual
theorem fits_normal : ∀ {t : Json}, t.fits → t.normal.fits
  | .null, _ => rfl
  | .bool _, _ => rfl
  | .num _, h => h
  | .str _, _ => rfl
  | .arr _, h => fitsItems_normal h
  | .obj _, h => fitsMembers_iff.mpr fun m hm =>
    fitsMembers_iff.mp (fitsMembers_normal h) m (Members.mem_of_mem_ofList hm)

theorem fitsItems_normal : ∀ {ts : List Json}, fitsItems ts → fitsItems (normalItems ts)
  | [], _ => rfl
  | _ :: _, h => by
    obtain ⟨ht, hts⟩ := Bool.and_eq_true_iff.mp h
    exact Bool.and_eq_true_iff.mpr ⟨fits_normal ht,fitsItems_normal hts⟩

theorem fitsMembers_normal : ∀ {ms : List (String × Json)}, fitsMembers ms →
    fitsMembers (normalMembers ms)
  | [], _ => rfl
  | _ :: _, h => by
    obtain ⟨ht, hms⟩ := Bool.and_eq_true_iff.mp h
    exact Bool.and_eq_true_iff.mpr ⟨fits_normal ht,fitsMembers_normal hms⟩
end

mutual
theorem ordered_normal : ∀ (t : Json), t.normal.ordered
  | .null => rfl
  | .bool _ => rfl
  | .num _ => rfl
  | .str _ => rfl
  | .arr ts => orderedItems_normal ts
  | .obj ms => Bool.and_eq_true_iff.mpr ⟨decide_eq_true (Members.sorted_ofList _),
    orderedMembers_iff.mpr fun m hm =>
      orderedMembers_iff.mp (orderedMembers_normal ms) m (Members.mem_of_mem_ofList hm)⟩

theorem orderedItems_normal : ∀ (ts : List Json), orderedItems (normalItems ts)
  | [] => rfl
  | t :: ts => Bool.and_eq_true_iff.mpr ⟨ordered_normal t,orderedItems_normal ts⟩

theorem orderedMembers_normal : ∀ (ms : List (String × Json)), orderedMembers (normalMembers ms)
  | [] => rfl
  | (_, t) :: ms => Bool.and_eq_true_iff.mpr ⟨ordered_normal t,orderedMembers_normal ms⟩
end

mutual
theorem nesting_normal_le : ∀ (t : Json), t.normal.nesting ≤ t.nesting
  | .null => Nat.le_refl _
  | .bool _ => Nat.le_refl _
  | .num _ => Nat.le_refl _
  | .str _ => Nat.le_refl _
  | .arr ts => Nat.succ_le_succ (nestingItems_normal_le ts)
  | .obj ms => Nat.succ_le_succ (nestingMembers_le_iff.mpr fun m hm =>
    nestingMembers_le_iff.mp (nestingMembers_normal_le ms) m (Members.mem_of_mem_ofList hm))

theorem nestingItems_normal_le : ∀ (ts : List Json), nestingItems (normalItems ts) ≤ nestingItems ts
  | [] => Nat.le_refl _
  | t :: ts => max_le_max (nesting_normal_le t) (nestingItems_normal_le ts)

theorem nestingMembers_normal_le : ∀ (ms : List (String × Json)),
    nestingMembers (normalMembers ms) ≤ nestingMembers ms
  | [] => Nat.le_refl _
  | (_, t) :: ms => max_le_max (nesting_normal_le t) (nestingMembers_normal_le ms)
end

/-- What is read is sound, and its containers leave the reader a level. -/
theorem sound_of_read {text : String} {v : Json} (h : read text = .ok v) :
    v.Sound ∧ v.nesting < depthLimit := by
  obtain ⟨t, ⟨c, ht, -⟩, rfl⟩ := (read_ok_iff_spells text v).mp h
  exact ⟨⟨fits_normal ht.fits,ordered_normal t⟩,
    (nesting_normal_le t).trans_lt (ht.nesting_lt (by decide))⟩

/-- What has been read is read again after it has been written, in either layout. -/
theorem read_render_of_read {text : String} {v : Json} (h : read text = .ok v) (inline : Bool) :
    read (v.render inline) = .ok v.reread := by
  obtain ⟨hsound, hnesting⟩ := sound_of_read h
  have hread : read (v.render inline ++ "") = .ok v.reread :=
    (hsound.legible hnesting).read_render inline nofun
  rwa [String.append_empty] at hread

end Json
end Unseal
