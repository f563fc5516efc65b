import Unseal.Record.Text
import Unseal.Proofs.Json.Skipping
import Unseal.Proofs.Record.Filling

/-!
# Following a tree through its text

How the parts of the one-pass reader keep up with a tree that is read. The two readers stop at
different faults, so where one fails the other need only fail too.
-/

set_option autoImplicit false

namespace Unseal

open Json (Cursor Problem Reads ReadsItems ReadsMembers)

theorem Json.ReadsItems.length_lt {depth : Nat} {first : Bool} {c e : Cursor} {ts : List Json}
    (h : ReadsItems depth first c ts e) : ts.length < TextReader.fuelFor c := by
  have hle := h.left_le
  simp only [TextReader.fuelFor, Cursor.left] at *
  omega

theorem Json.ReadsMembers.length_lt {depth : Nat} {first : Bool} {c e : Cursor}
    {ms : List (String × Json)} (h : ReadsMembers depth first c ms e) :
    ms.length < TextReader.fuelFor c := by
  have hle := h.left_le
  simp only [TextReader.fuelFor, Cursor.left] at *
  omega

namespace TextReader

variable {α β : Type}

/-- The text yields what the tree does and has been read to `c`, or both fail. -/
inductive Follows : Except TextFault (α × Cursor) → Except Mismatch α → Cursor → Prop
  | done {x : α} {c : Cursor} : Follows (.ok (x, c)) (.ok x) c
  | failed {f : TextFault} {m : Mismatch} {c : Cursor} : Follows (.error f) (.error m) c

/-- As `Follows`, of the contents of a container: there a mismatch may wait for the end. -/
inductive Gathers : Except TextFault (Reached α) → Except Mismatch α → Cursor → Prop
  | done {x : α} {c : Cursor} : Gathers (.ok (.ok x, c)) (.ok x) c
  | stopped {m m' : Mismatch} {c c' : Cursor} : Gathers (.ok (.error m, c')) (.error m') c
  | failed {f : TextFault} {m : Mismatch} {c : Cursor} : Gathers (.error f) (.error m) c

variable {r : Except TextFault (Reached α)} {v w : Except Mismatch α} {c c' e : Cursor}

theorem Gathers.congr (h : Gathers r v c) (hvw : ∀ x, v = .ok x ↔ w = .ok x) :
    Gathers r w c := by
  cases h with
  | done =>
    rw [(hvw _).mp rfl]
    exact .done
  | stopped =>
    cases w with
    | ok x => cases (hvw x).mpr rfl
    | error m => exact .stopped
  | failed =>
    cases w with
    | ok x => cases (hvw x).mpr rfl
    | error m => exact .failed

theorem Gathers.bind {g : α → Except Mismatch β} (h : Gathers r v c) :
    Gathers (do let (x, c) ← r; .ok (x.bind g, c)) (v >>= g) c := by
  cases h with
  | @done x =>
    show Gathers (.ok (g x, c)) (g x) c
    cases g x with
    | ok y => exact .done
    | error m => exact .stopped
  | stopped => exact .stopped
  | failed => exact .failed

theorem Gathers.close {closing : Cursor → Cursor × Option Problem} (h : Gathers r v e)
    (he : Json.closed (closing e) = .ok c') : Follows (close closing r) v c' := by
  cases h with
  | done =>
    simp only [TextReader.close, he, Except.map, lift]
    exact .done
  | stopped => exact .failed
  | failed => exact .failed

theorem Follows.bind {r : Except TextFault (α × Cursor)}
    {k : α × Cursor → Except TextFault (β × Cursor)} {g : α → Except Mismatch β}
    (h : Follows r v c) (hk : ∀ x, Follows (k (x, c)) (g x) c') :
    Follows (r >>= k) (v >>= g) c' := by
  cases h with
  | @done x => exact hk x
  | failed => exact .failed

theorem Follows.bind_error {r : Except TextFault (α × Cursor)}
    {k : α × Cursor → Except TextFault (β × Cursor)} {m : Mismatch}
    (h : Follows r (.error m) c) : Follows (r >>= k) (.error m) c' := by
  cases h
  exact .failed

theorem Follows.settle (c : Cursor) (v : Except Mismatch α) {g : α → α} (hg : ∀ x, g x = x) :
    Follows (settle c v) (v.map g) c := by
  cases v with
  | ok x =>
    show Follows (.ok (x, c)) (.ok (g x)) c
    rw [hg]
    exact .done
  | error m => exact .failed

theorem unexpected_error (c : Cursor) (expected : String) :
    ∃ f, (unexpected c expected : Except TextFault α) = .error f := by
  unfold unexpected
  split
  · exact ⟨_,rfl⟩
  · exact ⟨_,rfl⟩
  · split <;> exact ⟨_,rfl⟩

theorem Follows.unexpected (c : Cursor) (expected : String) (m : Mismatch) (c' : Cursor) :
    Follows (unexpected c expected) (.error m : Except Mismatch α) c' := by
  obtain ⟨f, hf⟩ := unexpected_error (α := α × Cursor) c expected
  rw [hf]
  exact .failed

/-! ## Scalars -/

variable {depth : Nat} {t : Json} {expected : String}

theorem follows_readString_other (h : Reads depth c t c') (hk : t.kind ≠ .string) {m : Mismatch} :
    Follows (readString c expected) (.error m) c' := by
  obtain ⟨x, cs, hc, hx⟩ := h.lead
  unfold readString
  dsimp only
  split
  next hq =>
    rw [hc] at hq
    cases hq
    exact absurd hx.symm hk
  next => exact .unexpected _ _ _ _

theorem follows_readString {s : String} (h : Reads depth c (.str s) c') :
    readString c expected = .ok (s, c') := by
  cases h with
  | str hc hs => simp [readString, hc, hs, lift]

theorem follows_readNumber_other (h : Reads depth c t c') (hk : t.kind ≠ .number) {m : Mismatch} :
    Follows (readNumber c expected) (.error m) c' := by
  obtain ⟨x, cs, hc, hx⟩ := h.lead
  unfold readNumber
  dsimp only
  split
  next hq =>
    rw [hc] at hq
    cases hq
    exact absurd hx.symm hk
  next y ys hy hq =>
    split
    next hd =>
      rw [hc] at hq
      cases hq
      have hne : ∀ z, Json.isDigit z = false → x ≠ z := fun z => Json.ne_of_isDigit hd
      apply absurd hx.symm
      simpa [Json.leadKind, hne '"' rfl, hne '[' rfl, hne '\x7b' rfl, hne 'n' rfl, hne 't' rfl,
        hne 'f' rfl] using hk
    next => exact .unexpected _ _ _ _
  next => exact .unexpected _ _ _ _

theorem follows_readNumber {n : Number} (h : Reads depth c (.num n) c') :
    readNumber c expected = .ok (n, c') := by
  cases h with
  | negative hc hn => simp [readNumber, hc, hn, lift]
  | number hc hd hn =>
    have hne := Json.ne_of_isDigit hd (x := '-') rfl
    simp [readNumber, hc, hd, hn, lift]

theorem follows_readFlag_other (h : Reads depth c t c') (hk : t.kind ≠ .boolean) {m : Mismatch} :
    Follows (readFlag c expected) (.error m) c' := by
  obtain ⟨x, cs, hc, hx⟩ := h.lead
  unfold readFlag
  dsimp only
  split
  next hq =>
    rw [hc] at hq
    cases hq
    exact absurd hx.symm hk
  next hq =>
    rw [hc] at hq
    cases hq
    exact absurd hx.symm hk
  next => exact .unexpected _ _ _ _

theorem follows_readFlag {b : Bool} (h : Reads depth c (.bool b) c') :
    readFlag c expected = .ok (b, c') := by
  cases h with
  | yes hc hi => simp [readFlag, hc, hi, lift, Except.map]
  | no hc hi => simp [readFlag, hc, hi, lift, Except.map]

/-! ## Containers -/

section Brackets

variable {contents inObject inList : Nat → Cursor → Except TextFault (Reached α)}

theorem follows_list {ts : List Json} (h : Reads depth c (.arr ts) c')
    (hclose : ∀ e, ReadsItems (depth - 1) true c.skipBlank.eat ts e →
      Json.closed (Json.closeList e) = .ok c' →
      Follows (close Json.closeList (contents (depth - 1) c.skipBlank.eat)) v c') :
    Follows (list expected depth contents c.skipBlank) v c' := by
  cases h with
  | arr hc hd hi he =>
    simp only [list, hc, nest, if_neg (Nat.not_le.mpr hd)]
    exact hclose _ hi he

theorem follows_list_other (h : Reads depth c t c') (hk : t.kind ≠ .array) {m : Mismatch} :
    Follows (list expected depth contents c.skipBlank) (.error m) c' := by
  obtain ⟨x, cs, hc, hx⟩ := h.lead
  unfold list
  split
  next hq =>
    rw [hc] at hq
    cases hq
    exact absurd hx.symm hk
  next => exact .unexpected _ _ _ _

theorem follows_object {ms : List (String × Json)} (h : Reads depth c (.obj ms) c')
    (hclose : ∀ e, ReadsMembers (depth - 1) true c.skipBlank.eat ms e →
      Json.closed (Json.closeObject e) = .ok c' →
      Follows (close Json.closeObject (contents (depth - 1) c.skipBlank.eat)) v c') :
    Follows (object expected depth contents c.skipBlank) v c' := by
  cases h with
  | obj hc hd hm he =>
    simp only [object, hc, nest, if_neg (Nat.not_le.mpr hd)]
    exact hclose _ hm he

theorem follows_object_other (h : Reads depth c t c') (hk : t.kind ≠ .object) {m : Mismatch} :
    Follows (object expected depth contents c.skipBlank) (.error m) c' := by
  obtain ⟨x, cs, hc, hx⟩ := h.lead
  unfold object
  split
  next hq =>
    rw [hc] at hq
    cases hq
    exact absurd hx.symm hk
  next => exact .unexpected _ _ _ _

theorem either_eq_object (h : Reads depth c t c') (hk : t.kind ≠ .array) :
    either expected depth inObject inList c.skipBlank =
      object expected depth inObject c.skipBlank := by
  obtain ⟨x, cs, hc, hx⟩ := h.lead
  unfold either object
  split
  next hq => simp only [hq]
  next hq =>
    rw [hc] at hq
    cases hq
    exact absurd hx.symm hk
  next ho _ =>
    split
    next hq => exact absurd hq (ho _)
    next => rfl

theorem either_eq_list (h : Reads depth c t c') (hk : t.kind = .array) :
    either expected depth inObject inList c.skipBlank =
      list expected depth inList c.skipBlank := by
  obtain ⟨x, cs, hc, hx⟩ := h.lead
  unfold either list
  split
  next hq =>
    rw [hc] at hq
    cases hq
    cases hx.trans hk
  next hq => simp only [hq]
  next _ hl =>
    split
    next hq => exact absurd hq (hl _)
    next => rfl

theorem follows_either (h : Reads depth c t c')
    (ho : t.kind ≠ .array → Follows (object expected depth inObject c.skipBlank) v c')
    (hl : t.kind = .array → Follows (list expected depth inList c.skipBlank) v c') :
    Follows (either expected depth inObject inList c.skipBlank) v c' := by
  by_cases hk : t.kind = .array
  · rw [either_eq_list h hk]
    exact hl hk
  · rw [either_eq_object h hk]
    exact ho hk

variable {read : Cursor → Except TextFault (α × Cursor)}

theorem nullable_null (h : Reads depth c .null c') :
    nullable read c.skipBlank = .ok (none, c') := by
  cases h with
  | null hc hi => simp [nullable, hc, hi, lift, bind, Except.bind]

theorem nullable_other (h : Reads depth c t c') (hk : t.kind ≠ .null) :
    nullable read c.skipBlank = read c.skipBlank >>= fun p => .ok (some p.1, p.2) := by
  obtain ⟨x, cs, hc, hx⟩ := h.lead
  unfold nullable
  split
  next hq =>
    rw [hc] at hq
    cases hq
    exact absurd hx.symm hk
  next => rfl

end Brackets

theorem gathers_each {read : Cursor → Except TextFault (α × Cursor)}
    {f : Json → Except Mismatch α} :
    ∀ {ts : List Json} {fuel : Nat} {first : Bool} {c e : Cursor}, ReadsItems depth first c ts e →
      (∀ t ∈ ts, ∀ a b, Reads depth a t b → Follows (read a) (f t) b) → ts.length < fuel →
      Gathers (items read fuel first c) (ts.mapM f) e
  | _, 0, _, _, _, _, _, hn => by simp at hn
  | [], fuel + 1, _, _, _, .stop h, _, _ => by
    simp only [items, h, lift]
    exact .done
  | t :: ts, fuel + 1, first, c, e, .part (a := a) (b := b) h ht hts, hread, hn => by
    obtain ⟨hread, hrest⟩ := List.forall_mem_cons.mp hread
    have hvalue := hread a b ht
    have hlen : ts.length < fuel := by simpa using hn
    have hitems := gathers_each hts hrest hlen
    rw [items, h, List.mapM_cons]
    change Gathers (read a >>= fun p => items read fuel false p.2 >>= _) _ e
    generalize read a = r, f t = v at hvalue
    cases hvalue with
    | failed => exact .failed
    | @done x =>
      show Gathers (items read fuel false b >>= _) ((ts.mapM f) >>= _) e
      generalize items read fuel false b = r, ts.mapM f = v at hitems
      cases hitems with
      | done => exact .done
      | stopped => exact .stopped
      | failed => exact .failed

/-- The members of an object, each of which follows what `step` does with it. The states of the
text are the images under `p` of those that `step` goes through. -/
theorem gathers_fold {σ τ : Type} {member : String → σ → Cursor → Except TextFault (Reached σ)}
    (step : τ → String × Json → Except Mismatch τ) (p : τ → σ) :
    ∀ {ms : List (String × Json)} {fuel : Nat} {first : Bool} {s : τ} {c e : Cursor},
      ReadsMembers depth first c ms e →
      (∀ m ∈ ms, ∀ s a b d, Json.readColon a = .ok b → Reads depth b m.2 d →
        Gathers (member m.1 (p s) a) ((step s m).map p) d) → ms.length < fuel →
      Gathers (members member fuel first (p s) c) ((ms.foldlM step s).map p) e
  | _, 0, _, _, _, _, _, _, hn => by simp at hn
  | [], fuel + 1, _, _, _, _, .stop h, _, _ => by
    simp only [members, h, lift]
    exact .done
  | (k, t) :: ms, fuel + 1, first, s, c, e, .part (a := a) (d := d) hk hb ht hms, hmember, hn => by
    obtain ⟨hmember, hrest⟩ := List.forall_mem_cons.mp hmember
    have hstep := hmember s a _ d hb ht
    rw [members, hk, List.foldlM_cons]
    change Gathers (member k (p s) a >>= _) _ e
    cases hs : step s (k, t) with
    | error m =>
      rw [hs] at hstep
      generalize member k (p s) a = r at hstep
      cases hstep with
      | stopped => exact .stopped
      | failed => exact .failed
    | ok s' =>
      rw [hs] at hstep
      generalize member k (p s) a = r at hstep
      cases hstep
      exact gathers_fold step p hms hrest (by simpa using hn)

end TextReader
end Unseal
