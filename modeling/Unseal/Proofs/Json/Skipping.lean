import Unseal.Proofs.Json.Reading

/-!
# What can be read can be skipped

The skipper keeps the open containers on a stack where the reader recurses. From the beginning of
a value that spells a tree it comes to where that value ends, with its stack as it was.
-/

set_option autoImplicit false

namespace Unseal.Json

/-- On from a value boundary, where `skipClose` has left the stack. -/
def goOn (fuel : Nat) : List Bracket × Cursor → Except Fault Cursor
  | ([], c) => .ok c
  | (b :: stack, c) => skipValueFrom fuel (b :: stack) c

def resume (fuel : Nat) (stack : List Bracket) (c : Cursor) : Except Fault Cursor :=
  skipClose true stack c >>= goOn fuel

theorem skipValueFrom_scalar {fuel : Nat} {stack : List Bracket} {c c' : Cursor}
    (h : skipStart c.skipBlank = .ok (none, c')) :
    skipValueFrom (fuel + 1) stack c = resume fuel stack c' := by
  rw [skipValueFrom, h, resume]
  change (skipClose true stack c' >>= _) = _
  cases skipClose true stack c' with
  | error f => rfl
  | ok r => obtain ⟨_ | ⟨b, rest⟩, d⟩ := r <;> rfl

theorem skipValueFrom_open {fuel : Nat} {stack : List Bracket} {c c' : Cursor} {b : Bracket}
    (h : skipStart c.skipBlank = .ok (some b, c')) :
    skipValueFrom (fuel + 1) stack c = skipClose false (b :: stack) c' >>= goOn fuel := by
  rw [skipValueFrom, h]
  change (skipClose false (b :: stack) c' >>= _) = _
  cases skipClose false (b :: stack) c' with
  | error f => rfl
  | ok r => obtain ⟨_ | ⟨b', rest⟩, d⟩ := r <;> rfl

theorem skipValueFrom_skipBlank (fuel : Nat) (stack : List Bracket) (c : Cursor) :
    skipValueFrom (fuel + 1) stack c.skipBlank = skipValueFrom (fuel + 1) stack c := by
  rw [skipValueFrom, skipValueFrom, Cursor.skipBlank_skipBlank]

mutual
/-- How many values the skipper starts within a tree. -/
def starts : Json → Nat
  | .arr ts => startsItems ts + 1
  | .obj ms => startsMembers ms + 1
  | _ => 1

def startsItems : List Json → Nat
  | [] => 0
  | t :: ts => starts t + startsItems ts

def startsMembers : List (String × Json) → Nat
  | [] => 0
  | (_, t) :: ms => starts t + startsMembers ms
end

theorem starts_pos (t : Json) : 0 < starts t := by
  cases t <;> simp [starts]

theorem skipClose_item (stack : List Bracket) {first : Bool} {c a : Cursor}
    (h : nextItem first c = .ok (.part a)) :
    ∃ b, b.skipBlank = a ∧ skipClose (!first) (.list :: stack) c = .ok (.list :: stack, b) := by
  obtain ⟨⟨x, cs, hc, hx⟩, hp⟩ := nextItem_part h
  cases first with
  | true =>
    simp only [if_true] at hp
    refine ⟨c.skipBlank,by rw [hp, Cursor.skipBlank_skipBlank],?_⟩
    simp [skipClose, hc, hx, Bracket.close]
  | false =>
    simp only [Bool.false_eq_true, if_false] at hp
    obtain ⟨⟨ds, hd⟩, rfl⟩ := hp
    exact ⟨c.skipBlank.eat,rfl,by simp [skipClose, hd, Bracket.close]⟩

theorem skipClose_key {first : Bool} {stack : List Bracket} {c a b : Cursor} {k : String}
    (hk : nextKey first c = .ok (.part (k, a))) (hb : readColon a = .ok b) :
    skipClose (!first) (.object :: stack) c = .ok (.object :: stack, b) := by
  obtain ⟨q, hq, hs⟩ := nextKey_part hk
  obtain ⟨⟨cs, hc⟩, hp⟩ := nextKeyQuote_part hq
  have hskip := readString_skip hs
  cases first with
  | true =>
    simp only [if_true] at hp
    subst hp
    simp [skipClose, skipKey, hc, hskip, hb, Bracket.close, bind, Except.bind]
  | false =>
    simp only [Bool.false_eq_true, if_false] at hp
    obtain ⟨⟨ds, hd⟩, rfl⟩ := hp
    simp [skipClose, skipKey, hd, hc, hskip, hb, Bracket.close, bind, Except.bind]

mutual
theorem Reads.skipValueFrom : ∀ {t : Json} {depth fuel : Nat} {stack : List Bracket}
    {c c' : Cursor}, Reads depth c t c' →
    skipValueFrom (fuel + starts t) stack c = resume fuel stack c'
  | .str _, _, _, _, _, _, .str hc hs => by
    apply skipValueFrom_scalar
    simp [skipStart, hc, readString_skip hs, Except.map]
  | .num _, _, _, _, _, _, .negative hc hn => by
    apply skipValueFrom_scalar
    simp [skipStart, hc, readNumber_skip hn, Except.map]
  | .num _, _, _, _, _, _, .number hc hd hn => by
    have hne : ∀ x, isDigit x = false → _ ≠ x := fun x => ne_of_isDigit hd
    apply skipValueFrom_scalar
    simp [skipStart, hc, hd, readNumber_skip hn, Except.map, hne '"' rfl, hne '[' rfl,
      hne '\x7b' rfl, hne '-' rfl]
  | .null, _, _, _, _, _, .null hc hi => by
    apply skipValueFrom_scalar
    simp [skipStart, hc, hi, isDigit, Except.map]
  | .bool _, _, _, _, _, _, .yes hc hi => by
    apply skipValueFrom_scalar
    simp [skipStart, hc, hi, isDigit, Except.map]
  | .bool _, _, _, _, _, _, .no hc hi => by
    apply skipValueFrom_scalar
    simp [skipStart, hc, hi, isDigit, Except.map]
  | .arr ts, _, fuel, stack, c, _, .arr hc _ hi he => by
    -- The bracket goes onto the stack, and the end of the list takes it off again.
    have hopen : skipStart c.skipBlank = .ok (some .list, c.skipBlank.eat) := by
      simp [skipStart, hc]
    rw [starts, ← Nat.add_assoc, skipValueFrom_open hopen]
    exact hi.skipClose he
  | .obj ms, _, fuel, stack, c, _, .obj hc _ hm he => by
    have hopen : skipStart c.skipBlank = .ok (some .object, c.skipBlank.eat) := by
      simp [skipStart, hc]
    rw [starts, ← Nat.add_assoc, skipValueFrom_open hopen]
    exact hm.skipClose he

theorem ReadsItems.skipClose : ∀ {ts : List Json} {depth fuel : Nat} {first : Bool}
    {stack : List Bracket} {c e c' : Cursor}, ReadsItems depth first c ts e →
    closed (closeList e) = .ok c' →
    skipClose (!first) (.list :: stack) c >>= goOn (fuel + startsItems ts) = resume fuel stack c'
  | [], _, _, _, _, c, _, _, .stop h, he => by
    obtain ⟨rfl, cs, hc⟩ := nextItem_stop h
    obtain ⟨_, rfl⟩ := closed_closeList.mp he
    simp [Json.skipClose, hc, Bracket.close, resume, startsItems]
  | t :: ts, _, fuel, _, stack, _, _, _, .part (b := d) h ht hts, he => by
    obtain ⟨b, rfl, hb⟩ := skipClose_item stack h
    obtain ⟨n, hn⟩ := Nat.exists_eq_add_of_lt (starts_pos t)
    have hfuel : fuel + startsItems (t :: ts) = fuel + startsItems ts + starts t := by
      rw [startsItems, Nat.add_comm (starts t), Nat.add_assoc]
    have hvalue : goOn (fuel + startsItems (t :: ts)) (.list :: stack, b) =
        resume (fuel + startsItems ts) (.list :: stack) d := by
      rw [← ht.skipValueFrom, goOn, hfuel, hn]
      exact (skipValueFrom_skipBlank _ _ _).symm
    rw [hb]
    exact hvalue.trans (hts.skipClose he)

theorem ReadsMembers.skipClose : ∀ {ms : List (String × Json)} {depth fuel : Nat} {first : Bool}
    {stack : List Bracket} {c e c' : Cursor}, ReadsMembers depth first c ms e →
    closed (closeObject e) = .ok c' →
    skipClose (!first) (.object :: stack) c >>= goOn (fuel + startsMembers ms) =
      resume fuel stack c'
  | [], _, _, _, _, c, _, _, .stop h, he => by
    obtain ⟨rfl, cs, hc⟩ := nextKeyQuote_stop (nextKey_stop h)
    obtain ⟨_, rfl⟩ := closed_closeObject.mp he
    simp [Json.skipClose, hc, Bracket.close, resume, startsMembers]
  | (k, t) :: ms, _, fuel, _, stack, _, _, _, .part (b := b) (d := d) hk hb ht hms, he => by
    have hvalue : goOn (fuel + startsMembers ((k, t) :: ms)) (.object :: stack, b) =
        resume (fuel + startsMembers ms) (.object :: stack) d := by
      rw [goOn, startsMembers, Nat.add_comm (starts t), ← Nat.add_assoc]
      exact ht.skipValueFrom
    rw [skipClose_key hk hb]
    exact hvalue.trans (hms.skipClose he)
end

mutual
theorem Reads.starts_le : ∀ {t : Json} {depth : Nat} {c c' : Cursor}, Reads depth c t c' →
    c'.left + starts t ≤ c.left
  | .arr _, _, c, _, h@(.arr (e := e) hc _ hi he) => by
    have := c.skipBlank_left
    have := Cursor.eat_left hc
    have := hi.starts_le
    obtain ⟨⟨_, hr⟩, rfl⟩ := closed_closeList.mp he
    have := e.skipBlank_left
    have := Cursor.eat_left hr
    simp only [starts]
    omega
  | .obj _, _, c, _, .obj (e := e) hc _ hm he => by
    have := c.skipBlank_left
    have := Cursor.eat_left hc
    have := hm.starts_le
    obtain ⟨⟨_, hr⟩, rfl⟩ := closed_closeObject.mp he
    have := e.skipBlank_left
    have := Cursor.eat_left hr
    simp only [starts]
    omega
  | .str _, _, _, _, h => h.left_lt
  | .num _, _, _, _, h => h.left_lt
  | .null, _, _, _, h => h.left_lt
  | .bool _, _, _, _, h => h.left_lt

theorem ReadsItems.starts_le : ∀ {ts : List Json} {depth : Nat} {first : Bool} {c c' : Cursor},
    ReadsItems depth first c ts c' → c'.left + startsItems ts ≤ c.left
  | [], _, _, _, _, h => h.left_le
  | _ :: _, _, _, _, _, .part h ht hts => by
    have := nextItem_left h
    have := ht.starts_le
    have := hts.starts_le
    simp only [startsItems]
    omega

theorem ReadsMembers.starts_le : ∀ {ms : List (String × Json)} {depth : Nat} {first : Bool}
    {c c' : Cursor}, ReadsMembers depth first c ms c' → c'.left + startsMembers ms ≤ c.left
  | [], _, _, _, _, h => h.left_le
  | _ :: _, _, _, _, _, .part hk hb ht hms => by
    have := nextKey_left hk
    have := readColon_left hb
    have := ht.starts_le
    have := hms.starts_le
    simp only [startsMembers]
    omega
end

theorem Reads.skipValue {depth : Nat} {c c' : Cursor} {t : Json} (h : Reads depth c t c') :
    skipValue c = .ok c' := by
  have hle := h.starts_le
  have hfuel : c.rest.length + 1 = (c.left + 1 - starts t) + starts t := by
    have : c.rest.length = c.left := rfl
    omega
  rw [Json.skipValue, hfuel, h.skipValueFrom]
  rfl

end Unseal.Json
