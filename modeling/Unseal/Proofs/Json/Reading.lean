import Unseal.Proofs.Json.Tree
import Unseal.Proofs.Traversal

/-!
# Reading yields what is spelled

Every tree is read, with fuel for twice the characters that it takes, and whatever is read is the
normal form of a tree. So a text reads as a value exactly if it spells a tree of that normal form.
-/

set_option autoImplicit false

namespace Unseal.Json

mutual
/-- Two units of fuel for every character that a value takes are enough. -/
theorem Reads.readValue : ∀ {t : Json} {n depth : Nat} {c c' : Cursor}, Reads depth c t c' →
    2 * c.left ≤ n + 2 * c'.left → readValue n depth c = .ok (t.normal, c')
  | t, 0, _, _, _, h, hn => by
    have := h.left_lt
    omega
  | .str _, n + 1, _, _, _, .str hc hs, _ => by
    simp [Json.readValue, hc, hs, normal, bind, Except.bind]
  | .num _, n + 1, _, _, _, .negative hc hs, _ => by
    simp [Json.readValue, hc, hs, normal, bind, Except.bind]
  | .num _, n + 1, _, _, _, .number hc hd hs, _ => by
    have hne : ∀ x, isDigit x = false → _ ≠ x := fun x => ne_of_isDigit hd
    simp [Json.readValue, hc, hd, hs, normal, bind, Except.bind, hne '"' rfl, hne '[' rfl,
      hne '\x7b' rfl, hne '-' rfl]
  | .null, n + 1, _, _, _, .null hc hs, _ => by
    simp [Json.readValue, hc, hs, normal, isDigit, bind, Except.bind]
  | .bool _, n + 1, _, _, _, .yes hc hs, _ => by
    simp [Json.readValue, hc, hs, normal, isDigit, bind, Except.bind]
  | .bool _, n + 1, _, _, _, .no hc hs, _ => by
    simp [Json.readValue, hc, hs, normal, isDigit, bind, Except.bind]
  | .arr _, n + 1, _, c, _, .arr (e := e) hc hd hi he, hn => by
    obtain ⟨⟨_, hr⟩, rfl⟩ := closed_closeList.mp he
    have := c.skipBlank_left
    have := Cursor.eat_left hc
    have := e.skipBlank_left
    have := Cursor.eat_left hr
    have hitems := hi.readItems (n := n) (by omega)
    simp [Json.readValue, hc, hitems, he, normal, Nat.not_le.mpr hd, bind, Except.bind]
  | .obj _, n + 1, _, c, _, .obj (e := e) hc hd hm he, hn => by
    obtain ⟨⟨_, hr⟩, rfl⟩ := closed_closeObject.mp he
    have := c.skipBlank_left
    have := Cursor.eat_left hc
    have := e.skipBlank_left
    have := Cursor.eat_left hr
    have hmembers := hm.readMembers (n := n) (by omega)
    simp [Json.readValue, hc, hmembers, he, normal, Nat.not_le.mpr hd, bind, Except.bind]

theorem ReadsItems.readItems : ∀ {ts : List Json} {n depth : Nat} {first : Bool} {c c' : Cursor},
    ReadsItems depth first c ts c' → 2 * c.left + 1 ≤ n + 2 * c'.left →
    readItems n depth first c = .ok (normalItems ts, c')
  | _, 0, _, _, _, _, h, hn => by
    have := h.left_le
    omega
  | [], n + 1, _, _, _, _, .stop h, _ => by
    simp [Json.readItems, h, normalItems, bind, Except.bind]
  | _ :: _, n + 1, _, _, _, _, .part h ht hts, hn => by
    have := nextItem_left h
    have := ht.left_lt
    have := hts.left_le
    have hvalue := ht.readValue (n := n) (by omega)
    have hitems := hts.readItems (n := n) (by omega)
    simp [Json.readItems, h, hvalue, hitems, normalItems, bind, Except.bind]

theorem ReadsMembers.readMembers : ∀ {ms : List (String × Json)} {n depth : Nat} {first : Bool}
    {c c' : Cursor}, ReadsMembers depth first c ms c' → 2 * c.left + 1 ≤ n + 2 * c'.left →
    readMembers n depth first c = .ok (normalMembers ms, c')
  | _, 0, _, _, _, _, h, hn => by
    have := h.left_le
    omega
  | [], n + 1, _, _, _, _, .stop h, _ => by
    simp [Json.readMembers, h, normalMembers, bind, Except.bind]
  | _ :: _, n + 1, _, _, _, _, .part hk hb ht hms, hn => by
    have := nextKey_left hk
    have := readColon_left hb
    have := ht.left_lt
    have := hms.left_le
    have hvalue := ht.readValue (n := n) (by omega)
    have hmembers := hms.readMembers (n := n) (by omega)
    simp [Json.readMembers, hk, hb, hvalue, hmembers, normalMembers, bind, Except.bind]
end

mutual
/-- What is read is the normal form of what the text spells. -/
theorem reads_of_readValue : ∀ {n depth : Nat} {c c' : Cursor} {v : Json},
    readValue n depth c = .ok (v, c') → ∃ t, Reads depth c t c' ∧ t.normal = v
  | 0, _, _, _, _, h => by cases h
  | n + 1, depth, c, c', v, h => by
    rw [Json.readValue] at h
    dsimp only at h
    split at h
    next => cases h
    next x cs hc =>
      -- One case for each character that a value may begin with, in the reader's order.
      split at h
      next hx =>
        obtain ⟨⟨s, d⟩, hs, h⟩ := Traversal.bind_ok_iff.mp h
        cases h
        exact ⟨.str s,.str (hx ▸ hc) hs,rfl⟩
      next =>
      split at h
      next hx =>
        split at h
        next => cases h
        next hd =>
          obtain ⟨⟨vs, e⟩, hi, h⟩ := Traversal.bind_ok_iff.mp h
          obtain ⟨d, he, h⟩ := Traversal.bind_ok_iff.mp h
          obtain ⟨ts, hts, rfl⟩ := readsItems_of_readItems hi
          cases h
          exact ⟨.arr ts,.arr (hx ▸ hc) (Nat.lt_of_not_le hd) hts he,rfl⟩
      next =>
      split at h
      next hx =>
        split at h
        next => cases h
        next hd =>
          obtain ⟨⟨vs, e⟩, hi, h⟩ := Traversal.bind_ok_iff.mp h
          obtain ⟨d, he, h⟩ := Traversal.bind_ok_iff.mp h
          obtain ⟨ms, hms, rfl⟩ := readsMembers_of_readMembers hi
          cases h
          exact ⟨.obj ms,.obj (hx ▸ hc) (Nat.lt_of_not_le hd) hms he,rfl⟩
      next =>
      split at h
      next hx =>
        obtain ⟨⟨m, d⟩, hm, h⟩ := Traversal.bind_ok_iff.mp h
        cases h
        exact ⟨.num m,.negative (hx ▸ hc) hm,rfl⟩
      next =>
      split at h
      next hx =>
        obtain ⟨⟨m, d⟩, hm, h⟩ := Traversal.bind_ok_iff.mp h
        cases h
        exact ⟨.num m,.number hc hx hm,rfl⟩
      next =>
      split at h
      next hx =>
        obtain ⟨d, hi, h⟩ := Traversal.bind_ok_iff.mp h
        cases h
        exact ⟨.null,.null (hx ▸ hc) hi,rfl⟩
      next =>
      split at h
      next hx =>
        obtain ⟨d, hi, h⟩ := Traversal.bind_ok_iff.mp h
        cases h
        exact ⟨.bool true,.yes (hx ▸ hc) hi,rfl⟩
      next =>
      split at h
      next hx =>
        obtain ⟨d, hi, h⟩ := Traversal.bind_ok_iff.mp h
        cases h
        exact ⟨.bool false,.no (hx ▸ hc) hi,rfl⟩
      next => cases h

theorem readsItems_of_readItems : ∀ {n depth : Nat} {first : Bool} {c c' : Cursor}
    {vs : List Json}, readItems n depth first c = .ok (vs, c') →
    ∃ ts, ReadsItems depth first c ts c' ∧ normalItems ts = vs
  | 0, _, _, _, _, _, h => by cases h
  | n + 1, depth, first, c, c', vs, h => by
    rw [Json.readItems] at h
    obtain ⟨next, hnext, h⟩ := Traversal.bind_ok_iff.mp h
    cases next with
    | stop a =>
      cases h
      exact ⟨[],.stop hnext,rfl⟩
    | part a =>
      obtain ⟨⟨v, b⟩, hv, h⟩ := Traversal.bind_ok_iff.mp h
      obtain ⟨⟨ws, d⟩, hws, h⟩ := Traversal.bind_ok_iff.mp h
      cases h
      obtain ⟨t, ht, rfl⟩ := reads_of_readValue hv
      obtain ⟨ts, hts, rfl⟩ := readsItems_of_readItems hws
      exact ⟨t :: ts,.part hnext ht hts,rfl⟩

theorem readsMembers_of_readMembers : ∀ {n depth : Nat} {first : Bool} {c c' : Cursor}
    {ms : List (String × Json)}, readMembers n depth first c = .ok (ms, c') →
    ∃ ts, ReadsMembers depth first c ts c' ∧ normalMembers ts = ms
  | 0, _, _, _, _, _, h => by cases h
  | n + 1, depth, first, c, c', ms, h => by
    rw [Json.readMembers] at h
    obtain ⟨next, hnext, h⟩ := Traversal.bind_ok_iff.mp h
    cases next with
    | stop a =>
      cases h
      exact ⟨[],.stop hnext,rfl⟩
    | part a =>
      obtain ⟨k, a⟩ := a
      obtain ⟨b, hb, h⟩ := Traversal.bind_ok_iff.mp h
      obtain ⟨⟨v, d⟩, hv, h⟩ := Traversal.bind_ok_iff.mp h
      obtain ⟨⟨ws, e⟩, hws, h⟩ := Traversal.bind_ok_iff.mp h
      cases h
      obtain ⟨t, ht, rfl⟩ := reads_of_readValue hv
      obtain ⟨ts, hts, rfl⟩ := readsMembers_of_readMembers hws
      exact ⟨(k, t) :: ts,.part hnext hb ht hts,rfl⟩
end

def Spells (text : String) (t : Json) : Prop :=
  ∃ c, Reads depthLimit (.ofText text) t c ∧ finish c = .ok ()

theorem read_ok_iff_spells (text : String) (v : Json) :
    read text = .ok v ↔ ∃ t, Spells text t ∧ t.normal = v := by
  rw [read]
  simp only [Traversal.bind_ok_iff, Prod.exists]
  constructor
  · intro h
    obtain ⟨w, c, hw, ⟨⟩, hc, h⟩ := h
    cases h
    obtain ⟨t, ht, rfl⟩ := reads_of_readValue hw
    exact ⟨t,⟨c,ht,hc⟩,rfl⟩
  · intro h
    obtain ⟨t, ⟨c, ht, hc⟩, rfl⟩ := h
    have hv := ht.readValue (n := fuelFor (.ofText text)) (by simp [fuelFor, Cursor.left]; omega)
    exact ⟨t.normal,c,hv,(),hc,rfl⟩

end Unseal.Json
