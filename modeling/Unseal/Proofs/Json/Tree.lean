import Unseal.Proofs.Json.Container

/-!
# What a text spells

`Reads depth c t c'` says that the value that begins at `c`, inside containers that leave `depth`
levels, is the tree `t` and ends at `c'`. A tree keeps the members of an object in the order of
the text, repeated keys included. Reading yields the normal form of the tree, and reads every
tree: the fuel always suffices.
-/

set_option autoImplicit false

namespace Unseal.Json

mutual
inductive Reads : Nat → Cursor → Json → Cursor → Prop
  | str {depth : Nat} {c c' : Cursor} {cs : List Char} {s : String} :
      c.skipBlank.rest = '"' :: cs → readString c.skipBlank.eat = .ok (s, c') →
      Reads depth c (.str s) c'
  | negative {depth : Nat} {c c' : Cursor} {cs : List Char} {n : Number} :
      c.skipBlank.rest = '-' :: cs → readNumber true c.skipBlank.eat = .ok (n, c') →
      Reads depth c (.num n) c'
  | number {depth : Nat} {c c' : Cursor} {d : Char} {cs : List Char} {n : Number} :
      c.skipBlank.rest = d :: cs → isDigit d → readNumber false c.skipBlank = .ok (n, c') →
      Reads depth c (.num n) c'
  | null {depth : Nat} {c c' : Cursor} {cs : List Char} :
      c.skipBlank.rest = 'n' :: cs → readIdent afterNull c.skipBlank.eat = .ok c' →
      Reads depth c .null c'
  | yes {depth : Nat} {c c' : Cursor} {cs : List Char} :
      c.skipBlank.rest = 't' :: cs → readIdent afterTrue c.skipBlank.eat = .ok c' →
      Reads depth c (.bool true) c'
  | no {depth : Nat} {c c' : Cursor} {cs : List Char} :
      c.skipBlank.rest = 'f' :: cs → readIdent afterFalse c.skipBlank.eat = .ok c' →
      Reads depth c (.bool false) c'
  | arr {depth : Nat} {c e c' : Cursor} {cs : List Char} {ts : List Json} :
      c.skipBlank.rest = '[' :: cs → 1 < depth → ReadsItems (depth - 1) true c.skipBlank.eat ts e →
      closed (closeList e) = .ok c' → Reads depth c (.arr ts) c'
  | obj {depth : Nat} {c e c' : Cursor} {cs : List Char} {ms : List (String × Json)} :
      c.skipBlank.rest = '\x7b' :: cs → 1 < depth →
      ReadsMembers (depth - 1) true c.skipBlank.eat ms e →
      closed (closeObject e) = .ok c' → Reads depth c (.obj ms) c'

inductive ReadsItems : Nat → Bool → Cursor → List Json → Cursor → Prop
  | stop {depth : Nat} {first : Bool} {c c' : Cursor} :
      nextItem first c = .ok (.stop c') → ReadsItems depth first c [] c'
  | part {depth : Nat} {first : Bool} {c a b c' : Cursor} {t : Json} {ts : List Json} :
      nextItem first c = .ok (.part a) → Reads depth a t b → ReadsItems depth false b ts c' →
      ReadsItems depth first c (t :: ts) c'

inductive ReadsMembers : Nat → Bool → Cursor → List (String × Json) → Cursor → Prop
  | stop {depth : Nat} {first : Bool} {c c' : Cursor} :
      nextKey first c = .ok (.stop c') → ReadsMembers depth first c [] c'
  | part {depth : Nat} {first : Bool} {c a b d c' : Cursor} {k : String} {t : Json}
      {ms : List (String × Json)} :
      nextKey first c = .ok (.part (k, a)) → readColon a = .ok b → Reads depth b t d →
      ReadsMembers depth false d ms c' → ReadsMembers depth first c ((k, t) :: ms) c'
end

mutual
/-- The value of a tree: members in key order, the last of equal keys. -/
def normal : Json → Json
  | .arr ts => .arr (normalItems ts)
  | .obj ms => mkObj (normalMembers ms)
  | t => t

def normalItems : List Json → List Json
  | [] => []
  | t :: ts => normal t :: normalItems ts

def normalMembers : List (String × Json) → List (String × Json)
  | [] => []
  | (k, t) :: ms => (k, normal t) :: normalMembers ms
end

mutual
/-- No object in the tree repeats a key. -/
def Distinct : Json → Prop
  | .arr ts => DistinctItems ts
  | .obj ms => (ms.map (·.1)).Nodup ∧ DistinctMembers ms
  | _ => True

def DistinctItems : List Json → Prop
  | [] => True
  | t :: ts => Distinct t ∧ DistinctItems ts

def DistinctMembers : List (String × Json) → Prop
  | [] => True
  | (_, t) :: ms => Distinct t ∧ DistinctMembers ms
end

theorem normalMembers_eq_map (ms : List (String × Json)) :
    normalMembers ms = ms.map fun m => (m.1, normal m.2) := by
  induction ms with
  | nil => rfl
  | cons m ms ih => simp [normalMembers, ih]

theorem normalItems_eq_map (ts : List Json) : normalItems ts = ts.map normal := by
  induction ts with
  | nil => rfl
  | cons t ts ih => rw [normalItems, ih, List.map_cons]

theorem DistinctItems.of_mem {ts : List Json} (h : DistinctItems ts) : ∀ t ∈ ts, t.Distinct := by
  induction ts with
  | nil => nofun
  | cons t ts ih => exact List.forall_mem_cons.mpr ⟨h.1,ih h.2⟩

theorem DistinctMembers.of_mem {ms : List (String × Json)} (h : DistinctMembers ms) :
    ∀ m ∈ ms, m.2.Distinct := by
  induction ms with
  | nil => nofun
  | cons m ms ih => exact List.forall_mem_cons.mpr ⟨h.1,ih h.2⟩

def leadKind (x : Char) : Kind :=
  if x = '"' then .string
  else if x = '[' then .array
  else if x = '\x7b' then .object
  else if x = 'n' then .null
  else if x = 't' ∨ x = 'f' then .boolean
  else .number

theorem ne_of_isDigit {d x : Char} (hd : isDigit d = true) (hx : isDigit x = false) : d ≠ x := by
  rintro rfl
  rw [hd] at hx
  cases hx

theorem Reads.lead {t : Json} {depth : Nat} {c c' : Cursor} (h : Reads depth c t c') :
    ∃ x cs, c.skipBlank.rest = x :: cs ∧ leadKind x = t.kind := by
  cases h with
  | str hc => exact ⟨_,_,hc,rfl⟩
  | negative hc => exact ⟨_,_,hc,rfl⟩
  | number hc hd =>
    have hne : ∀ x, isDigit x = false → _ ≠ x := fun x => ne_of_isDigit hd
    refine ⟨_,_,hc,?_⟩
    simp [leadKind, hne '"' rfl, hne '[' rfl, hne '\x7b' rfl, hne 'n' rfl, hne 't' rfl,
      hne 'f' rfl, kind]
  | null hc => exact ⟨_,_,hc,rfl⟩
  | yes hc => exact ⟨_,_,hc,rfl⟩
  | no hc => exact ⟨_,_,hc,rfl⟩
  | arr hc => exact ⟨_,_,hc,rfl⟩
  | obj hc => exact ⟨_,_,hc,rfl⟩

theorem Reads.lead_ne_close {t : Json} {depth : Nat} {c c' : Cursor} (h : Reads depth c t c') :
    ∃ x cs, c.skipBlank.rest = x :: cs ∧ x ≠ ']' := by
  cases h with
  | str hc => exact ⟨_,_,hc,by decide⟩
  | negative hc => exact ⟨_,_,hc,by decide⟩
  | number hc hd => exact ⟨_,_,hc,ne_of_isDigit hd rfl⟩
  | null hc => exact ⟨_,_,hc,by decide⟩
  | yes hc => exact ⟨_,_,hc,by decide⟩
  | no hc => exact ⟨_,_,hc,by decide⟩
  | arr hc => exact ⟨_,_,hc,by decide⟩
  | obj hc => exact ⟨_,_,hc,by decide⟩

theorem Reads.of_skipBlank_eq {t : Json} {depth : Nat} {c d c' : Cursor} (h : Reads depth c t c')
    (hb : c.skipBlank = d.skipBlank) : Reads depth d t c' := by
  cases h with
  | str hc hs => exact .str (hb ▸ hc) (hb ▸ hs)
  | negative hc hn => exact .negative (hb ▸ hc) (hb ▸ hn)
  | number hc hd hn => exact .number (hb ▸ hc) hd (hb ▸ hn)
  | null hc hi => exact .null (hb ▸ hc) (hb ▸ hi)
  | yes hc hi => exact .yes (hb ▸ hc) (hb ▸ hi)
  | no hc hi => exact .no (hb ▸ hc) (hb ▸ hi)
  | arr hc hd hi he => exact .arr (hb ▸ hc) hd (hb ▸ hi) he
  | obj hc hd hm he => exact .obj (hb ▸ hc) hd (hb ▸ hm) he

theorem Reads.skipBlank {t : Json} {depth : Nat} {c c' : Cursor} (h : Reads depth c t c') :
    Reads depth c.skipBlank t c' := h.of_skipBlank_eq c.skipBlank_skipBlank.symm

/-! ## Progress -/

mutual
theorem Reads.left_lt : ∀ {t : Json} {depth : Nat} {c c' : Cursor}, Reads depth c t c' →
    c'.left < c.left
  | .str _, _, c, _, .str hc hs => by
    have := c.skipBlank_left
    have := Cursor.eat_left hc
    have := readString_left hs
    omega
  | .num _, _, c, _, .negative hc hn => by
    have := c.skipBlank_left
    have := Cursor.eat_left hc
    have := readNumber_left hn
    omega
  | .num _, _, c, _, .number _ _ hn => by
    have := c.skipBlank_left
    have := readNumber_left hn
    omega
  | .null, _, c, _, .null hc hi => by
    have := c.skipBlank_left
    have := Cursor.eat_left hc
    have := readIdent_left hi
    omega
  | .bool _, _, c, _, .yes hc hi => by
    have := c.skipBlank_left
    have := Cursor.eat_left hc
    have := readIdent_left hi
    omega
  | .bool _, _, c, _, .no hc hi => by
    have := c.skipBlank_left
    have := Cursor.eat_left hc
    have := readIdent_left hi
    omega
  | .arr _, _, c, _, .arr (e := e) hc _ hi he => by
    have := c.skipBlank_left
    have := Cursor.eat_left hc
    have := hi.left_le
    obtain ⟨⟨_, hr⟩, rfl⟩ := closed_closeList.mp he
    have := e.skipBlank_left
    have := Cursor.eat_left hr
    omega
  | .obj _, _, c, _, .obj (e := e) hc _ hm he => by
    have := c.skipBlank_left
    have := Cursor.eat_left hc
    have := hm.left_le
    obtain ⟨⟨_, hr⟩, rfl⟩ := closed_closeObject.mp he
    have := e.skipBlank_left
    have := Cursor.eat_left hr
    omega

theorem ReadsItems.left_le : ∀ {ts : List Json} {depth : Nat} {first : Bool} {c c' : Cursor},
    ReadsItems depth first c ts c' → c'.left + ts.length ≤ c.left
  | [], _, _, c, _, .stop h => by
    rw [(nextItem_stop h).1]
    exact c.skipBlank_left
  | _ :: _, _, _, _, _, .part h ht hts => by
    have := nextItem_left h
    have := ht.left_lt
    have := hts.left_le
    simp only [List.length_cons]
    omega

theorem ReadsMembers.left_le : ∀ {ms : List (String × Json)} {depth : Nat} {first : Bool}
    {c c' : Cursor}, ReadsMembers depth first c ms c' → c'.left + ms.length ≤ c.left
  | [], _, _, c, _, .stop h => by
    rw [(nextKeyQuote_stop (nextKey_stop h)).1]
    exact c.skipBlank_left
  | _ :: _, _, _, _, _, .part hk hb ht hms => by
    have := nextKey_left hk
    have := readColon_left hb
    have := ht.left_lt
    have := hms.left_le
    simp only [List.length_cons]
    omega
end

end Unseal.Json
