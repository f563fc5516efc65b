import Unseal.Proofs.Json.StringWritten
import Unseal.Proofs.Json.FloatWritten
import Unseal.Proofs.Json.Layout
import Unseal.Proofs.Members

/-!
# Written values read back

The text of a value in any layout spells the value, up to what its floats are reread as, provided
that the value keeps its objects in key order and nests no deeper than the reader goes.
-/

set_option autoImplicit false

namespace Unseal.Json

/-! ## What is read back -/

mutual
/-- The value with every float replaced by what its digits are read as. -/
def reread : Json → Json
  | .num (.float x) => .num (.float (rereadFloat x))
  | .arr vs => .arr (rereadItems vs)
  | .obj ms => .obj (rereadMembers ms)
  | v => v

def rereadItems : List Json → List Json
  | [] => []
  | v :: vs => reread v :: rereadItems vs

def rereadMembers : List (String × Json) → List (String × Json)
  | [] => []
  | (k, v) :: ms => (k, reread v) :: rereadMembers ms
end

theorem rereadItems_eq_map (vs : List Json) : rereadItems vs = vs.map reread := by
  induction vs with
  | nil => rfl
  | cons v vs ih => rw [rereadItems, ih, List.map_cons]

theorem rereadMembers_eq_map (ms : List (String × Json)) :
    rereadMembers ms = ms.map fun m => (m.1, reread m.2) := by
  induction ms with
  | nil => rfl
  | cons m ms ih => rw [rereadMembers, ih, List.map_cons]

theorem keys_rereadMembers (ms : List (String × Json)) :
    Members.keys (rereadMembers ms) = Members.keys ms := by
  simp [rereadMembers_eq_map, Members.keys]

theorem rereadMembers_sorted {ms : List (String × Json)} (h : Members.Sorted ms) :
    Members.Sorted (rereadMembers ms) := by
  rwa [Members.Sorted, keys_rereadMembers]

/-! ## Legible values -/

mutual
/-- A value that its text spells, inside containers that leave `depth` levels. -/
def Legible : Nat → Json → Prop
  | _, .num (.int n) => Number.inRange n
  | _, .num (.float x) => Readable x
  | depth, .arr vs => 1 < depth ∧ LegibleItems (depth - 1) vs
  | depth, .obj ms => 1 < depth ∧ Members.Sorted ms ∧ LegibleMembers (depth - 1) ms
  | _, _ => True

def LegibleItems : Nat → List Json → Prop
  | _, [] => True
  | depth, v :: vs => Legible depth v ∧ LegibleItems depth vs

def LegibleMembers : Nat → List (String × Json) → Prop
  | _, [] => True
  | depth, (_, v) :: ms => Legible depth v ∧ LegibleMembers depth ms
end

mutual
instance decideLegible : (depth : Nat) → (v : Json) → Decidable (Legible depth v)
  | _, .null => .isTrue trivial
  | _, .bool _ => .isTrue trivial
  | _, .str _ => .isTrue trivial
  | _, .num (.int n) => inferInstanceAs (Decidable (Number.inRange n = true))
  | _, .num (.float x) => inferInstanceAs (Decidable (Readable x))
  | depth, .arr vs =>
    have := decideItems (depth - 1) vs
    inferInstanceAs (Decidable (1 < depth ∧ LegibleItems (depth - 1) vs))
  | depth, .obj ms =>
    have := decideMembers (depth - 1) ms
    inferInstanceAs (Decidable (1 < depth ∧ Members.Sorted ms ∧ LegibleMembers (depth - 1) ms))

instance decideItems : (depth : Nat) → (vs : List Json) → Decidable (LegibleItems depth vs)
  | _, [] => .isTrue trivial
  | depth, v :: vs =>
    have := decideLegible depth v
    have := decideItems depth vs
    inferInstanceAs (Decidable (Legible depth v ∧ LegibleItems depth vs))

instance decideMembers : (depth : Nat) → (ms : List (String × Json)) →
    Decidable (LegibleMembers depth ms)
  | _, [] => .isTrue trivial
  | depth, (_, v) :: ms =>
    have := decideLegible depth v
    have := decideMembers depth ms
    inferInstanceAs (Decidable (Legible depth v ∧ LegibleMembers depth ms))
end

mutual
theorem Legible.normal_eq : ∀ {v : Json} {depth : Nat}, Legible depth v → v.reread.normal = v.reread
  | .null, _, _ => rfl
  | .bool _, _, _ => rfl
  | .num (.int _), _, _ => rfl
  | .num (.float _), _, _ => rfl
  | .str _, _, _ => rfl
  | .arr _, _, h => congrArg Json.arr h.2.normal_eq
  | .obj ms, _, h => by
    rw [reread, normal, h.2.2.normal_eq, mkObj, Members.ofList_sorted (rereadMembers_sorted h.2.1)]

theorem LegibleItems.normal_eq : ∀ {vs : List Json} {depth : Nat}, LegibleItems depth vs →
    normalItems (rereadItems vs) = rereadItems vs
  | [], _, _ => rfl
  | _ :: _, _, h => by rw [rereadItems, normalItems, h.1.normal_eq, h.2.normal_eq]

theorem LegibleMembers.normal_eq : ∀ {ms : List (String × Json)} {depth : Nat},
    LegibleMembers depth ms → normalMembers (rereadMembers ms) = rereadMembers ms
  | [], _, _ => rfl
  | _ :: _, _, h => by rw [rereadMembers, normalMembers, h.1.normal_eq, h.2.normal_eq]
end

mutual
theorem Legible.distinct : ∀ {v : Json} {depth : Nat}, Legible depth v → v.reread.Distinct
  | .null, _, _ => trivial
  | .bool _, _, _ => trivial
  | .num (.int _), _, _ => trivial
  | .num (.float _), _, _ => trivial
  | .str _, _, _ => trivial
  | .arr _, _, h => h.2.distinct
  | .obj _, _, h => ⟨(rereadMembers_sorted h.2.1).nodup,h.2.2.distinct⟩

theorem LegibleItems.distinct : ∀ {vs : List Json} {depth : Nat}, LegibleItems depth vs →
    DistinctItems (rereadItems vs)
  | [], _, _ => trivial
  | _ :: _, _, h => ⟨h.1.distinct,h.2.distinct⟩

theorem LegibleMembers.distinct : ∀ {ms : List (String × Json)} {depth : Nat},
    LegibleMembers depth ms → DistinctMembers (rereadMembers ms)
  | [], _, _ => trivial
  | _ :: _, _, h => ⟨h.1.distinct,h.2.distinct⟩
end

/-! ## Texts -/

theorem skipBlank_cons {x : Char} (hx : Cursor.isBlank x = false) (cs : List Char) (p : Place) :
    Cursor.skipBlank ⟨x :: cs, p⟩ = ⟨x :: cs, p⟩ := Cursor.skipBlank_of_not_blank rfl hx

theorem rest_cons {x : Char} (hx : Cursor.isBlank x = false) (cs : List Char) (p : Place) :
    (Cursor.skipBlank ⟨x :: cs, p⟩).rest = x :: cs := by rw [skipBlank_cons hx]

theorem eat_cons {x : Char} (hx : Cursor.isBlank x = false) {cs : List Char} {p : Place} :
    (Cursor.skipBlank ⟨x :: cs, p⟩).eat = ⟨cs, p.advance x⟩ := by rw [skipBlank_cons hx]; rfl

theorem reads_int {n : Int} (h : Number.inRange n) (depth : Nat) {rest : List Char}
    (hr : Ends rest) (p : Place) :
    ∃ q, Reads depth ⟨intChars n ++ rest, p⟩ (.num (.int n)) ⟨rest, q⟩ := by
  obtain ⟨hlow, hhigh⟩ : -0x8000000000000000 ≤ n ∧ n ≤ 0xffffffffffffffff := by
    simpa [Number.inRange] using h
  unfold intChars
  split
  next hneg =>
    obtain ⟨q, hq⟩ := readNumber_natChars true (n := n.natAbs)
      (by simp only [significandLimit]; omega) hr (p.advance '-')
    have hvalue : integerNumber true n.natAbs = .int n := by
      rw [integerNumber, if_pos rfl, if_neg (by omega)]
      congr 1
      omega
    rw [hvalue] at hq
    exact ⟨q,.negative (by rw [List.cons_append, skipBlank_cons rfl])
      (by rw [List.cons_append, skipBlank_cons rfl]; exact hq)⟩
  next hpos =>
    obtain ⟨q, hq⟩ := readNumber_natChars false (n := n.natAbs)
      (by simp only [significandLimit]; omega) hr p
    have hvalue : integerNumber false n.natAbs = .int n := by
      rw [integerNumber, if_neg (by simp)]
      congr 1
      omega
    rw [hvalue] at hq
    cases hds : natChars n.natAbs with
    | nil => exact absurd hds Nat.toDigits_ne_nil
    | cons d ds =>
      have hd := isDigit_natChars d (n := n.natAbs) (by simp [hds])
      have hskip := skipBlank_cons (not_blank_of_isDigit hd) (ds ++ rest) p
      rw [hds] at hq
      have hfirst : (Cursor.skipBlank ⟨d :: ds ++ rest, p⟩).rest = d :: (ds ++ rest) := by
        rw [List.cons_append, hskip]
      exact ⟨q,.number hfirst hd (by rw [List.cons_append, hskip]; exact hq)⟩

theorem nextItem_first {c : Cursor} {x : Char} {cs : List Char} (hc : c.skipBlank.rest = x :: cs)
    (hx : x ≠ ']') : nextItem true c = .ok (.part c.skipBlank) := by
  simp [nextItem, hc, hx]

theorem nextItem_comma {cs : List Char} {p : Place} {y : Char} {ys : List Char}
    (hy : (Cursor.skipBlank ⟨cs, p.advance ','⟩).rest = y :: ys) (hne : y ≠ ']') :
    nextItem false ⟨',' :: cs, p⟩ = .ok (.part (Cursor.skipBlank ⟨cs, p.advance ','⟩)) := by
  have hskip := skipBlank_cons (x := ',') rfl cs p
  simp [nextItem, hskip, Cursor.eat, hy, hne]

theorem skipBlank_stringChars {bs : List Char} (h : Blank bs) (k : String) (rest : List Char)
    (p : Place) : ∃ q, Cursor.skipBlank ⟨bs ++ (stringChars k ++ rest), p⟩ =
      ⟨'"' :: (escape k.toList ++ '"' :: rest), q⟩ := by
  obtain ⟨q, hq⟩ := Cursor.skipBlank_blank h (stringChars k ++ rest) p
  have hquote := skipBlank_cons (x := '"') rfl (escape k.toList ++ '"' :: rest) q
  refine ⟨q,?_⟩
  rw [hq, ← hquote]
  simp [stringChars]

theorem nextKey_first {bs : List Char} (h : Blank bs) (k : String) (rest : List Char) (p : Place) :
    ∃ q, nextKey true ⟨bs ++ (stringChars k ++ rest), p⟩ = .ok (.part (k, ⟨rest, q⟩)) := by
  obtain ⟨q, hskip⟩ := skipBlank_stringChars h k rest p
  obtain ⟨r, hr⟩ := readString_stringChars k rest (q.advance '"')
  refine ⟨r,?_⟩
  simp [nextKey, nextKeyQuote, hskip, Cursor.eat, hr]

theorem nextKey_comma {bs : List Char} (h : Blank bs) (k : String) (rest : List Char) (p : Place) :
    ∃ q, nextKey false ⟨',' :: (bs ++ (stringChars k ++ rest)), p⟩ =
      .ok (.part (k, ⟨rest, q⟩)) := by
  obtain ⟨q, hskip⟩ := skipBlank_stringChars h k rest (p.advance ',')
  obtain ⟨r, hr⟩ := readString_stringChars k rest (q.advance '"')
  have hcomma := skipBlank_cons (x := ',') rfl (bs ++ (stringChars k ++ rest)) p
  refine ⟨r,?_⟩
  simp [nextKey, nextKeyQuote, hcomma, hskip, Cursor.eat, hr]

theorem readColon_colon (rest : List Char) (p : Place) :
    readColon ⟨':' :: rest, p⟩ = .ok ⟨rest, p.advance ':'⟩ := by
  simp [readColon, skipBlank_cons (x := ':') rfl, Cursor.eat]

theorem Blank.ends {bs : List Char} (h : Blank bs) {rest : List Char} (hr : Ends rest) :
    Ends (bs ++ rest) := by
  cases bs with
  | nil => exact hr
  | cons x bs =>
    have hx := h x List.mem_cons_self
    refine ends_cons ?_ ?_ ?_ ?_
    · cases hd : isDigit x with
      | false => rfl
      | true => rw [not_blank_of_isDigit hd] at hx; cases hx
    all_goals rintro rfl; cases hx

theorem ends_itemChars (l : Layout) (d : Nat) (vs : List Json) (rest : List Char) :
    Ends (l.itemChars d vs ++ rest) := by
  cases vs with
  | nil =>
    rw [Layout.itemChars, List.append_assoc]
    exact (l.gap_blank d).ends (ends_cons rfl (by decide) (by decide) (by decide))
  | cons v vs => exact ends_cons rfl (by decide) (by decide) (by decide)

theorem ends_memberChars (l : Layout) (d : Nat) (ms : List (String × Json)) (rest : List Char) :
    Ends (l.memberChars d ms ++ rest) := by
  cases ms with
  | nil =>
    rw [Layout.memberChars, List.append_assoc]
    exact (l.gap_blank d).ends (ends_cons rfl (by decide) (by decide) (by decide))
  | cons m ms => exact ends_cons rfl (by decide) (by decide) (by decide)

theorem closed_list (rest : List Char) (p : Place) :
    closed (closeList ⟨']' :: rest, p⟩) = .ok ⟨rest, p.advance ']'⟩ := by
  have hskip := skipBlank_cons (x := ']') rfl rest p
  exact closed_closeList.mpr ⟨⟨rest,by rw [hskip]⟩,by rw [hskip]; rfl⟩

theorem closed_object (rest : List Char) (p : Place) :
    closed (closeObject ⟨'\x7d' :: rest, p⟩) = .ok ⟨rest, p.advance '\x7d'⟩ := by
  have hskip := skipBlank_cons (x := '\x7d') rfl rest p
  exact closed_closeObject.mpr ⟨⟨rest,by rw [hskip]⟩,by rw [hskip]; rfl⟩

theorem reads_blank {bs : List Char} (h : Blank bs) {cs rest : List Char} {depth : Nat} {t : Json}
    (hreads : ∀ p, ∃ q, Reads depth ⟨cs, p⟩ t ⟨rest, q⟩) (p : Place) :
    ∃ q, Reads depth ⟨bs ++ cs, p⟩ t ⟨rest, q⟩ := by
  obtain ⟨r, hr⟩ := Cursor.skipBlank_blank h cs p
  obtain ⟨q, hq⟩ := hreads r
  exact ⟨q,hq.of_skipBlank_eq hr.symm⟩

mutual
/-- In every layout the text of a legible value spells what it is reread as, whatever follows. -/
theorem Legible.reads (l : Layout) : ∀ {v : Json} {depth d : Nat} {rest : List Char} (p : Place),
    Legible depth v → Ends rest →
    ∃ q, Reads depth ⟨l.chars d v ++ rest, p⟩ v.reread ⟨rest, q⟩
  | .null, _, _, _, _, _, _ => ⟨_,.null rfl rfl⟩
  | .bool true, _, _, _, _, _, _ => ⟨_,.yes rfl rfl⟩
  | .bool false, _, _, _, _, _, _ => ⟨_,.no rfl rfl⟩
  | .num (.int _), depth, _, _, p, h, hr => reads_int h depth hr p
  | .num (.float _), depth, _, _, p, h, hr => Readable.reads h depth hr p
  | .str s, _, d, rest, p, _, _ => by
    have htext : l.chars d (.str s) ++ rest = '"' :: (escape s.toList ++ '"' :: rest) := by
      simp [Layout.chars, compactChars, stringChars]
    obtain ⟨q, hq⟩ := readString_stringChars s rest (p.advance '"')
    rw [htext]
    exact ⟨q,.str (rest_cons rfl _ p) (by rwa [eat_cons rfl])⟩
  | .arr [], _, d, rest, p, h, _ => by
    have htext : l.chars d (.arr []) ++ rest = '[' :: ']' :: rest := by simp [Layout.chars]
    have hclose := skipBlank_cons (x := ']') rfl rest (p.advance '[')
    have hend := nextItem_of_end true (rest_cons rfl rest (p.advance '['))
    rw [hclose] at hend
    rw [htext]
    exact ⟨_,.arr (rest_cons rfl _ p) h.1 (.stop (by rwa [eat_cons rfl]))
      (closed_list rest (p.advance '['))⟩
  | .arr (v :: vs), _, d, rest, p, h, _ => by
    have htext : l.chars d (.arr (v :: vs)) ++ rest =
        '[' :: (l.gap (d + 1) ++ (l.chars (d + 1) v ++ (l.itemChars d vs ++ rest))) := by
      simp [Layout.chars]
    obtain ⟨q, hv⟩ := reads_blank (l.gap_blank (d + 1))
      (fun p => h.2.1.reads l p (ends_itemChars l d vs rest)) (p.advance '[')
    obtain ⟨r, hvs⟩ := h.2.2.reads l rest q
    -- The element does not begin with the bracket that would end the list.
    obtain ⟨x, cs, hx, hne⟩ := hv.lead_ne_close
    have hfirst := nextItem_first hx hne
    rw [htext]
    exact ⟨_,.arr (rest_cons rfl _ p) h.1 (.part (by rwa [eat_cons rfl]) hv.skipBlank hvs)
      (closed_list rest r)⟩
  | .obj [], _, d, rest, p, h, _ => by
    have htext : l.chars d (.obj []) ++ rest = '\x7b' :: '\x7d' :: rest := by simp [Layout.chars]
    have hclose := skipBlank_cons (x := '\x7d') rfl rest (p.advance '\x7b')
    have hend : nextKey true ⟨'\x7d' :: rest, p.advance '\x7b'⟩ =
        .ok (.stop ⟨'\x7d' :: rest, p.advance '\x7b'⟩) := by
      simp [nextKey, nextKeyQuote, hclose]
    rw [htext]
    exact ⟨_,.obj (rest_cons rfl _ p) h.1 (.stop (by rwa [eat_cons rfl]))
      (closed_object rest (p.advance '\x7b'))⟩
  | .obj ((k, v) :: ms), _, d, rest, p, h, _ => by
    have htext : l.chars d (.obj ((k, v) :: ms)) ++ rest =
        '\x7b' :: (l.gap (d + 1) ++ (stringChars k ++ ':' ::
          (l.space ++ (l.chars (d + 1) v ++ (l.memberChars d ms ++ rest))))) := by
      simp [Layout.chars]
    obtain ⟨q, hk⟩ := nextKey_first (l.gap_blank (d + 1)) k (':' ::
      (l.space ++ (l.chars (d + 1) v ++ (l.memberChars d ms ++ rest)))) (p.advance '\x7b')
    obtain ⟨r, hv⟩ := reads_blank l.space_blank
      (fun p => h.2.2.1.reads l p (ends_memberChars l d ms rest)) (q.advance ':')
    obtain ⟨s, hms⟩ := h.2.2.2.reads l rest r
    rw [htext]
    have hmembers := ReadsMembers.part hk (readColon_colon _ q) hv hms
    exact ⟨_,.obj (rest_cons rfl _ p) h.1 (by rwa [eat_cons rfl]) (closed_object rest s)⟩

theorem LegibleItems.reads (l : Layout) : ∀ {vs : List Json} {depth d : Nat} (rest : List Char)
    (p : Place), LegibleItems depth vs →
    ∃ q, ReadsItems depth false ⟨l.itemChars d vs ++ rest, p⟩ (rereadItems vs) ⟨']' :: rest, q⟩
  | [], _, d, rest, p, _ => by
    have htext : l.itemChars d [] ++ rest = l.gap d ++ ']' :: rest := by simp [Layout.itemChars]
    obtain ⟨q, hq⟩ := Cursor.skipBlank_blank (l.gap_blank d) (']' :: rest) p
    rw [skipBlank_cons (x := ']') rfl rest q, ← htext] at hq
    have hend := nextItem_of_end false (congrArg Cursor.rest hq)
    rw [hq] at hend
    exact ⟨q,.stop hend⟩
  | v :: vs, _, d, rest, p, h => by
    obtain ⟨q, hv⟩ := reads_blank (l.gap_blank (d + 1))
      (fun p => h.1.reads l p (ends_itemChars l d vs rest)) (p.advance ',')
    obtain ⟨r, hvs⟩ := h.2.reads l rest q
    obtain ⟨x, cs, hx, hne⟩ := hv.lead_ne_close
    refine ⟨r,.part ?_ hv.skipBlank hvs⟩
    simpa [Layout.itemChars] using nextItem_comma hx hne

theorem LegibleMembers.reads (l : Layout) : ∀ {ms : List (String × Json)} {depth d : Nat}
    (rest : List Char) (p : Place), LegibleMembers depth ms →
    ∃ q, ReadsMembers depth false ⟨l.memberChars d ms ++ rest, p⟩ (rereadMembers ms)
      ⟨'\x7d' :: rest, q⟩
  | [], _, d, rest, p, _ => by
    have htext : l.memberChars d [] ++ rest = l.gap d ++ '\x7d' :: rest := by
      simp [Layout.memberChars]
    obtain ⟨q, hq⟩ := Cursor.skipBlank_blank (l.gap_blank d) ('\x7d' :: rest) p
    rw [skipBlank_cons (x := '\x7d') rfl rest q, ← htext] at hq
    refine ⟨q,.stop ?_⟩
    simp [nextKey, nextKeyQuote, hq]
  | (k, v) :: ms, _, d, rest, p, h => by
    obtain ⟨q, hk⟩ := nextKey_comma (l.gap_blank (d + 1)) k (':' ::
      (l.space ++ (l.chars (d + 1) v ++ (l.memberChars d ms ++ rest)))) p
    obtain ⟨r, hv⟩ := reads_blank l.space_blank
      (fun p => h.1.reads l p (ends_memberChars l d ms rest)) (q.advance ':')
    obtain ⟨s, hms⟩ := h.2.reads l rest r
    refine ⟨s,.part ?_ (readColon_colon _ q) hv hms⟩
    simpa [Layout.memberChars] using hk
end

theorem finish_blank {bs : List Char} (h : Blank bs) (p : Place) : finish ⟨bs, p⟩ = .ok () := by
  obtain ⟨q, hq⟩ := Cursor.skipBlank_blank h [] p
  have hnil : Cursor.skipBlank ⟨[], q⟩ = ⟨[], q⟩ := rfl
  rw [List.append_nil, hnil] at hq
  rw [finish, hq]

theorem Legible.spells_chars (l : Layout) {v : Json} (h : Legible depthLimit v) {tail : String}
    (ht : Blank tail.toList) : Spells (String.ofList (l.chars 0 v) ++ tail) v.reread := by
  have hends := ht.ends ends_nil
  rw [List.append_nil] at hends
  obtain ⟨q, hq⟩ := h.reads l (d := 0) .start hends
  exact ⟨_,by simpa [Cursor.ofText] using hq,finish_blank ht q⟩

theorem Legible.spells_render {v : Json} (h : Legible depthLimit v) (inline : Bool) {tail : String}
    (ht : Blank tail.toList) : Spells (v.render inline ++ tail) v.reread := by
  rw [Layout.render_eq]
  exact h.spells_chars _ ht

/-- What is written is read back, as far as its floats are. -/
theorem Legible.read_render {v : Json} (h : Legible depthLimit v) (inline : Bool) {tail : String}
    (ht : Blank tail.toList) : read (v.render inline ++ tail) = .ok v.reread :=
  (read_ok_iff_spells _ _).mpr ⟨v.reread,h.spells_render inline ht,h.normal_eq⟩

theorem Legible.spells {v : Json} (h : Legible depthLimit v) : Spells v.compact v.reread := by
  have hcompact : Spells (v.render true ++ "") v.reread := h.spells_render true nofun
  rwa [String.append_empty] at hcompact

theorem Legible.read_compact {v : Json} (h : Legible depthLimit v) :
    read v.compact = .ok v.reread :=
  (read_ok_iff_spells _ _).mpr ⟨v.reread,h.spells,h.normal_eq⟩

end Unseal.Json
