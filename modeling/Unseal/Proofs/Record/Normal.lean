import Unseal.Proofs.Record.Tidy

/-!
# Trees as they stand and their normal forms

A tree that is read as it stands is also read in its normal form, and as the same but for the order
of members: where a record takes a key, the key comes once, and where it takes none, all the members
with that key may go. Without repeated keys the converse holds as well.
-/

set_option autoImplicit false

namespace Unseal

variable {t : Json}

/-! ## Members that a record has taken -/

namespace Fields

theorem not_answers_of_fill_twice {key : String} {v w : Json} : {fs : Fields} →
    {slots r : fs.Slots} → (fs.fill (key, v) slots >>= fs.fill (key, w)) = .ok r →
    fs.answers key = false
  | .nil, _, _, _ => rfl
  | .cons k s rest, (slot, slots), (r, rs), h => by
    obtain ⟨⟨mid, mids⟩, hv, hw⟩ := Traversal.bind_ok_iff.mp h
    rw [fill_cons_ok_iff] at hv hw
    cases hk : k.answers key with
    | true =>
      simp only [hk, if_true] at hv hw
      obtain ⟨-, -, x, -, rfl⟩ := hv
      cases hw.1
    | false =>
      simp only [hk, if_false, Bool.false_eq_true] at hv hw
      have hrest := not_answers_of_fill_twice (Traversal.bind_ok_iff.mpr ⟨mids,hv.2,hw.2⟩)
      rw [answers, hk, hrest]
      rfl

section Absorb

variable {strict : Bool} {fs : Fields} {slots r : fs.Slots}

theorem absorb_twice {key : String} {v w : Json} {mid : fs.Slots}
    (hv : absorb strict fs slots (key, v) = .ok mid)
    (hw : absorb strict fs mid (key, w) = .ok r) : absorb strict fs slots (key, w) = .ok r := by
  have hfill := (absorb_ok_iff.mp hv).2
  have hkey := not_answers_of_fill_twice
    (Traversal.bind_ok_iff.mpr ⟨mid,hfill,(absorb_ok_iff.mp hw).2⟩)
  rw [fill_of_not_answers fs slots hkey] at hfill
  cases hfill
  exact hw

theorem foldlM_insert {m : String × Json} {acc : Members Json}
    (h : (acc ++ [m]).foldlM (absorb strict fs) slots = .ok r) :
    (Members.insert m.1 m.2 acc).foldlM (absorb strict fs) slots = .ok r := by
  induction acc generalizing slots with
  | nil => exact h
  | cons n acc ih =>
    obtain ⟨key, v⟩ := m
    obtain ⟨k, w⟩ := n
    have hswap : (acc ++ [(key, v)]).Perm ((key, v) :: acc) := List.perm_append_singleton _ _
    rw [Members.insert]
    split
    next heq =>
      obtain rfl : key = k := heq
      have hboth := (absorb_perm (hswap.cons (key, w))).mp h
      simp only [List.foldlM_cons, Traversal.bind_ok_iff] at hboth ⊢
      obtain ⟨mid, hw, mid', hv, hacc⟩ := hboth
      exact ⟨mid',absorb_twice hw hv,hacc⟩
    split
    · exact (absorb_perm (hswap.cons (k, w) |>.trans (.swap _ _ _))).mp h
    · rw [List.cons_append, List.foldlM_cons] at h
      rw [List.foldlM_cons]
      obtain ⟨mid, hw, hacc⟩ := Traversal.bind_ok_iff.mp h
      exact Traversal.bind_ok_iff.mpr ⟨mid,hw,ih hacc⟩

theorem foldlM_foldl_insert {ms : List (String × Json)} {acc : Members Json}
    (h : (acc ++ ms).foldlM (absorb strict fs) slots = .ok r) :
    (ms.foldl (fun acc m => Members.insert m.1 m.2 acc) acc).foldlM (absorb strict fs) slots =
      .ok r := by
  induction ms generalizing acc with
  | nil => rwa [List.append_nil] at h
  | cons m ms ih =>
    apply ih
    rw [← List.singleton_append, ← List.append_assoc, List.foldlM_append] at h
    rw [List.foldlM_append]
    obtain ⟨mid, hacc, hms⟩ := Traversal.bind_ok_iff.mp h
    exact Traversal.bind_ok_iff.mpr ⟨mid,foldlM_insert hacc,hms⟩

/-- A record that takes all members of a text takes them in key order, the last of equal keys. -/
theorem foldlM_ofList {ms : List (String × Json)}
    (h : ms.foldlM (absorb strict fs) slots = .ok r) :
    (Members.ofList ms).foldlM (absorb strict fs) slots = .ok r :=
  @foldlM_foldl_insert strict fs slots r ms [] h

end Absorb

end Fields

theorem nodup_normalMembers {ms : List (String × Json)} (h : (Json.obj ms).Distinct) :
    (Members.keys (Json.normalMembers ms)).Nodup := by
  have hkeys : Members.keys (Json.normalMembers ms) = ms.map (·.1) := by
    rw [Json.normalMembers_eq_map, Members.keys, List.map_map]
    rfl
  exact hkeys ▸ h.1

/-! ## Normal forms -/

section Containers

variable {s : Shape} (hs : ∀ {t : Json} {x : s.Carrier}, s.ofJson t = .ok x →
  s.ofJson t.normal = .ok (s.tidy x))

include hs

theorem Shape.ofJson_normal_optional {x : Option s.Carrier}
    (h : (Shape.optional s).ofJson t = .ok x) :
    (Shape.optional s).ofJson t.normal = .ok ((Shape.optional s).tidy x) := by
  cases t with
  | null =>
    cases h
    rfl
  | _ =>
    obtain ⟨y, hy, ⟨⟩⟩ := Traversal.bind_ok_iff.mp h
    exact Traversal.bind_ok_iff.mpr ⟨_,hs hy,rfl⟩

theorem Shape.ofJson_normal_sequence {xs : List s.Carrier}
    (h : (Shape.sequence s).ofJson t = .ok xs) :
    (Shape.sequence s).ofJson t.normal = .ok ((Shape.sequence s).tidy xs) := by
  cases t with
  | arr ts =>
    have hitems := Traversal.mapM_ok_iff.mp h
    have hnormal : List.Forall₂ (fun t x => s.ofJson t = .ok x) (ts.map Json.normal)
        (xs.map s.tidy) := by
      rw [List.forall₂_map_left_iff, List.forall₂_map_right_iff]
      exact hitems.imp fun _ _ h => hs h
    rw [← Json.normalItems_eq_map] at hnormal
    exact Traversal.mapM_ok_iff.mpr hnormal
  | _ => cases h

theorem Shape.ofJson_normal_dictionary {xs : Members s.Carrier}
    (h : (Shape.dictionary s).ofJson t = .ok xs) :
    (Shape.dictionary s).ofJson t.normal = .ok ((Shape.dictionary s).tidy xs) := by
  cases t with
  | obj ms =>
    have hmembers := mapM_members_ok_iff.mp h
    have hnormal : Members.Matching (fun v x => s.ofJson v = .ok x)
        (ms.map fun m => (m.1, Json.normal m.2)) (xs.map fun m => (m.1, s.tidy m.2)) := by
      rw [Members.Matching, List.forall₂_map_left_iff, List.forall₂_map_right_iff]
      exact hmembers.imp fun _ _ h => ⟨h.1,hs h.2⟩
    rw [← Json.normalMembers_eq_map] at hnormal
    exact mapM_members_ok_iff.mpr hnormal.ofList
  | _ => cases h

end Containers

theorem Fields.foldlM_normal {strict : Bool} {fs : Fields}
    (hfill : ∀ {m : String × Json} {slots r : fs.Slots}, fs.fill m slots = .ok r →
      fs.fill (m.1, m.2.normal) (fs.tidySlots slots) = .ok (fs.tidySlots r))
    {ms : List (String × Json)} {slots r : fs.Slots}
    (h : ms.foldlM (fs.absorb strict) slots = .ok r) :
    (Json.normalMembers ms).foldlM (fs.absorb strict) (fs.tidySlots slots) =
      .ok (fs.tidySlots r) := by
  induction ms generalizing slots with
  | nil =>
    cases h
    rfl
  | cons m ms ih =>
    rw [List.foldlM_cons] at h
    rw [Json.normalMembers, List.foldlM_cons]
    obtain ⟨mid, hm, hms⟩ := Traversal.bind_ok_iff.mp h
    obtain ⟨hs, hm⟩ := absorb_ok_iff.mp hm
    exact Traversal.bind_ok_iff.mpr ⟨_,absorb_ok_iff.mpr ⟨hs,hfill hm⟩,ih hms⟩

theorem Shape.ofJson_normal_record {name : String} {strict : Bool} {fs : Fields}
    (hfill : ∀ {m : String × Json} {slots r : fs.Slots}, fs.fill m slots = .ok r →
      fs.fill (m.1, m.2.normal) (fs.tidySlots slots) = .ok (fs.tidySlots r))
    (hitems : ∀ {ts left : List Json} {x : fs.Carrier},
      fs.ofItems name fs.size 0 ts = .ok (x, left) →
      fs.ofItems name fs.size 0 (Json.normalItems ts) = .ok (fs.tidy x, Json.normalItems left))
    {x : fs.Carrier} (h : (Shape.record name strict fs).ofJson t = .ok x) :
    (Shape.record name strict fs).ofJson t.normal = .ok (fs.tidy x) := by
  cases t with
  | obj ms =>
    obtain ⟨slots, hfold, hcomplete⟩ := Traversal.bind_ok_iff.mp h
    have hnormal := Fields.foldlM_ofList (Fields.foldlM_normal hfill hfold)
    rw [fs.tidySlots_empty] at hnormal
    refine Traversal.bind_ok_iff.mpr ⟨_,hnormal,?_⟩
    rw [fs.complete_tidySlots, hcomplete]
    rfl
  | arr ts => exact ofJson_list_iff.mpr (hitems (ofJson_list_iff.mp h))
  | _ => cases h

mutual
/-- A tree that is read as it stands is read in its normal form too. -/
theorem Shape.ofJson_normal : (s : Shape) → {t : Json} → {x : s.Carrier} →
    s.ofJson t = .ok x → s.ofJson t.normal = .ok (s.tidy x)
  | .text, t, x, h => by
    cases t with
    | str t => exact h
    | _ => cases h
  | .integer w, t, x, h => by
    cases t with
    | num n => exact h
    | _ => cases h
  | .real, t, x, h => by
    cases t with
    | num n => exact h
    | _ => cases h
  | .flag, t, x, h => by
    cases t with
    | bool b => exact h
    | _ => cases h
  | .any, t, x, h => by
    cases h
    rfl
  | .instant, t, x, h => by
    cases t with
    | str t => exact h
    | _ => cases h
  | .optional s, _, _, h => Shape.ofJson_normal_optional s.ofJson_normal h
  | .sequence s, _, _, h => Shape.ofJson_normal_sequence s.ofJson_normal h
  | .dictionary s, _, _, h => Shape.ofJson_normal_dictionary s.ofJson_normal h
  | .record _ _ fs, _, _, h => Shape.ofJson_normal_record fs.fill_normal fs.ofItems_normal h

theorem Fields.fill_normal : (fs : Fields) → {m : String × Json} → {slots r : fs.Slots} →
    fs.fill m slots = .ok r → fs.fill (m.1, m.2.normal) (fs.tidySlots slots) = .ok (fs.tidySlots r)
  | .nil, _, _, _, _ => rfl
  | .cons k s rest, m, (slot, slots), (r, rs), h => by
    rw [Fields.fill_cons_ok_iff] at h
    refine Fields.fill_cons_ok_iff.mpr ?_
    cases hk : k.answers m.1 with
    | true =>
      simp only [hk, if_true] at h ⊢
      obtain ⟨rfl, rfl, x, hx, rfl⟩ := h
      exact ⟨rfl,rfl,s.tidy x,s.ofJson_normal hx,rfl⟩
    | false =>
      simp only [hk, if_false, Bool.false_eq_true] at h ⊢
      obtain ⟨rfl, hrest⟩ := h
      exact ⟨rfl,rest.fill_normal hrest⟩

theorem Fields.ofItems_normal : (fs : Fields) → {record : String} → {total i : Nat} →
    {ts left : List Json} → {x : fs.Carrier} → fs.ofItems record total i ts = .ok (x, left) →
    fs.ofItems record total i (Json.normalItems ts) = .ok (fs.tidy x, Json.normalItems left)
  | .nil, _, _, _, _, _, _, h => by
    cases h
    rfl
  | .cons k s rest, record, total, i, [], left, (x, xs), h => by
    rw [Fields.ofItems_end] at h
    rw [Json.normalItems, Fields.ofItems_end]
    split at h
    · cases h
    next hk =>
      obtain ⟨⟨ys, left'⟩, hrest, ⟨⟩⟩ := Traversal.bind_ok_iff.mp h
      rw [if_neg hk]
      refine Traversal.bind_ok_iff.mpr ⟨_,rest.ofItems_normal hrest,?_⟩
      exact congrArg (fun x => Except.ok ((x, rest.tidy ys), _)) s.tidy_zero.symm
  | .cons k s rest, record, total, i, t :: ts, left, (x, xs), h => by
    rw [Fields.ofItems_item] at h
    rw [Json.normalItems, Fields.ofItems_item]
    obtain ⟨y, hy, h⟩ := Traversal.bind_ok_iff.mp h
    obtain ⟨⟨ys, left'⟩, hrest, ⟨⟩⟩ := Traversal.bind_ok_iff.mp h
    exact Traversal.bind_ok_iff.mpr ⟨_,s.ofJson_normal hy,
      Traversal.bind_ok_iff.mpr ⟨_,rest.ofItems_normal hrest,rfl⟩⟩
end

/-! ## Without repeated keys -/

section Containers

variable {s : Shape} (hs : ∀ {t : Json} {x : s.Carrier}, t.Distinct →
  s.ofJson t.normal = .ok x → ∃ y, s.ofJson t = .ok y)

include hs

theorem Shape.ofJson_of_normal_optional {x : Option s.Carrier} (hd : t.Distinct)
    (h : (Shape.optional s).ofJson t.normal = .ok x) :
    ∃ y, (Shape.optional s).ofJson t = .ok y := by
  cases t with
  | null => exact ⟨none,rfl⟩
  | _ =>
    obtain ⟨y, hy, -⟩ := Traversal.bind_ok_iff.mp h
    obtain ⟨z, hz⟩ := hs hd hy
    exact ⟨some z,Traversal.bind_ok_iff.mpr ⟨z,hz,rfl⟩⟩

theorem Shape.ofJson_of_normal_sequence {xs : List s.Carrier} (hd : t.Distinct)
    (h : (Shape.sequence s).ofJson t.normal = .ok xs) :
    ∃ ys, (Shape.sequence s).ofJson t = .ok ys := by
  cases t with
  | arr ts =>
    have hall := Traversal.exists_mapM_ok_iff.mp ⟨xs,h⟩
    rw [Json.normalItems_eq_map, List.forall_mem_map] at hall
    refine Traversal.exists_mapM_ok_iff.mpr fun t ht => ?_
    obtain ⟨x, hx⟩ := hall t ht
    exact hs (Json.DistinctItems.of_mem hd t ht) hx
  | _ => cases h

theorem Shape.ofJson_of_normal_dictionary {xs : Members s.Carrier} (hd : t.Distinct)
    (h : (Shape.dictionary s).ofJson t.normal = .ok xs) :
    ∃ ys, (Shape.dictionary s).ofJson t = .ok ys := by
  cases t with
  | obj ms =>
    have hall := Traversal.exists_mapM_ok_iff.mp ⟨xs,h⟩
    have hkeys := nodup_normalMembers hd
    refine Traversal.exists_mapM_ok_iff.mpr fun m hm => ?_
    have hmem : (m.1, m.2.normal) ∈ Members.ofList (Json.normalMembers ms) := by
      rw [(Members.ofList_perm hkeys).mem_iff, Json.normalMembers_eq_map]
      exact List.mem_map_of_mem hm
    obtain ⟨y, hy⟩ := hall _ hmem
    obtain ⟨x, hx, -⟩ := Traversal.bind_ok_iff.mp hy
    obtain ⟨z, hz⟩ := hs (Json.DistinctMembers.of_mem hd.2 m hm) hx
    exact ⟨(m.1, z),Traversal.bind_ok_iff.mpr ⟨z,hz,rfl⟩⟩
  | _ => cases h

end Containers

theorem Fields.foldlM_of_normal {strict : Bool} {fs : Fields}
    (hfill : ∀ {m : String × Json} {slots r : fs.Slots}, m.2.Distinct →
      fs.fill (m.1, m.2.normal) (fs.tidySlots slots) = .ok r → ∃ r, fs.fill m slots = .ok r)
    {ms : List (String × Json)} {slots r : fs.Slots} (hd : Json.DistinctMembers ms)
    (h : (Json.normalMembers ms).foldlM (fs.absorb strict) (fs.tidySlots slots) = .ok r) :
    ∃ r, ms.foldlM (fs.absorb strict) slots = .ok r := by
  induction ms generalizing slots with
  | nil => exact ⟨slots,rfl⟩
  | cons m ms ih =>
    rw [Json.normalMembers, List.foldlM_cons] at h
    obtain ⟨mid, hm, hms⟩ := Traversal.bind_ok_iff.mp h
    obtain ⟨hs, hm⟩ := absorb_ok_iff.mp hm
    obtain ⟨mid', hm'⟩ := hfill hd.1 hm
    obtain rfl := Except.ok.inj (hm.symm.trans (fs.fill_normal hm'))
    obtain ⟨r', hr'⟩ := ih hd.2 hms
    rw [List.foldlM_cons]
    exact ⟨r',Traversal.bind_ok_iff.mpr ⟨mid',absorb_ok_iff.mpr ⟨hs,hm'⟩,hr'⟩⟩

theorem Shape.ofJson_of_normal_record {name : String} {strict : Bool} {fs : Fields}
    (hfill : ∀ {m : String × Json} {slots r : fs.Slots}, m.2.Distinct →
      fs.fill (m.1, m.2.normal) (fs.tidySlots slots) = .ok r → ∃ r, fs.fill m slots = .ok r)
    (hitems : ∀ {ts left : List Json} {x : fs.Carrier}, Json.DistinctItems ts →
      fs.ofItems name fs.size 0 (Json.normalItems ts) = .ok (x, left) →
      ∃ p, fs.ofItems name fs.size 0 ts = .ok p)
    {x : fs.Carrier} (hd : t.Distinct) (h : (Shape.record name strict fs).ofJson t.normal = .ok x) :
    ∃ y, (Shape.record name strict fs).ofJson t = .ok y := by
  cases t with
  | obj ms =>
    obtain ⟨r, hfold, hcomplete⟩ := Traversal.bind_ok_iff.mp h
    have hkeys := nodup_normalMembers hd
    have htext := (Fields.absorb_perm (Members.ofList_perm hkeys)).mp hfold
    rw [← fs.tidySlots_empty] at htext
    obtain ⟨slots, hslots⟩ := Fields.foldlM_of_normal hfill hd.2 htext
    obtain rfl := Except.ok.inj (htext.symm.trans (Fields.foldlM_normal fs.fill_normal hslots))
    rw [fs.complete_tidySlots, Traversal.map_ok_iff] at hcomplete
    obtain ⟨y, hy, -⟩ := hcomplete
    exact ⟨y,Traversal.bind_ok_iff.mpr ⟨slots,hslots,hy⟩⟩
  | arr ts =>
    have htaken := ofJson_list_iff.mp h
    obtain ⟨⟨y, left⟩, hy⟩ := hitems hd htaken
    obtain ⟨-, hleft⟩ := Prod.mk.inj (Except.ok.inj (htaken.symm.trans (fs.ofItems_normal hy)))
    cases left with
    | nil => exact ⟨y,ofJson_list_iff.mpr hy⟩
    | cons t left => cases hleft
  | _ => cases h

mutual
/-- Without repeated keys a tree that is read in its normal form is read as it stands. -/
theorem Shape.ofJson_of_normal : (s : Shape) → {t : Json} → {x : s.Carrier} → t.Distinct →
    s.ofJson t.normal = .ok x → ∃ y, s.ofJson t = .ok y
  | .text, t, x, _, h => by
    cases t with
    | str t => exact ⟨x,h⟩
    | _ => cases h
  | .integer w, t, x, _, h => by
    cases t with
    | num n => exact ⟨x,h⟩
    | _ => cases h
  | .real, t, x, _, h => by
    cases t with
    | num n => exact ⟨x,h⟩
    | _ => cases h
  | .flag, t, x, _, h => by
    cases t with
    | bool b => exact ⟨x,h⟩
    | _ => cases h
  | .any, t, _, _, _ => ⟨t,rfl⟩
  | .instant, t, x, _, h => by
    cases t with
    | str t => exact ⟨x,h⟩
    | _ => cases h
  | .optional s, _, _, hd, h => Shape.ofJson_of_normal_optional s.ofJson_of_normal hd h
  | .sequence s, _, _, hd, h => Shape.ofJson_of_normal_sequence s.ofJson_of_normal hd h
  | .dictionary s, _, _, hd, h => Shape.ofJson_of_normal_dictionary s.ofJson_of_normal hd h
  | .record _ _ fs, _, _, hd, h =>
    Shape.ofJson_of_normal_record fs.fill_of_normal fs.ofItems_of_normal hd h

theorem Fields.fill_of_normal : (fs : Fields) → {m : String × Json} → {slots r : fs.Slots} →
    m.2.Distinct → fs.fill (m.1, m.2.normal) (fs.tidySlots slots) = .ok r →
    ∃ r, fs.fill m slots = .ok r
  | .nil, _, slots, _, _, _ => ⟨slots,rfl⟩
  | .cons k s rest, m, (slot, slots), (r, rs), hd, h => by
    replace h := Fields.fill_cons_ok_iff.mp h
    cases hk : k.answers m.1 with
    | true =>
      simp only [hk, if_true] at h
      obtain ⟨hslot, -, x, hx, -⟩ := h
      obtain ⟨y, hy⟩ := s.ofJson_of_normal hd hx
      exact ⟨(some y, slots),Fields.fill_cons_ok_iff.mpr
        (by simp [hk, hy, Option.map_eq_none_iff.mp hslot])⟩
    | false =>
      simp only [hk, if_false, Bool.false_eq_true] at h
      obtain ⟨ns, hns⟩ := rest.fill_of_normal hd h.2
      exact ⟨(slot, ns),Fields.fill_cons_ok_iff.mpr (by simp [hk, hns])⟩

theorem Fields.ofItems_of_normal : (fs : Fields) → {record : String} → {total i : Nat} →
    {ts left : List Json} → {x : fs.Carrier} → Json.DistinctItems ts →
    fs.ofItems record total i (Json.normalItems ts) = .ok (x, left) →
    ∃ p, fs.ofItems record total i ts = .ok p
  | .nil, _, _, _, ts, _, _, _, _ => ⟨((), ts),rfl⟩
  | .cons k s rest, record, total, i, [], left, _, _, h => ⟨_,h⟩
  | .cons k s rest, record, total, i, t :: ts, left, _, hd, h => by
    rw [Json.normalItems, Fields.ofItems_item] at h
    obtain ⟨x, hx, h⟩ := Traversal.bind_ok_iff.mp h
    obtain ⟨⟨xs, left'⟩, hrest, -⟩ := Traversal.bind_ok_iff.mp h
    obtain ⟨y, hy⟩ := s.ofJson_of_normal hd.1 hx
    obtain ⟨p, hp⟩ := rest.ofItems_of_normal hd.2 hrest
    rw [Fields.ofItems_item]
    exact ⟨_,Traversal.bind_ok_iff.mpr ⟨y,hy,Traversal.bind_ok_iff.mpr ⟨p,hp,rfl⟩⟩⟩
end

end Unseal
