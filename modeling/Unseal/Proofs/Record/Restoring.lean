import Unseal.Proofs.Instant
import Unseal.Proofs.Record.Reread
import Unseal.Proofs.Record.Tidy

/-!
# Records read back

A record is written in one way, however it was spelled. What it is written as is read as the same
record: each field finds the one member of its name, and a sparse field that was left out is read
as its zero again.
-/

set_option autoImplicit false

namespace Unseal

/-- A value that is read back from what it is written as. Only a zero is written as null, so that
nothing is lost when a sparse field is left out. -/
def Shape.Restores (s : Shape) (x : s.Carrier) : Prop :=
  s.ofJson (s.toJson x) = .ok x ∧ (s.toJson x = .null → x = s.zero)

def Fields.Restores : (fs : Fields) → fs.Carrier → Prop
  | .nil, _ => True
  | .cons _ s rest, (x, xs) => s.Restores x ∧ rest.Restores xs

mutual
/-- In every record inside, no two fields answer to one key and further members are allowed. -/
def Shape.storable : Shape → Bool
  | .optional s => s.storable
  | .sequence s => s.storable
  | .dictionary s => s.storable
  | .record _ strict fs => !strict && (fs.separate && fs.storable)
  | _ => true

def Fields.storable : Fields → Bool
  | .nil => true
  | .cons _ s rest => s.storable && rest.storable
end

/-! ## Fields -/

namespace Fields

theorem answers_of_mem_names {key : String} : {fs : Fields} → key ∈ fs.names → fs.answers key
  | .cons k _ rest, h => by
    rw [answers, Bool.or_eq_true]
    rcases List.mem_cons.mp h with rfl | h
    · exact .inl (by simp [Key.answers])
    · exact .inr (answers_of_mem_names h)

section Cons

variable {k : Key} {s : Shape} {rest : Fields}

/-- A field is left out if it is sparse and null, and written under its name otherwise. -/
theorem members_cons (k : Key) (s : Shape) (rest : Fields) (x : s.Carrier) (xs : rest.Carrier) :
    (k.presence = .sparse ∧ s.toJson x = .null ∧
      (Fields.cons k s rest).members (x, xs) = rest.members xs) ∨
    (Fields.cons k s rest).members (x, xs) = (k.name, s.toJson x) :: rest.members xs := by
  rw [members]
  split
  next hk hx => exact .inl ⟨hk,hx,rfl⟩
  next => exact .inr rfl

theorem separate_cons (h : (Fields.cons k s rest).separate) :
    rest.separate ∧ rest.answers k.name = false ∧ ∀ key ∈ rest.names, k.answers key = false := by
  rw [separate, Bool.and_eq_true, List.all_eq_true] at h
  refine ⟨h.2,by simpa using h.1 k.name List.mem_cons_self,fun key hkey => ?_⟩
  cases hk : k.answers key with
  | false => rfl
  | true => simpa [answers_of_mem_names hkey] using h.1 key (Key.answers_iff.mp hk)

end Cons

theorem keys_members_sublist : (fs : Fields) → (x : fs.Carrier) →
    (Members.keys (fs.members x)).Sublist fs.names
  | .nil, _ => .slnil
  | .cons k s rest, (x, xs) => by
    have hrest := keys_members_sublist rest xs
    rcases members_cons k s rest x xs with ⟨-, -, hm⟩ | hm
    · exact hm ▸ hrest.cons _
    · exact hm ▸ hrest.cons_cons _

theorem names_nodup : (fs : Fields) → fs.separate → fs.names.Nodup
  | .nil, _ => .nil
  | .cons k _ rest, h => by
    obtain ⟨hrest, hname, -⟩ := separate_cons h
    refine List.nodup_cons.mpr ⟨fun hin => ?_,names_nodup rest hrest⟩
    rw [answers_of_mem_names hin] at hname
    cases hname

theorem Decodes.append {others : List (String × Json)} : {fs : Fields} →
    {ms : List (String × Json)} → {x : fs.Carrier} → fs.Decodes ms x →
    (∀ m ∈ others, fs.answers m.1 = false) → fs.Decodes (others ++ ms) x
  | .nil, _, _, _, _ => trivial
  | .cons k s rest, _, (_, _), h, ho => by
    have hboth : ∀ m ∈ others, k.answers m.1 = false ∧ rest.answers m.1 = false := by
      intro m hm
      simpa [answers] using ho m hm
    exact ⟨h.1.append fun m hm => (hboth m hm).1,h.2.append fun m hm => (hboth m hm).2⟩

theorem Decodes.cons {k : Key} {s : Shape} {rest : Fields} (h : (Fields.cons k s rest).separate)
    {v : Json} {x : s.Carrier} (hx : s.ofJson v = .ok x) {ms : List (String × Json)}
    (hnames : ∀ m ∈ ms, m.1 ∈ rest.names) {xs : rest.Carrier} (hxs : rest.Decodes ms xs) :
    (Fields.cons k s rest).Decodes ((k.name, v) :: ms) (x, xs) := by
  obtain ⟨-, hname, hothers⟩ := separate_cons h
  have hself : k.answers k.name = true := by simp [Key.answers]
  have hkeys : ∀ m ∈ ms, k.answers m.1 = false := fun m hm => hothers m.1 (hnames m hm)
  rw [← List.singleton_append]
  refine ⟨Key.finds_of_filter (List.filter_cons_of_pos hself) hkeys hx,?_⟩
  exact hxs.append (by simpa using hname)

theorem Restores.decodes : {fs : Fields} → fs.separate → {x : fs.Carrier} → fs.Restores x →
    fs.Decodes (fs.members x) x
  | .nil, _, _, _ => trivial
  | .cons k s rest, hsep, (x, xs), h => by
    obtain ⟨⟨hx, hnull⟩, hxs⟩ := h
    obtain ⟨hrest, -, hothers⟩ := separate_cons hsep
    have hnames : ∀ m ∈ rest.members xs, m.1 ∈ rest.names := fun m hm =>
      (keys_members_sublist rest xs).subset (List.mem_map_of_mem hm)
    rcases members_cons k s rest x xs with ⟨hsparse, hzero, hm⟩ | hm
    · have hnone : ((rest.members xs).filter fun m => k.answers m.1) = [] :=
        List.filter_eq_nil_iff.mpr fun m hm => by simp [hothers m.1 (hnames m hm)]
      rw [hm]
      refine ⟨?_,hxs.decodes hrest⟩
      unfold Key.Finds
      rw [hnone]
      exact ⟨by simp [hsparse],hnull hzero⟩
    · rw [hm]
      exact Decodes.cons hsep hx hnames (hxs.decodes hrest)

end Fields

theorem Fields.Restores.record {name : String} {fs : Fields} (hsep : fs.separate) {x : fs.Carrier}
    (h : fs.Restores x) : (Shape.record name false fs).Restores x := by
  have hnodup := (fs.names_nodup hsep).sublist (fs.keys_members_sublist x)
  refine ⟨(Shape.ofJson_object_iff hsep).mpr ?_,nofun⟩
  exact (h.decodes hsep).perm (Members.ofList_perm hnodup).symm

/-! ## Zeros -/

theorem Shape.restores_instant (t : Instant) : Shape.instant.Restores t := by
  refine ⟨?_,nofun⟩
  show ofInstantText t.text = .ok t
  rw [ofInstantText, Instant.read_text]

theorem Shape.storable_record {name : String} {strict : Bool} {fs : Fields}
    (h : (Shape.record name strict fs).storable) :
    strict = false ∧ fs.separate ∧ fs.storable := by
  simpa [storable] using h

mutual
theorem Shape.restores_zero : (s : Shape) → s.storable → s.Restores s.zero
  | .text, _ => ⟨rfl,nofun⟩
  | .integer w, _ => ⟨by cases w <;> rfl,nofun⟩
  | .real, _ => ⟨rfl,nofun⟩
  | .flag, _ => ⟨rfl,nofun⟩
  | .any, _ => ⟨rfl,fun _ => rfl⟩
  | .instant, _ => Shape.restores_instant _
  | .optional _, _ => ⟨rfl,fun _ => rfl⟩
  | .sequence _, _ => ⟨rfl,nofun⟩
  | .dictionary _, _ => ⟨rfl,nofun⟩
  | .record _ _ fs, h => by
    obtain ⟨rfl, hsep, hfs⟩ := Shape.storable_record h
    exact (fs.restores_zero hfs).record hsep

theorem Fields.restores_zero : (fs : Fields) → fs.storable → fs.Restores fs.zero
  | .nil, _ => trivial
  | .cons _ s rest, h => by
    rw [Fields.storable, Bool.and_eq_true] at h
    exact ⟨s.restores_zero h.1,rest.restores_zero h.2⟩
end

/-! ## What is read can be read back -/

theorem Shape.eq_null_of_toJson : (s : Shape) → {v : Json} → {x : s.Carrier} →
    s.ofJson v = .ok x → s.toJson x = .null → v = .null
  | .any, _, _, h, hx => by
    cases h
    exact hx
  | .optional s, v, _, h, hx => by
    by_contra hv
    obtain ⟨y, hy, ⟨⟩⟩ := Traversal.bind_ok_iff.mp ((ofJson_optional hv).symm.trans h)
    exact hv (s.eq_null_of_toJson hy hx)
  | .text, _, _, _, hx => nomatch hx
  | .integer _, _, _, _, hx => nomatch hx
  | .real, _, _, _, hx => nomatch hx
  | .flag, _, _, _, hx => nomatch hx
  | .instant, _, _, _, hx => nomatch hx
  | .sequence _, _, _, _, hx => nomatch hx
  | .dictionary _, _, _, _, hx => nomatch hx
  | .record _ _ _, _, _, _, hx => nomatch hx

section Containers

variable {s : Shape}

theorem Shape.restores_some {v : Json} {y : s.Carrier} (hv : v ≠ .null) (hy : s.ofJson v = .ok y)
    (h : s.Restores y) : (Shape.optional s).Restores (some y) := by
  have hne : s.toJson y ≠ .null := fun hnull => hv (s.eq_null_of_toJson hy hnull)
  refine ⟨?_,fun hnull => absurd hnull hne⟩
  exact (ofJson_optional hne).trans (Traversal.bind_ok_iff.mpr ⟨y,h.1,rfl⟩)

theorem Shape.restores_sequence {xs : List s.Carrier} (h : ∀ x ∈ xs, s.Restores x) :
    (Shape.sequence s).Restores xs := by
  refine ⟨?_,nofun⟩
  have hitems : (xs.map s.toJson).mapM s.ofJson = .ok (xs.map id) :=
    Traversal.mapM_map_ok fun x hx => (h x hx).1
  rwa [List.map_id] at hitems

theorem Shape.restores_dictionary {ms : Members s.Carrier} (h : ∀ m ∈ ms, s.Restores m.2) :
    (Shape.dictionary s).Restores ms := by
  refine ⟨mapM_members_ok_iff.mpr ?_,nofun⟩
  rw [Members.Matching, List.forall₂_map_left_iff, List.forall₂_same]
  exact fun m hm => ⟨rfl,(h m hm).1⟩

end Containers

mutual
theorem Shape.restores : (s : Shape) → s.storable → {v : Json} → {x : s.Carrier} →
    s.ofJson v = .ok x → s.Restores x
  | .text, _, _, _, _ => ⟨rfl,nofun⟩
  | .integer w, _, v, x, h => by
    cases v with
    | num n =>
      change ofNumber w n = .ok x at h
      unfold ofNumber at h
      split at h
      next n =>
        split at h
        next hn =>
          cases h
          exact ⟨if_pos hn,nofun⟩
        next => cases h
      next => cases h
    | _ => cases h
  | .real, _, _, _, _ => ⟨rfl,nofun⟩
  | .flag, _, _, _, _ => ⟨rfl,nofun⟩
  | .any, _, _, _, _ => ⟨rfl,id⟩
  | .instant, _, _, t, _ => Shape.restores_instant t
  | .optional s, hs, v, x, h => by
    -- Only null is read as the absence that null is written for.
    by_cases hv : v = .null
    · subst hv
      cases h
      exact (Shape.optional s).restores_zero hs
    · obtain ⟨y, hy, ⟨⟩⟩ := Traversal.bind_ok_iff.mp ((Shape.ofJson_optional hv).symm.trans h)
      exact Shape.restores_some hv hy (s.restores hs hy)
  | .sequence s, hs, v, xs, h => by
    cases v with
    | arr vs =>
      apply Shape.restores_sequence
      intro x hx
      obtain ⟨v, -, hv⟩ := Traversal.mapM_mem h hx
      exact s.restores hs hv
    | _ => cases h
  | .dictionary s, hs, v, ms, h => by
    cases v with
    | obj vs =>
      apply Shape.restores_dictionary
      intro m hm
      obtain ⟨v, -, hv⟩ := Traversal.mapM_mem h hm
      obtain ⟨x, hx, ⟨⟩⟩ := Traversal.bind_ok_iff.mp hv
      exact s.restores hs hx
    | _ => cases h
  | .record _ _ fs, h, v, x, hv => by
    obtain ⟨rfl, hsep, hfs⟩ := Shape.storable_record h
    apply Fields.Restores.record hsep
    cases v with
    | obj ms => exact fs.restores_decodes hfs ((Shape.ofJson_object_iff hsep).mp hv)
    | arr vs => exact fs.restores_ofItems hfs (Shape.ofJson_list_iff.mp hv)
    | _ => cases hv

theorem Fields.restores_decodes : (fs : Fields) → fs.storable → {ms : List (String × Json)} →
    {x : fs.Carrier} → fs.Decodes ms x → fs.Restores x
  | .nil, _, _, _, _ => trivial
  | .cons k s rest, h, ms, (x, xs), hd => by
    rw [Fields.storable, Bool.and_eq_true] at h
    refine ⟨?_,rest.restores_decodes h.2 hd.2⟩
    have hfind := hd.1
    unfold Key.Finds at hfind
    split at hfind
    · exact hfind.2 ▸ s.restores_zero h.1
    · exact s.restores h.1 hfind
    · cases hfind

theorem Fields.restores_ofItems : (fs : Fields) → fs.storable → {record : String} →
    {total i : Nat} → {vs left : List Json} → {x : fs.Carrier} →
    fs.ofItems record total i vs = .ok (x, left) → fs.Restores x
  | .nil, _, _, _, _, _, _, _, _ => trivial
  | .cons k s rest, h, record, total, i, vs, left, (x, xs), hv => by
    rw [Fields.storable, Bool.and_eq_true] at h
    cases vs with
    | nil =>
      rw [Fields.ofItems_end] at hv
      split at hv
      · cases hv
      · obtain ⟨⟨ys, _⟩, hys, ⟨⟩⟩ := Traversal.bind_ok_iff.mp hv
        exact ⟨s.restores_zero h.1,rest.restores_ofItems h.2 hys⟩
    | cons v vs =>
      rw [Fields.ofItems_item] at hv
      obtain ⟨y, hy, hv⟩ := Traversal.bind_ok_iff.mp hv
      obtain ⟨⟨ys, _⟩, hys, ⟨⟩⟩ := Traversal.bind_ok_iff.mp hv
      exact ⟨s.restores h.1 hy,rest.restores_ofItems h.2 hys⟩
end

end Unseal
