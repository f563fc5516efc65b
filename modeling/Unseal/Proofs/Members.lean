import Mathlib.Data.List.Perm.Basic
import Unseal.Json.Basic

/-!
# Members in key order

Putting members one by one into key order loses and repeats none of them, as long as their keys
differ.
-/

set_option autoImplicit false

namespace Unseal.Members

variable {α β : Type}

theorem insert_perm {key : String} {ms : Members α} (value : α) (h : key ∉ keys ms) :
    (insert key value ms).Perm ((key, value) :: ms) := by
  induction ms with
  | nil => exact .refl _
  | cons m ms ih =>
    obtain ⟨k, v⟩ := m
    have hk : key ≠ k ∧ key ∉ keys ms := by simpa [keys] using h
    rw [insert, if_neg hk.1]
    split
    · exact .refl _
    · exact ((ih hk.2).cons _).trans (.swap _ _ _)

theorem foldl_insert_perm {ms : List (String × α)} {acc : Members α}
    (h : (keys acc ++ keys ms).Nodup) :
    (ms.foldl (fun acc m => insert m.1 m.2 acc) acc).Perm (acc ++ ms) := by
  induction ms generalizing acc with
  | nil => simp
  | cons m ms ih =>
    have hm : m.1 ∉ keys acc := fun hin =>
      (List.nodup_append.mp h).2.2 _ hin _ (by simp [keys]) rfl
    have hput := insert_perm m.2 hm
    have hkeys : (keys (insert m.1 m.2 acc)).Perm (m.1 :: keys acc) := hput.map _
    have hnodup : (keys (insert m.1 m.2 acc) ++ keys ms).Nodup :=
      ((hkeys.append_right _).trans List.perm_middle.symm).nodup_iff.mpr h
    exact (ih hnodup).trans ((hput.append_right _).trans List.perm_middle.symm)

theorem ofList_perm {ms : List (String × α)} (h : (keys ms).Nodup) : (ofList ms).Perm ms :=
  @foldl_insert_perm α ms [] (by simpa [keys] using h)

theorem find?_of_mem {ms : Members α} (h : (keys ms).Nodup) {key : String} {v : α}
    (hm : (key, v) ∈ ms) : find? key ms = some v := by
  induction ms with
  | nil => cases hm
  | cons m ms ih =>
    obtain ⟨hk, hms⟩ := List.nodup_cons.mp h
    rcases List.mem_cons.mp hm with rfl | hm
    · exact if_pos rfl
    · have hne : m.1 ≠ key := by
        rintro rfl
        exact hk (List.mem_map.mpr ⟨_,hm,rfl⟩)
      exact (if_neg hne).trans (ih hms hm)

theorem find?_ofList {ms : List (String × α)} (h : (keys ms).Nodup) {key : String} {v : α}
    (hm : (key, v) ∈ ms) : find? key (ofList ms) = some v := by
  have hperm := ofList_perm h
  have hkeys : (keys (ofList ms)).Nodup := (hperm.map _).nodup_iff.mpr h
  exact find?_of_mem hkeys (hperm.mem_iff.mpr hm)

/-! ## Members already in key order -/

def Sorted (ms : Members α) : Prop := (keys ms).Pairwise (· < ·)

instance (ms : Members α) : Decidable (Sorted ms) := inferInstanceAs (Decidable (List.Pairwise ..))

theorem Sorted.nodup {ms : Members α} (h : Sorted ms) : (keys ms).Nodup := by
  refine List.Pairwise.imp ?_ h
  rintro a _ hlt rfl
  exact String.lt_irrefl a hlt

theorem insert_last {key : String} {ms : Members α} (value : α) (h : ∀ k ∈ keys ms, k < key) :
    insert key value ms = ms ++ [(key, value)] := by
  induction ms with
  | nil => rfl
  | cons m ms ih =>
    obtain ⟨hm, hms⟩ := List.forall_mem_cons.mp h
    have hne : key ≠ m.1 := by
      rintro rfl
      exact String.lt_irrefl _ hm
    rw [insert, if_neg hne, if_neg (String.lt_asymm hm), ih hms, List.cons_append]

theorem foldl_insert_sorted {ms : List (String × α)} {acc : Members α} (h : Sorted (acc ++ ms)) :
    ms.foldl (fun acc m => insert m.1 m.2 acc) acc = acc ++ ms := by
  induction ms generalizing acc with
  | nil => simp
  | cons m ms ih =>
    have happ : acc ++ m :: ms = acc ++ [m] ++ ms := by simp
    have hlast : ∀ k ∈ keys acc, k < m.1 := by
      intro k hk
      rw [Sorted, keys, List.map_append, List.pairwise_append] at h
      exact h.2.2 k hk m.1 (by simp)
    rw [List.foldl_cons, insert_last m.2 hlast, ih (happ ▸ h), ← happ]

theorem ofList_sorted {ms : List (String × α)} (h : Sorted ms) : ofList ms = ms :=
  @foldl_insert_sorted α ms [] h

theorem mem_of_mem_insert {key : String} {value : α} {ms : Members α} {m : String × α}
    (h : m ∈ insert key value ms) : m = (key, value) ∨ m ∈ ms := by
  induction ms with
  | nil => exact .inl (List.mem_singleton.mp h)
  | cons n ms ih =>
    rw [insert] at h
    split at h
    · exact (List.mem_cons.mp h).imp_right (List.mem_cons_of_mem _)
    split at h
    · exact List.mem_cons.mp h
    · rcases List.mem_cons.mp h with rfl | hm
      · exact .inr List.mem_cons_self
      · exact (ih hm).imp_right (List.mem_cons_of_mem _)

theorem mem_of_mem_foldl_insert {ms : List (String × α)} {acc : Members α} {m : String × α}
    (h : m ∈ ms.foldl (fun acc m => insert m.1 m.2 acc) acc) : m ∈ acc ∨ m ∈ ms := by
  induction ms generalizing acc with
  | nil => exact .inl h
  | cons n ms ih =>
    rcases ih h with hm | hm
    · exact (mem_of_mem_insert hm).elim (fun he => .inr (he ▸ List.mem_cons_self)) .inl
    · exact .inr (List.mem_cons_of_mem _ hm)

theorem mem_of_mem_ofList {ms : List (String × α)} {m : String × α} (h : m ∈ ofList ms) :
    m ∈ ms := (mem_of_mem_foldl_insert h).resolve_left List.not_mem_nil

theorem Sorted.insert {key : String} {ms : Members α} (h : Sorted ms) (value : α) :
    Sorted (insert key value ms) := by
  induction ms with
  | nil => exact List.pairwise_singleton ..
  | cons n ms ih =>
    obtain ⟨hn, hms⟩ := List.pairwise_cons.mp h
    rw [Members.insert]
    split
    next heq =>
      subst heq
      exact h
    split
    next hlt =>
      refine List.pairwise_cons.mpr ⟨?_,h⟩
      intro k hk
      rcases List.mem_cons.mp hk with rfl | hk
      · exact hlt
      · exact String.lt_trans hlt (hn k hk)
    next hne hle =>
      refine List.pairwise_cons.mpr ⟨?_,ih hms⟩
      intro k hk
      obtain ⟨m, hm, rfl⟩ := List.mem_map.mp hk
      rcases mem_of_mem_insert hm with rfl | hm
      · by_contra hlt
        exact hne (String.le_antisymm (String.not_lt.mp hlt) (String.not_lt.mp hle))
      · exact hn m.1 (List.mem_map_of_mem hm)

theorem sorted_foldl_insert {acc : Members α} (h : Sorted acc) (ms : List (String × α)) :
    Sorted (ms.foldl (fun acc m => Members.insert m.1 m.2 acc) acc) := by
  induction ms generalizing acc with
  | nil => exact h
  | cons m ms ih => exact ih (h.insert m.2)

theorem sorted_ofList (ms : List (String × α)) : Sorted (ofList ms) :=
  @sorted_foldl_insert α [] .nil ms

/-- The same keys in the same order, with values that `R` relates. -/
def Matching (R : α → β → Prop) : List (String × α) → List (String × β) → Prop :=
  List.Forall₂ fun m n => m.1 = n.1 ∧ R m.2 n.2

theorem Matching.insert {R : α → β → Prop} {key : String} {a : α} {b : β} {as : Members α}
    {bs : Members β} (h : Matching R as bs) (hab : R a b) :
    Matching R (Members.insert key a as) (Members.insert key b bs) := by
  induction h with
  | nil => exact .cons ⟨rfl,hab⟩ .nil
  | @cons m n ms ns hmn hrest ih =>
    obtain ⟨k, x⟩ := m
    obtain ⟨l, y⟩ := n
    obtain ⟨rfl, hxy⟩ := hmn
    simp only [Members.insert]
    split
    · exact .cons ⟨rfl,hab⟩ hrest
    · split
      · exact .cons ⟨rfl,hab⟩ (.cons ⟨rfl,hxy⟩ hrest)
      · exact .cons ⟨rfl,hxy⟩ ih

theorem Matching.foldl_insert {R : α → β → Prop} {as : List (String × α)}
    {bs : List (String × β)} (h : Matching R as bs) {cs : Members α} {ds : Members β}
    (hacc : Matching R cs ds) :
    Matching R (as.foldl (fun acc m => Members.insert m.1 m.2 acc) cs)
      (bs.foldl (fun acc m => Members.insert m.1 m.2 acc) ds) := by
  induction h generalizing cs ds with
  | nil => exact hacc
  | @cons m n ms ns hmn _ ih =>
    simp only [List.foldl_cons]
    rw [← hmn.1]
    exact ih (hacc.insert hmn.2)

theorem Matching.ofList {R : α → β → Prop} {as : List (String × α)} {bs : List (String × β)}
    (h : Matching R as bs) : Matching R (ofList as) (ofList bs) :=
  h.foldl_insert .nil

theorem matching_map_iff {f : α → β} {as : List (String × α)} {bs : List (String × β)} :
    Matching (fun a b => f a = b) as bs ↔ as.map (fun m => (m.1, f m.2)) = bs := by
  constructor
  · intro h
    induction h with
    | nil => rfl
    | cons hmn _ ih => rw [List.map_cons, ih, hmn.1, hmn.2]
  · rintro rfl
    rw [Matching, List.forall₂_map_right_iff, List.forall₂_same]
    exact fun m _ => ⟨rfl,rfl⟩

theorem ofList_map (f : α → β) (ms : List (String × α)) :
    ofList (ms.map fun m => (m.1, f m.2)) = (ofList ms).map fun m => (m.1, f m.2) :=
  (matching_map_iff.mp (matching_map_iff.mpr rfl).ofList).symm

/-! ## Looking up -/

theorem find?_fresh {key : String} {before : Members α}
    (h : key ∉ before.keys) (x : α) (after : Members α) :
    find? key (before ++ (key, x) :: after) = some x := by
  induction before with
  | nil => exact if_pos rfl
  | cons m before ih =>
    have hm : m.1 ≠ key := Ne.symm (List.ne_of_not_mem_cons h)
    exact (if_neg hm).trans (ih (List.not_mem_of_not_mem_cons h))

theorem find?_split {key : String} {ms : Members α} {x : α}
    (h : find? key ms = some x) :
    ∃ before after, key ∉ keys before ∧ ms = before ++ (key, x) :: after := by
  induction ms with
  | nil => cases h
  | cons m ms ih =>
    obtain ⟨k, v⟩ := m
    rw [find?] at h
    split at h
    next hk =>
      obtain ⟨rfl, rfl⟩ : k = key ∧ v = x := ⟨hk,Option.some.inj h⟩
      exact ⟨[],ms,by simp [keys],rfl⟩
    next hk =>
      obtain ⟨before, after, hfresh, rfl⟩ := ih h
      exact ⟨(k, v) :: before,after,List.not_mem_cons_of_ne_of_not_mem (Ne.symm hk) hfresh,rfl⟩

theorem mem_of_find? {key : String} {ms : Members α} {x : α} (h : find? key ms = some x) :
    (key, x) ∈ ms := by
  obtain ⟨before, after, -, rfl⟩ := find?_split h
  simp

/-! ## Putting in and taking out -/

theorem find?_insert_self (key : String) (value : α) (ms : Members α) :
    find? key (insert key value ms) = some value := by
  induction ms with
  | nil => exact if_pos rfl
  | cons m ms ih =>
    obtain ⟨k, v⟩ := m
    rw [insert]
    split
    · exact if_pos rfl
    split
    · exact if_pos rfl
    next hk _ => exact (if_neg (Ne.symm hk)).trans ih

theorem find?_insert_of_ne {key k : String} (h : key ≠ k) (value : α) (ms : Members α) :
    find? k (insert key value ms) = find? k ms := by
  induction ms with
  | nil => exact if_neg h
  | cons m ms ih =>
    obtain ⟨l, v⟩ := m
    rw [insert]
    split
    next hl =>
      subst hl
      rw [find?, find?, if_neg h, if_neg h]
    split
    · exact if_neg h
    · rw [find?, find?, ih]

theorem find?_erase_of_ne {key k : String} (h : key ≠ k) (ms : Members α) :
    find? k (erase key ms) = find? k ms := by
  induction ms with
  | nil => rfl
  | cons m ms ih =>
    obtain ⟨l, v⟩ := m
    rw [erase]
    split
    next hl =>
      subst hl
      rw [find?, if_neg h]
    · rw [find?, find?, ih]

theorem find?_of_not_mem {key : String} {ms : Members α} (h : key ∉ keys ms) :
    find? key ms = none := by
  induction ms with
  | nil => rfl
  | cons m ms ih =>
    have hm : m.1 ≠ key := Ne.symm (List.ne_of_not_mem_cons h)
    exact (if_neg hm).trans (ih (List.not_mem_of_not_mem_cons h))

theorem find?_erase_self {key : String} {ms : Members α} (h : (keys ms).Nodup) :
    find? key (erase key ms) = none := by
  induction ms with
  | nil => rfl
  | cons m ms ih =>
    obtain ⟨k, v⟩ := m
    obtain ⟨hk, hms⟩ := List.nodup_cons.mp h
    rw [erase]
    split
    next heq => exact find?_of_not_mem (heq ▸ hk)
    next hne => exact (if_neg hne).trans (ih hms)

theorem find?_filterMap {key : String} {g : String → α → Option β}
    (h : ∀ v, (g key v).isSome) (ms : Members α) :
    find? key (ms.filterMap fun m => (g m.1 m.2).map (m.1, ·)) = (find? key ms).bind (g key) := by
  induction ms with
  | nil => rfl
  | cons m ms ih =>
    obtain ⟨k, v⟩ := m
    rw [List.filterMap_cons, find?]
    cases hw : g k v with
    | some w =>
      rw [Option.map_some, find?, ih]
      split
      next hk => exact hk ▸ hw.symm
      next => rfl
    | none =>
      have hk : k ≠ key := by
        rintro rfl
        simpa [hw] using h v
      rw [Option.map_none, if_neg hk]
      exact ih

theorem find?_isSome_of_mem {m : String × α} {ms : Members α} (h : m ∈ ms) :
    (find? m.1 ms).isSome := by
  induction ms with
  | nil => cases h
  | cons x ms ih =>
    rw [find?]
    split
    · rfl
    next hne =>
      rcases List.mem_cons.mp h with rfl | h
      · exact absurd rfl hne
      · exact ih h

section Other

variable {p : String → Bool} {key : String}

theorem filter_insert (h : p key = false) (value : α) (ms : Members α) :
    (insert key value ms).filter (fun m => p m.1) = ms.filter fun m => p m.1 := by
  induction ms with
  | nil => simp [insert, h]
  | cons m ms ih =>
    obtain ⟨k, v⟩ := m
    rw [insert]
    split
    next hk =>
      subst hk
      simp [h]
    split
    · simp [h]
    · simp only [List.filter_cons, ih]

theorem filter_erase (h : p key = false) (ms : Members α) :
    (erase key ms).filter (fun m => p m.1) = ms.filter fun m => p m.1 := by
  induction ms with
  | nil => rfl
  | cons m ms ih =>
    obtain ⟨k, v⟩ := m
    rw [erase]
    split
    next hk =>
      subst hk
      simp [h]
    · simp only [List.filter_cons, ih]

end Other

end Unseal.Members
