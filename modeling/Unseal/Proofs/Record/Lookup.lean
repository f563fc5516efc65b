import Unseal.Proofs.Record.Filling

/-!
# Records by look-up

What a record reads from the members of an object, field by field: the one member that answers
to the field, or the field's zero where there is none.
-/

set_option autoImplicit false

namespace Unseal

theorem Shape.ofJson_text {v : Json} {t : Shape.text.Carrier} (h : Shape.text.ofJson v = .ok t) :
    v = .str t := by
  cases v with
  | str s => exact congrArg Json.str (Except.ok.inj h)
  | _ => cases h

theorem Key.answers_iff {k : Key} {key : String} : k.answers key ↔ key ∈ k.name :: k.aliases := by
  simp [answers]

def Key.Finds (k : Key) (s : Shape) (ms : List (String × Json)) (x : s.Carrier) : Prop :=
  match ms.filter fun m => k.answers m.1 with
  | [] => k.presence ≠ .required ∧ x = s.zero
  | [m] => s.ofJson m.2 = .ok x
  | _ => False

theorem Key.Finds.perm {k : Key} {s : Shape} {ms ns : List (String × Json)} {x : s.Carrier}
    (h : k.Finds s ms x) (hp : ms.Perm ns) : k.Finds s ns x := by
  unfold Finds at h ⊢
  have hf := hp.filter fun m => k.answers m.1
  generalize (ms.filter fun m => k.answers m.1) = taken at h hf
  match taken with
  | [] => rwa [← hf.nil_eq]
  | [m] => rwa [← List.singleton_perm.mp hf]
  | _ :: _ :: _ => cases h

theorem Key.Finds.append {k : Key} {s : Shape} {ms : List (String × Json)} {x : s.Carrier}
    (h : k.Finds s ms x) {others : List (String × Json)}
    (ho : ∀ m ∈ others, k.answers m.1 = false) : k.Finds s (others ++ ms) x := by
  unfold Finds at h ⊢
  rwa [List.filter_append, List.filter_eq_nil_iff.mpr (by simpa using ho), List.nil_append]

theorem Key.finds_of_filter {k : Key} {s : Shape} {filled ms : List (String × Json)}
    {m : String × Json} {x : s.Carrier} (hm : (filled.filter fun m => k.answers m.1) = [m])
    (ho : ∀ m ∈ ms, k.answers m.1 = false) (hx : s.ofJson m.2 = .ok x) :
    k.Finds s (filled ++ ms) x := by
  have hnone : (ms.filter fun m => k.answers m.1) = [] :=
    List.filter_eq_nil_iff.mpr (by simpa using ho)
  unfold Finds
  rwa [List.filter_append, hnone, List.append_nil, hm]

/-- A look-up finds the one member that a field of a single name is read from, unless the field
may be absent and is read as its zero. -/
theorem Key.Finds.find?_name {k : Key} {s : Shape} {ms : List (String × Json)} {x : s.Carrier}
    (h : k.Finds s ms x) (hname : k.aliases = []) (hx : k.presence = .required ∨ x ≠ s.zero) :
    ∃ v, Members.find? k.name ms = some v ∧ s.ofJson v = .ok x := by
  unfold Finds at h
  split at h
  next =>
    rcases hx with hx | hx
    · exact absurd hx h.1
    · exact absurd h.2 hx
  next m hm =>
    obtain ⟨before, after, rfl, hbefore, hanswers, -⟩ := List.filter_eq_cons_iff.mp hm
    have hkey : m.1 = k.name := by simpa [answers, hname] using hanswers
    have hfresh : k.name ∉ Members.keys before := by
      intro hmem
      obtain ⟨n, hn, hnkey⟩ := List.mem_map.mp hmem
      exact hbefore n hn (by simp [answers, hnkey])
    refine ⟨m.2,?_,h⟩
    rw [← hkey] at hfresh ⊢
    exact Members.find?_fresh hfresh m.2 after
  next => exact h.elim

theorem Key.Finds.find?_required {name : String} {s : Shape} {ms : List (String × Json)}
    {x : s.Carrier} (h : (Key.required name).Finds s ms x) :
    ∃ v, Members.find? name ms = some v ∧ s.ofJson v = .ok x := h.find?_name rfl (.inl rfl)

theorem Key.Finds.find?_text {name : String} {ms : List (String × Json)} {t : String}
    (h : (Key.required name).Finds .text ms t) : Members.find? name ms = some (.str t) := by
  obtain ⟨v, hv, ht⟩ := h.find?_required
  rw [hv, Shape.ofJson_text ht]

namespace Fields

/-- No key is answered to by two fields. -/
def separate : Fields → Bool
  | .nil => true
  | .cons k _ rest => (k.name :: k.aliases).all (fun key => !rest.answers key) && rest.separate

def Decodes : (fs : Fields) → List (String × Json) → fs.Carrier → Prop
  | .nil, _, _ => True
  | .cons k s rest, ms, (x, xs) => k.Finds s ms x ∧ rest.Decodes ms xs

theorem Decodes.perm {fs : Fields} {ms ns : List (String × Json)} {x : fs.Carrier}
    (h : fs.Decodes ms x) (hp : ms.Perm ns) : fs.Decodes ns x :=
  match fs, x, h with
  | .nil, _, _ => trivial
  | .cons _ _ _, (_, _), h => ⟨h.1.perm hp,h.2.perm hp⟩

def fillSlot (k : Key) (s : Shape) (slot : Option s.Carrier) (m : String × Json) :
    Except Mismatch (Option s.Carrier) :=
  match slot with
  | some _ => .error (.duplicate k.name)
  | none => (s.ofJson m.2).map some

def fillAll (fs : Fields) : List (String × Json) → fs.Slots → Except Mismatch fs.Slots
  | [], slots => .ok slots
  | m :: ms, slots => fs.fill m slots >>= fillAll fs ms

section Cons

variable {k : Key} {s : Shape} {rest : Fields} {ms : List (String × Json)}
  {slot r : Option s.Carrier} {slots rs : rest.Slots}

theorem fill_cons_iff {m : String × Json} :
    fill m (.cons k s rest) (slot, slots) = .ok (r, rs) ↔
      if k.answers m.1 then fillSlot k s slot m = .ok r ∧ rs = slots
      else r = slot ∧ rest.fill m slots = .ok rs := by
  rw [fill_cons_ok_iff]
  split
  · cases slot with
    | some y => simp [fillSlot]
    | none => cases h : s.ofJson m.2 <;> simp [fillSlot, h, Except.map, and_comm, eq_comm]
  · rfl

theorem fillAll_cons_iff :
    fillAll (.cons k s rest) ms (slot, slots) = .ok (r, rs) ↔
      (ms.filter fun m => k.answers m.1).foldlM (fillSlot k s) slot = .ok r ∧
      fillAll rest (ms.filter fun m => !k.answers m.1) slots = .ok rs := by
  induction ms generalizing slot slots with
  | nil =>
    constructor
    · rintro ⟨⟩
      exact ⟨rfl,rfl⟩
    · intro h
      obtain ⟨⟨⟩, ⟨⟩⟩ := h
      rfl
  | cons m ms ih =>
    apply Traversal.bind_ok_iff.trans
    -- The member goes into the first slot or on to the others, never both.
    cases hk : k.answers m.1 with
    | true =>
      rw [List.filter_cons_of_pos (by simpa using hk), List.filter_cons_of_neg (by simp [hk]),
        List.foldlM_cons, Traversal.bind_ok_iff]
      constructor
      · intro h
        obtain ⟨⟨mid, mids⟩, hm, hrest⟩ := h
        obtain ⟨hslot, rfl⟩ := by simpa [hk] using fill_cons_iff.mp hm
        exact ⟨⟨mid,hslot,(ih.mp hrest).1⟩,(ih.mp hrest).2⟩
      · intro h
        obtain ⟨⟨mid, hslot, hone⟩, hall⟩ := h
        exact ⟨(mid, slots),fill_cons_iff.mpr (by simp [hk, hslot]),ih.mpr ⟨hone,hall⟩⟩
    | false =>
      rw [List.filter_cons_of_neg (by simp [hk]), List.filter_cons_of_pos (by simp [hk])]
      constructor
      · intro h
        obtain ⟨⟨mid, mids⟩, hm, hrest⟩ := h
        obtain ⟨rfl, hfill⟩ := by simpa [hk] using fill_cons_iff.mp hm
        exact ⟨(ih.mp hrest).1,Traversal.bind_ok_iff.mpr ⟨mids,hfill,(ih.mp hrest).2⟩⟩
      · intro h
        obtain ⟨hone, hall⟩ := h
        obtain ⟨mids, hfill, hall⟩ := Traversal.bind_ok_iff.mp hall
        exact ⟨(slot, mids),fill_cons_iff.mpr (by simp [hk, hfill]),ih.mpr ⟨hone,hall⟩⟩

end Cons

theorem fillAll_filter {fs : Fields} {p : String × Json → Bool} {ms : List (String × Json)}
    {slots : fs.Slots} (h : ∀ m ∈ ms, p m = false → fs.answers m.1 = false) :
    fillAll fs (ms.filter p) slots = fillAll fs ms slots := by
  induction ms generalizing slots with
  | nil => rfl
  | cons m ms ih =>
    obtain ⟨hm, hms⟩ := List.forall_mem_cons.mp h
    cases hp : p m with
    | true =>
      rw [List.filter_cons_of_pos hp, fillAll, fillAll]
      exact congrArg _ (funext fun _ => ih hms)
    | false =>
      rw [List.filter_cons_of_neg (by simp [hp]), fillAll,
        fill_of_not_answers fs slots (hm hp), ih hms]
      rfl

theorem finds_iff {k : Key} {s : Shape} {ms : List (String × Json)} {x : s.Carrier} :
    k.Finds s ms x ↔ ∃ r, (ms.filter fun m => k.answers m.1).foldlM (fillSlot k s) none = .ok r ∧
      (match r with
        | some y => y = x
        | none => k.presence ≠ .required ∧ x = s.zero) := by
  unfold Key.Finds
  generalize (ms.filter fun m => k.answers m.1) = taken
  match taken with
  | [] => simp [pure, Except.pure]
  | [m] =>
    cases h : s.ofJson m.2 <;>
      simp [fillSlot, h, Except.map, pure, Except.pure, bind, Except.bind]
  | m :: m' :: more =>
    cases h : s.ofJson m.2 <;> simp [fillSlot, h, Except.map, bind, Except.bind]

theorem complete_cons_iff {k : Key} {s : Shape} {rest : Fields} {slot : Option s.Carrier}
    {slots : rest.Slots} {x : s.Carrier} {xs : rest.Carrier} :
    complete (.cons k s rest) (slot, slots) = .ok (x, xs) ↔
      (match slot with
        | some y => y = x
        | none => k.presence ≠ .required ∧ x = s.zero) ∧ rest.complete slots = .ok xs := by
  have hpair : ∀ y : s.Carrier, (rest.complete slots >>= fun ys => Except.ok (y, ys)) =
      (.ok (x, xs) : Except Mismatch _) ↔ y = x ∧ rest.complete slots = .ok xs := by
    intro y
    cases rest.complete slots <;> simp [bind, Except.bind]
  cases slot with
  | some y => exact hpair y
  | none =>
    by_cases hk : k.presence = .required
    · refine iff_of_false ?_ fun h => h.1.1 hk
      change ¬ (if k.presence = .required then _ else _) = _
      rw [if_pos hk]
      nofun
    · change (if k.presence = .required then _ else _) = _ ↔ _
      rw [if_neg hk]
      exact (hpair s.zero).trans (by simp [hk, eq_comm])

theorem fillAll_complete_iff : (fs : Fields) → fs.separate → (ms : List (String × Json)) →
    (x : fs.Carrier) →
    ((∃ slots, fillAll fs ms fs.empty = .ok slots ∧ fs.complete slots = .ok x) ↔ fs.Decodes ms x)
  | .nil, _, ms, () => by
    have hall : fillAll .nil ms () = .ok () := by
      induction ms with
      | nil => rfl
      | cons m ms ih => exact ih
    exact iff_of_true ⟨(),hall,rfl⟩ trivial
  | .cons k s rest, h, ms, (x, xs) => by
    rw [separate, Bool.and_eq_true, List.all_eq_true] at h
    obtain ⟨hk, hrest⟩ := h
    have hothers : ∀ m ∈ ms, (!k.answers m.1) = false → rest.answers m.1 = false := by
      intro m _ hm
      simpa using hk m.1 (Key.answers_iff.mp (by simpa using hm))
    have ih := fillAll_complete_iff rest hrest ms xs
    constructor
    · intro h
      obtain ⟨⟨r, rs⟩, hfill, hcomplete⟩ := h
      obtain ⟨hone, hall⟩ := fillAll_cons_iff.mp hfill
      obtain ⟨hx, hxs⟩ := complete_cons_iff.mp hcomplete
      rw [fillAll_filter hothers] at hall
      exact ⟨finds_iff.mpr ⟨r,hone,hx⟩,ih.mp ⟨rs,hall,hxs⟩⟩
    · intro h
      obtain ⟨hx, hxs⟩ := h
      obtain ⟨r, hone, hx⟩ := finds_iff.mp hx
      obtain ⟨rs, hall, hxs⟩ := ih.mpr hxs
      rw [← fillAll_filter hothers] at hall
      exact ⟨(r, rs),fillAll_cons_iff.mpr ⟨hone,hall⟩,complete_cons_iff.mpr ⟨hx,hxs⟩⟩

theorem foldlM_absorb_iff {fs : Fields} {ms : List (String × Json)} {slots r : fs.Slots} :
    ms.foldlM (fs.absorb false) slots = .ok r ↔ fillAll fs ms slots = .ok r := by
  induction ms generalizing slots with
  | nil => rfl
  | cons m ms ih =>
    rw [List.foldlM_cons, fillAll]
    simp only [Traversal.bind_ok_iff, absorb_ok_iff, ih]
    simp

end Fields

/-- An object is read as a record field by field. Members that no field answers to do not
matter. -/
theorem Shape.ofJson_object_iff {name : String} {fs : Fields} (h : fs.separate)
    {ms : List (String × Json)} {x : fs.Carrier} :
    (Shape.record name false fs).ofJson (.obj ms) = .ok x ↔ fs.Decodes ms x := by
  rw [← Fields.fillAll_complete_iff fs h]
  simp only [← Fields.foldlM_absorb_iff]
  exact Traversal.bind_ok_iff

end Unseal
