import Unseal.Proofs.Json.Tree
import Unseal.Proofs.Record.Filling

/-!
# Putting in order

Reading a tree as it stands, the members of objects in the order of the text and repeated keys
included, and then putting in order what was read.
-/

set_option autoImplicit false

namespace Unseal

mutual
/-- What was read off a tree as it stands, with its members put in order: any value in its normal
form, and a dictionary by its keys, the last of equal keys prevailing. -/
def Shape.tidy : (s : Shape) → s.Carrier → s.Carrier
  | .text, x => x
  | .integer _, x => x
  | .real, x => x
  | .flag, x => x
  | .any, v => Json.normal v
  | .instant, x => x
  | .optional s, x => Option.map (fun x => s.tidy x) x
  | .sequence s, xs => List.map (fun x => s.tidy x) xs
  | .dictionary s, ms => Members.ofList (List.map (fun m => (m.1, s.tidy m.2)) ms)
  | .record _ _ fs, x => fs.tidy x

def Fields.tidy : (fs : Fields) → fs.Carrier → fs.Carrier
  | .nil, _ => ()
  | .cons _ s rest, (x, xs) => (s.tidy x, rest.tidy xs)
end

def Fields.tidySlots : (fs : Fields) → fs.Slots → fs.Slots
  | .nil, _ => ()
  | .cons _ s rest, (slot, slots) => (slot.map s.tidy, rest.tidySlots slots)

mutual
theorem Shape.tidy_zero : (s : Shape) → s.tidy s.zero = s.zero
  | .text => rfl
  | .integer _ => rfl
  | .real => rfl
  | .flag => rfl
  | .any => rfl
  | .instant => rfl
  | .optional _ => rfl
  | .sequence _ => rfl
  | .dictionary _ => rfl
  | .record _ _ fs => fs.tidy_zero

theorem Fields.tidy_zero : (fs : Fields) → fs.tidy fs.zero = fs.zero
  | .nil => rfl
  | .cons _ s rest => Prod.ext s.tidy_zero rest.tidy_zero
end

namespace Fields

theorem tidySlots_empty : (fs : Fields) → fs.tidySlots fs.empty = fs.empty
  | .nil => rfl
  | .cons _ _ rest => Prod.ext rfl rest.tidySlots_empty

section Cons

variable {k : Key} {s : Shape} {rest : Fields} {slots : rest.Slots}

theorem complete_some {x : s.Carrier} :
    complete (.cons k s rest) (some x, slots) =
      rest.complete slots >>= fun xs => .ok (x, xs) := rfl

theorem complete_none (hk : k.presence ≠ .required) :
    complete (.cons k s rest) (none, slots) =
      rest.complete slots >>= fun xs => .ok (s.zero, xs) := by
  show (if k.presence = .required then _ else _) = _
  rw [if_neg hk]
  rfl

theorem complete_missing (hk : k.presence = .required) :
    complete (.cons k s rest) (none, slots) = .error (.missing k.name) := by
  show (if k.presence = .required then _ else _) = _
  rw [if_pos hk]
  rfl

end Cons

theorem complete_tidySlots : (fs : Fields) → (slots : fs.Slots) →
    fs.complete (fs.tidySlots slots) = (fs.complete slots).map fs.tidy
  | .nil, _ => rfl
  | .cons k s rest, (slot, slots) => by
    cases slot with
    | some x =>
      rw [tidySlots, Option.map_some, complete_some, complete_some, complete_tidySlots]
      cases rest.complete slots <;> rfl
    | none =>
      rw [tidySlots, Option.map_none]
      by_cases hk : k.presence = .required
      · rw [complete_missing hk, complete_missing hk]
        rfl
      · rw [complete_none hk, complete_none hk, complete_tidySlots]
        cases rest.complete slots with
        | error e => rfl
        | ok xs => exact congrArg (fun x => Except.ok (x, rest.tidy xs)) s.tidy_zero.symm

/-- What `put` does with a field and those after it, given what it does with the value and what
with the fields after it. -/
def putCons (key : String) (k : Key) {s : Shape} {rest : Fields} (slot : Option s.Carrier)
    (slots : rest.Slots) (v : Except Mismatch s.Carrier) (w : Except Mismatch (Option rest.Slots)) :
    Except Mismatch (Option (Fields.Slots (.cons k s rest))) :=
  if k.answers key then
    match slot with
    | some _ => .error (.duplicate k.name)
    | none => v >>= fun x => .ok (some (some x, slots))
  else w >>= fun
    | some slots => .ok (some (slot, slots))
    | none => .ok none

theorem put_tidySlots {k : Key} {s : Shape} {rest : Fields} {key : String} {v : Json}
    {slot : Option s.Carrier} {slots : rest.Slots} :
    (Fields.put key v (.cons k s rest) (slot, slots)).map
        (Option.map (Fields.tidySlots (.cons k s rest))) =
      putCons key k (slot.map s.tidy) (rest.tidySlots slots) ((s.ofJson v).map s.tidy)
        ((rest.put key v slots).map (Option.map rest.tidySlots)) := by
  rw [put_cons]
  unfold putCons
  cases k.answers key with
  | true =>
    cases slot with
    | some x => rfl
    | none => cases s.ofJson v <;> rfl
  | false =>
    cases rest.put key v slots with
    | error e => rfl
    | ok r => cases r <;> rfl

theorem absorb_tidySlots {strict : Bool} {fs : Fields} {slots : fs.Slots} {m : String × Json} :
    (absorb strict fs slots m).map fs.tidySlots =
      (do
        match ← (fs.put m.1 m.2 slots).map (Option.map fs.tidySlots) with
        | some slots => .ok slots
        | none =>
          if strict then .error (.unknown m.1 fs.names) else .ok (fs.tidySlots slots)) := by
  unfold absorb
  cases fs.put m.1 m.2 slots with
  | error e => rfl
  | ok r =>
    cases r with
    | some slots => rfl
    | none => cases strict <;> rfl

/-! ## Elements -/

section Items

def tidyItems {fs : Fields} (v : Except Mismatch (fs.Carrier × List Json)) :
    Except Mismatch (fs.Carrier × List Json) := v.map fun p => (fs.tidy p.1, p.2)

theorem tidyItems_close {fs : Fields} {v : Except Mismatch (fs.Carrier × List Json)} {n : Nat} :
    (do let (x, left) ← tidyItems v; if left.isEmpty then .ok x else .error (.tooMany n)) =
      (do let (x, left) ← v; if left.isEmpty then .ok x else .error (.tooMany n)).map fs.tidy := by
  cases v with
  | error e => rfl
  | ok p => cases h : p.2.isEmpty <;> simp [tidyItems, Except.map, bind, Except.bind, h]

variable {k : Key} {s : Shape} {rest : Fields} {record : String} {total i : Nat}

theorem ofItems_end :
    Fields.ofItems record total i (.cons k s rest) [] =
      if k.presence = .required then .error (.tooFew i record total)
      else rest.ofItems record total (i + 1) [] >>= fun p => .ok ((s.zero, p.1), p.2) := rfl

theorem ofItems_item {v : Json} {vs : List Json} :
    Fields.ofItems record total i (.cons k s rest) (v :: vs) =
      s.ofJson v >>= fun x => rest.ofItems record total (i + 1) vs >>= fun p =>
        .ok ((x, p.1), p.2) := by
  rw [ofItems]
  cases s.ofJson v <;> rfl

theorem tidyItems_end :
    tidyItems (Fields.ofItems record total i (.cons k s rest) []) =
      if k.presence = .required then .error (.tooFew i record total)
      else tidyItems (rest.ofItems record total (i + 1) []) >>= fun p =>
        .ok ((s.zero, p.1), p.2) := by
  rw [ofItems_end]
  split
  · rfl
  · cases rest.ofItems record total (i + 1) [] with
    | error e => rfl
    | ok p =>
      exact congrArg (fun x => Except.ok ((x, rest.tidy p.1), p.2)) s.tidy_zero

theorem tidyItems_item {v : Json} {vs : List Json} :
    tidyItems (Fields.ofItems record total i (.cons k s rest) (v :: vs)) =
      (s.ofJson v).map s.tidy >>= fun x =>
        tidyItems (rest.ofItems record total (i + 1) vs) >>= fun p => .ok ((x, p.1), p.2) := by
  rw [ofItems_item]
  cases s.ofJson v with
  | error e => rfl
  | ok x => cases rest.ofItems record total (i + 1) vs <;> rfl

end Items

end Fields

theorem Shape.ofJson_list_iff {name : String} {strict : Bool} {fs : Fields} {vs : List Json}
    {x : fs.Carrier} : (Shape.record name strict fs).ofJson (.arr vs) = .ok x ↔
      fs.ofItems name fs.size 0 vs = .ok (x, []) := by
  constructor
  · intro h
    obtain ⟨⟨y, left⟩, hy, hleft⟩ := Traversal.bind_ok_iff.mp h
    cases left with
    | nil =>
      cases hleft
      exact hy
    | cons v left => cases hleft
  · intro h
    exact Traversal.bind_ok_iff.mpr ⟨_,h,rfl⟩

/-! ## Members -/

section Members

variable {α : Type}

theorem foldlM_insert_ok_iff {f : Json → Except Mismatch α} {ms : List (String × Json)}
    {acc r : Members α} :
    ms.foldlM (fun acc m => do let x ← f m.2; .ok (Members.insert m.1 x acc)) acc = .ok r ↔
      ∃ xs, Members.Matching (fun v x => f v = .ok x) ms xs ∧
        xs.foldl (fun acc m => Members.insert m.1 m.2 acc) acc = r := by
  induction ms generalizing acc with
  | nil => simp [Members.Matching, pure, Except.pure]
  | cons m ms ih =>
    rw [List.foldlM_cons, Traversal.bind_ok_iff]
    constructor
    · intro h
      obtain ⟨acc', h, hms⟩ := h
      obtain ⟨x, hx, h⟩ := Traversal.bind_ok_iff.mp h
      cases h
      obtain ⟨xs, hxs, rfl⟩ := ih.mp hms
      exact ⟨(m.1, x) :: xs,.cons ⟨rfl,hx⟩ hxs,rfl⟩
    · intro h
      obtain ⟨_, _ | ⟨⟨hk, hx⟩, hxs⟩, rfl⟩ := h
      rename_i n xs
      refine ⟨_,Traversal.bind_ok_iff.mpr ⟨_,hx,rfl⟩,ih.mpr ⟨xs,hxs,?_⟩⟩
      rw [hk, List.foldl_cons]

theorem mapM_members_ok_iff {f : Json → Except Mismatch α} {ms : List (String × Json)}
    {xs : List (String × α)} :
    ms.mapM (fun m => do let x ← f m.2; .ok (m.1, x)) = .ok xs ↔
      Members.Matching (fun v x => f v = .ok x) ms xs := by
  have hstep : ∀ (m : String × Json) (n : String × α),
      (do let x ← f m.2; .ok (m.1, x) : Except Mismatch (String × α)) = .ok n ↔
        m.1 = n.1 ∧ f m.2 = .ok n.2 := by
    rintro m ⟨k, y⟩
    cases f m.2 <;> simp [bind, Except.bind]
  rw [Traversal.mapM_ok_iff]
  simp only [hstep]
  rfl

/-- Members read, changed and put in key order: all at once or one by one. -/
theorem foldlM_insert_map_iff {β : Type} (f : Json → Except Mismatch α) (g : α → β)
    (ms : List (String × Json)) (r : Members β) :
    ms.foldlM (fun acc m => do let x ← (f m.2).map g; .ok (Members.insert m.1 x acc)) [] = .ok r ↔
      (ms.mapM (fun m => do let x ← f m.2; .ok (m.1, x)) : Except Mismatch (List (String × α))).map
        (fun xs => Members.ofList (xs.map fun m => (m.1, g m.2))) = .ok r := by
  have hmembers : ms.mapM (fun m => do let x ← (f m.2).map g; .ok (m.1, x)) =
      (ms.mapM (fun m => do let x ← f m.2; .ok (m.1, x)) : Except Mismatch (List (String × α))).map
        (List.map fun m => (m.1, g m.2)) := by
    rw [← Traversal.mapM_map_eq]
    congr 1
    funext m
    cases f m.2 <;> rfl
  have hread : ∀ ys, Members.Matching (fun v y => (f v).map g = .ok y) ms ys ↔
      ∃ xs, ms.mapM (fun m => do let x ← f m.2; .ok (m.1, x)) = .ok xs ∧
        xs.map (fun m => (m.1, g m.2)) = ys := by
    intro ys
    rw [← mapM_members_ok_iff (f := fun v => (f v).map g), hmembers, Traversal.map_ok_iff]
  rw [foldlM_insert_ok_iff (f := fun v => (f v).map g), Traversal.map_ok_iff]
  simp only [hread]
  constructor
  · rintro ⟨_, ⟨xs, hxs, rfl⟩, rfl⟩
    exact ⟨xs,hxs,rfl⟩
  · rintro ⟨xs, hxs, rfl⟩
    exact ⟨_,⟨xs,hxs,rfl⟩,rfl⟩

end Members

end Unseal
