import Unseal.Proofs.Json.Legible
import Unseal.Proofs.Record.Lookup

/-!
# Records reread

Floats that read back as others leave a value of a plain shape a value of that shape.
-/

set_option autoImplicit false

namespace Unseal

open Json (reread rereadItems rereadMembers)

/-- No records inside. -/
def Shape.plain : Shape → Bool
  | .optional s => s.plain
  | .sequence s => s.plain
  | .dictionary s => s.plain
  | .record _ _ _ => false
  | _ => true

def Fields.plain : Fields → Bool
  | .nil => true
  | .cons _ s rest => s.plain && rest.plain

theorem Json.reread_eq_null {v : Json} (h : v.reread = .null) : v = .null := by
  cases v with
  | null => rfl
  | num n => cases n <;> cases h
  | _ => cases h

theorem Shape.ofJson_optional {s : Shape} {v : Json} (h : v ≠ .null) :
    (Shape.optional s).ofJson v = s.ofJson v >>= fun x => .ok (some x) := by
  cases v with
  | null => exact absurd rfl h
  | _ => rfl

theorem Shape.ofJson_reread : (s : Shape) → s.plain → ∀ {v : Json} {x : s.Carrier},
    s.ofJson v = .ok x → ∃ y, s.ofJson v.reread = .ok y
  | .text, _, v, x, h => by
    cases v with
    | str t => exact ⟨x,h⟩
    | _ => cases h
  | .integer w, _, v, x, h => by
    cases v with
    | num n =>
      cases n with
      | int n => exact ⟨x,h⟩
      | float y => cases h
    | _ => cases h
  | .real, _, v, x, h => by
    cases v with
    | num n => cases n <;> exact ⟨_,rfl⟩
    | _ => cases h
  | .flag, _, v, x, h => by
    cases v with
    | bool b => exact ⟨x,h⟩
    | _ => cases h
  | .any, _, v, _, _ => ⟨v.reread,rfl⟩
  | .instant, _, v, x, h => by
    cases v with
    | str t => exact ⟨x,h⟩
    | _ => cases h
  | .optional s, hs, v, x, h => by
    by_cases hv : v = .null
    · exact ⟨x,hv ▸ h⟩
    · obtain ⟨y, hy, -⟩ := Traversal.bind_ok_iff.mp ((ofJson_optional hv).symm.trans h)
      obtain ⟨z, hz⟩ := s.ofJson_reread hs hy
      have hne : v.reread ≠ .null := fun h => hv (Json.reread_eq_null h)
      exact ⟨some z,(ofJson_optional hne).trans (Traversal.bind_ok_iff.mpr ⟨z,hz,rfl⟩)⟩
  | .sequence s, hs, v, xs, h => by
    cases v with
    | arr vs =>
      have hitems := Traversal.mapM_map_exists (f := s.ofJson) (g := reread) (s.ofJson_reread hs) h
      rwa [← Json.rereadItems_eq_map] at hitems
    | _ => cases h
  | .dictionary s, hs, v, xs, h => by
    cases v with
    | obj ms =>
      have hmembers := Traversal.mapM_map_exists (g := fun m => (m.1, reread m.2)) ?_ h
      · rwa [← Json.rereadMembers_eq_map] at hmembers
      · rintro ⟨k, v⟩ y hy
        obtain ⟨x, hx, -⟩ := Traversal.bind_ok_iff.mp hy
        obtain ⟨z, hz⟩ := s.ofJson_reread hs hx
        exact ⟨(k, z),Traversal.bind_ok_iff.mpr ⟨z,hz,rfl⟩⟩
    | _ => cases h

theorem Key.Finds.reread {k : Key} {s : Shape} (hs : s.plain) {ms : List (String × Json)}
    {x : s.Carrier} (h : k.Finds s ms x) : ∃ y, k.Finds s (rereadMembers ms) y := by
  unfold Finds at h ⊢
  have hfilter : (rereadMembers ms).filter (fun m => k.answers m.1) =
      rereadMembers (ms.filter fun m => k.answers m.1) := by
    simp [Json.rereadMembers_eq_map, List.filter_map, Function.comp_def]
  rw [hfilter]
  generalize (ms.filter fun m => k.answers m.1) = taken at h
  match taken with
  | [] => exact ⟨x,h⟩
  | [m] => exact s.ofJson_reread hs h
  | _ :: _ :: _ => cases h

theorem Fields.Decodes.reread : {fs : Fields} → fs.plain → {ms : List (String × Json)} →
    {x : fs.Carrier} → fs.Decodes ms x → ∃ y, fs.Decodes (rereadMembers ms) y
  | .nil, _, _, _, _ => ⟨(),trivial⟩
  | .cons _ _ _, hfs, _, (_, _), h => by
    rw [plain, Bool.and_eq_true] at hfs
    obtain ⟨y, hy⟩ := h.1.reread hfs.1
    obtain ⟨ys, hys⟩ := h.2.reread hfs.2
    exact ⟨(y, ys),hy,hys⟩

end Unseal
