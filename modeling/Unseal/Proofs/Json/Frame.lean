import Unseal.Json.Pointer
import Unseal.Proofs.Members

/-!
# Values around a place

A frame is a value but for what stands at one place of it. Whatever is put there is what a
pointer to the place names, and every value with something at the place is such a frame filled
with it.
-/

set_option autoImplicit false

namespace Unseal

namespace Json

/-- What is around the place at the end of a path. -/
inductive Frame : List String → Type
  | here : Frame []
  | member {path : List String} (before : Members Json) (key : String)
      (fresh : key ∉ before.keys) (inner : Frame path) (after : Members Json) : Frame (key :: path)
  | item {path : List String} (before : List Json) (token : String)
      (index : Pointer.index? token = some before.length) (inner : Frame path)
      (after : List Json) : Frame (token :: path)

namespace Frame

def fill : {path : List String} → Frame path → Json → Json
  | _, here, x => x
  | _, member before key _ inner after, x => .obj (before ++ (key, inner.fill x) :: after)
  | _, item before _ _ inner after, x => .arr (before ++ inner.fill x :: after)

theorem walk_fill {path : List String} (frame : Frame path) (x : Json) :
    Pointer.walk path (frame.fill x) = some x := by
  induction frame with
  | here => rfl
  | member before key fresh inner after ih =>
    simp only [Pointer.walk, fill, Pointer.step, Members.find?_fresh fresh, Option.bind_some, ih]
  | item before token index inner after ih =>
    simp [Pointer.walk, fill, Pointer.step, index, ih]

theorem exists_fill {path : List String} {v x : Json} (h : Pointer.walk path v = some x) :
    ∃ frame : Frame path, frame.fill x = v := by
  induction path generalizing v with
  | nil => exact ⟨here,(Option.some.inj h).symm⟩
  | cons token path ih =>
    obtain ⟨w, hstep, hwalk⟩ := Option.bind_eq_some_iff.mp h
    obtain ⟨inner, hinner⟩ := ih hwalk
    cases v with
    | obj ms =>
      obtain ⟨before, after, fresh, rfl⟩ := Members.find?_split hstep
      exact ⟨member before token fresh inner after,by rw [fill, hinner]⟩
    | arr vs =>
      obtain ⟨i, hi, hget⟩ := Option.bind_eq_some_iff.mp hstep
      obtain ⟨hlt, rfl⟩ := List.getElem?_eq_some_iff.mp hget
      have index : Pointer.index? token = some (vs.take i).length := by
        rw [hi, List.length_take_of_le (Nat.le_of_lt hlt)]
      refine ⟨item (vs.take i) token index inner (vs.drop (i + 1)),?_⟩
      rw [fill, hinner, List.getElem_cons_drop, List.take_append_drop]
    | _ => cases hstep

end Frame
end Json
end Unseal
