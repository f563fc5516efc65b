import Unseal.Parsed
import Unseal.Proofs.Calls

/-!
# Parsed results

Whatever the effects of a function are, applying it to a parsed result does to the values what
going over their list does, and the result keeps its shape. So a function with a state of its own
is called with the values in order, up to the first on which it fails.
-/

set_option autoImplicit false

namespace Unseal.Parsed

variable {α β : Type}

def isSingle : Parsed α → Bool
  | single _ => true
  | many _ => false

theorem length_toList (r : Parsed α) : r.toList.length = r.length := by
  cases r <;> rfl

theorem isEmpty_toList (r : Parsed α) : r.toList.isEmpty = r.isEmpty := by
  rw [isEmpty, ← length_toList]
  cases r.toList <;> rfl

theorem toList_iter (r : Parsed α) : r.iter.toList = r.toList := List.toList_iter

theorem eq_of_toList {q r : Parsed α} (hshape : q.isSingle = r.isSingle)
    (hvalues : q.toList = r.toList) : q = r := by
  cases q with
  | single x =>
    cases r with
    | single y => exact congrArg single (List.cons.inj hvalues).1
    | many ys => cases hshape
  | many xs =>
    cases r with
    | single y => cases hshape
    | many ys => exact congrArg many hvalues

/-! ## Any effects -/

section
variable {m : Type → Type} [Monad m] [LawfulMonad m]

theorem map_toList_mapM (f : α → m β) (r : Parsed α) : toList <$> r.mapM f = r.toList.mapM f := by
  cases r <;> simp [mapM, toList]

theorem map_isSingle_mapM (f : α → m β) (r : Parsed α) :
    isSingle <$> r.mapM f = (fun _ => r.isSingle) <$> r.mapM f := by
  cases r <;> simp [mapM, isSingle]

end

/-! ## Failure -/

section
variable {ε : Type}

theorem toList_mapM (f : α → Except ε β) (r : Parsed α) :
    (r.mapM f).map toList = r.toList.mapM f :=
  map_toList_mapM f r

theorem isSingle_mapM {f : α → Except ε β} {r : Parsed α} {s : Parsed β} (h : r.mapM f = .ok s) :
    s.isSingle = r.isSingle := by
  have hshape := map_isSingle_mapM f r
  rw [h] at hshape
  exact Except.ok.inj hshape

end

/-! ## Failure and state -/

open Traversal

variable {ε σ : Type} {f : α → ExceptT ε (StateM σ) β} {r : Parsed α} {s t : σ} {ys : List β}
  {e : ε}

theorem mapM_of_error (h : (r.toList.mapM f).run.run s = (.error e, t)) :
    (r.mapM f).run.run s = (.error e, t) := by
  rw [← map_toList_mapM] at h
  cases hrun : (r.mapM f).run.run s with
  | mk answer u =>
    rw [run_map toList hrun] at h
    cases answer with
    | error e' =>
      cases h
      rfl
    | ok q => cases h

theorem mapM_of_ok (h : (r.toList.mapM f).run.run s = (.ok ys, t)) :
    ∃ q, (r.mapM f).run.run s = (.ok q, t) ∧ q.toList = ys ∧ q.isSingle = r.isSingle := by
  rw [← map_toList_mapM] at h
  have hshape := congrArg (·.run.run s) (map_isSingle_mapM f r)
  cases hrun : (r.mapM f).run.run s with
  | mk answer u =>
    rw [run_map toList hrun] at h
    simp only [run_map _ hrun] at hshape
    cases answer with
    | error e => cases h
    | ok q =>
      cases h
      exact ⟨q,rfl,rfl,Except.ok.inj (congrArg Prod.fst hshape)⟩

/-- Going over a parsed result is going over its list, and only the shape is added. The values are
handed to `f` in their order, each call in the state that the one before it has left, up to the
first that fails and all of them if none does. With a failure, its error and its state are the
outcome. Otherwise the answers, in that order, make a result of the same shape and length. -/
theorem mapM_visits (f : α → ExceptT ε (StateM σ) β) (r : Parsed α) (s : σ) (calls : List α) :
    toList <$> r.mapM f = r.toList.mapM f ∧
    (r.length = r.toList.length ∧ r.isEmpty = r.toList.isEmpty) ∧
    ((∃ q t, Succeeds f r.toList s q.toList t ∧ (r.mapM f).run.run s = (.ok q, t) ∧
        (r.mapM (noting f)).run.run (s, calls) = (.ok q, t, calls ++ r.toList) ∧
        (q.isSingle = r.isSingle ∧ q.length = r.length) ∧ q.iter.toList = q.toList ∧
        (q.length = q.toList.length ∧ q.isEmpty = q.toList.isEmpty)) ∨
      ∃ done x rest e t, r.toList = done ++ x :: rest ∧ Stops f done x s e t ∧
        (r.mapM f).run.run s = (.error e, t) ∧
        (r.mapM (noting f)).run.run (s, calls) = (.error e, t, calls ++ done ++ [x])) := by
  refine ⟨map_toList_mapM f r,⟨r.length_toList.symm,r.isEmpty_toList.symm⟩,?_⟩
  rcases succeeds_or_stops f r.toList s with ⟨ys, t, h⟩ | ⟨done, x, rest, e, t, hr, h⟩
  · left
    obtain ⟨q, hrun, rfl, hshape⟩ := mapM_of_ok h.mapM
    obtain ⟨q', hnoting, hvalues, hshape'⟩ := mapM_of_ok (h.noting calls).mapM
    -- the two runs yield one result, as they agree in values and shape
    obtain rfl := eq_of_toList (hshape'.trans hshape.symm) hvalues
    have hlength : q'.length = r.length := by
      rw [← length_toList, ← length_toList, h.length]
    exact ⟨q',t,h,hrun,hnoting,⟨hshape,hlength⟩,q'.toList_iter,q'.length_toList.symm,
      q'.isEmpty_toList.symm⟩
  · right
    refine ⟨done,x,rest,e,t,hr,h,mapM_of_error ?_,mapM_of_error ?_⟩
    · rw [hr]
      exact h.mapM rest
    · rw [hr]
      exact (h.noting calls).mapM rest

/-- The call that fails is the last one, and what it did to the state stays. -/
example :
    ((many [1, 2, 3]).mapM (noting fun n => do
      modify (· + n)
      if n = 2 then throw "two" else pure n)).run.run (10, []) = (.error "two", 13, [1, 2]) := rfl

end Unseal.Parsed
