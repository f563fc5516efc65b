import Mathlib.Control.Lawful

/-!
# Calls in a row

A function with a state of its own, which may also fail, is called with one element of a list
after another. Either every call succeeds, each in the state that the one before it has left, or
the calls end with the first that fails: the elements after it are not looked at, its error is the
outcome and its state is what remains.
-/

set_option autoImplicit false

namespace Unseal.Traversal

variable {ε σ α β γ : Type}

/-! ## One call -/

section
variable {c : ExceptT ε (StateM σ) β} {s t u : σ} {y : β} {e : ε} {a : Except ε β}

theorem run_bind_ok {k : β → ExceptT ε (StateM σ) γ} (h : c.run.run s = (.ok y, u)) :
    (c >>= k).run.run s = (k y).run.run u := by
  rw [ExceptT.run_bind, StateT.run_bind, h]
  rfl

theorem run_bind_error {k : β → ExceptT ε (StateM σ) γ} (h : c.run.run s = (.error e, t)) :
    (c >>= k).run.run s = (.error e, t) := by
  rw [ExceptT.run_bind, StateT.run_bind, h]
  rfl

theorem run_map (g : β → γ) (h : c.run.run s = (a, t)) : (g <$> c).run.run s = (a.map g, t) := by
  rw [ExceptT.run_map, StateT.run_map, h]
  rfl

end

/-! ## A list of calls -/

/-- The calls of `f` with the elements of a list all succeed: from the state `s` on, each in the
state that the one before it has left, with the answers `ys` in their order and `t` at the end. -/
inductive Succeeds (f : α → ExceptT ε (StateM σ) β) :
    (xs : List α) → (s : σ) → (ys : List β) → (t : σ) → Prop
  | nil {s : σ} : Succeeds f [] s [] s
  | cons {x : α} {xs : List α} {y : β} {ys : List β} {s u t : σ} :
      (f x).run.run s = (.ok y, u) → Succeeds f xs u ys t → Succeeds f (x :: xs) s (y :: ys) t

/-- The calls of `f` with the elements of `done` succeed, and the one with `x` that follows them
fails with `e`. -/
def Stops (f : α → ExceptT ε (StateM σ) β) (done : List α) (x : α) (s : σ) (e : ε) (t : σ) :
    Prop :=
  ∃ ys u, Succeeds f done s ys u ∧ (f x).run.run u = (.error e, t)

variable {f : α → ExceptT ε (StateM σ) β} {xs done : List α} {x : α} {s t : σ} {ys : List β} {e : ε}
  {a : Except ε β}

theorem Succeeds.length (h : Succeeds f xs s ys t) : ys.length = xs.length := by
  induction h with
  | nil => rfl
  | cons _ _ ih => exact congrArg Nat.succ ih

theorem succeeds_or_stops (f : α → ExceptT ε (StateM σ) β) (xs : List α) (s : σ) :
    (∃ ys t, Succeeds f xs s ys t) ∨
      ∃ done x rest e t, xs = done ++ x :: rest ∧ Stops f done x s e t := by
  induction xs generalizing s with
  | nil => exact .inl ⟨[],s,.nil⟩
  | cons x xs ih =>
    cases hx : (f x).run.run s with
    | mk answer u =>
      cases answer with
      | error e => exact .inr ⟨[],x,xs,e,u,rfl,[],s,.nil,hx⟩
      | ok y =>
        rcases ih u with ⟨ys, t, h⟩ | ⟨done, z, rest, e, t, rfl, ys, v, h, hz⟩
        · exact .inl ⟨y :: ys,t,.cons hx h⟩
        · exact .inr ⟨x :: done,z,rest,e,t,rfl,y :: ys,v,.cons hx h,hz⟩

theorem Succeeds.mapM (h : Succeeds f xs s ys t) : (xs.mapM f).run.run s = (.ok ys, t) := by
  induction h with
  | nil => rfl
  | cons hx _ ih =>
    rw [List.mapM_cons, run_bind_ok hx, run_bind_ok ih]
    rfl

theorem Stops.mapM (h : Stops f done x s e t) (rest : List α) :
    ((done ++ x :: rest).mapM f).run.run s = (.error e, t) := by
  obtain ⟨ys, u, hdone, hx⟩ := h
  rw [List.mapM_append, run_bind_ok hdone.mapM, List.mapM_cons, bind_assoc, run_bind_error hx]

/-! ## Noting the calls -/

/-- Notes what `f` is called with in a list beside its state, which `f` does not see. -/
def noting (f : α → ExceptT ε (StateM σ) β) (x : α) : ExceptT ε (StateM (σ × List α)) β :=
  .mk fun (s, calls) =>
    let (answer, t) := (f x).run.run s
    (answer, t, calls ++ [x])

theorem run_noting (h : (f x).run.run s = (a, t)) (calls : List α) :
    (noting f x).run.run (s, calls) = (a, t, calls ++ [x]) :=
  congrArg (fun outcome : Except ε β × σ => (outcome.1, outcome.2, calls ++ [x])) h

theorem Succeeds.noting (h : Succeeds f xs s ys t) (calls : List α) :
    Succeeds (noting f) xs (s, calls) ys (t, calls ++ xs) := by
  induction h generalizing calls with
  | nil =>
    rw [List.append_nil]
    exact .nil
  | cons hx _ ih =>
    rw [List.append_cons]
    exact .cons (run_noting hx calls) (ih _)

theorem Stops.noting (h : Stops f done x s e t) (calls : List α) :
    Stops (noting f) done x (s, calls) e (t, calls ++ done ++ [x]) := by
  obtain ⟨ys, u, hdone, hx⟩ := h
  exact ⟨ys,_,hdone.noting calls,run_noting hx _⟩

end Unseal.Traversal
