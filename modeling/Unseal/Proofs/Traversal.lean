import Mathlib.Data.List.Forall2

/-!
# Traversals that can fail

A traversal succeeds exactly when every step does, and its failure is that of the first step
that fails. Collecting the lists that the steps yield is additive in the elements.
-/

set_option autoImplicit false

namespace Unseal.Traversal

variable {ε α β : Type}

theorem bind_ok_iff {x : Except ε α} {f : α → Except ε β} {b : β} :
    (x >>= f) = .ok b ↔ ∃ a, x = .ok a ∧ f a = .ok b := by
  cases x <;> simp [bind, Except.bind]

theorem bind_error_iff {x : Except ε α} {f : α → Except ε β} {e : ε} :
    (x >>= f) = .error e ↔ x = .error e ∨ ∃ a, x = .ok a ∧ f a = .error e := by
  cases x <;> simp [bind, Except.bind]

theorem exists_error_iff {x : Except ε α} : (∃ e, x = .error e) ↔ ¬∃ a, x = .ok a := by
  cases x <;> simp

theorem map_ok_iff {x : Except ε α} {f : α → β} {b : β} :
    x.map f = .ok b ↔ ∃ a, x = .ok a ∧ f a = b := by
  cases x <;> simp [Except.map]

theorem forall₂_append_iff {R : α → β → Prop} {xs ys : List α} {zs : List β} :
    List.Forall₂ R (xs ++ ys) zs ↔
      ∃ as bs, List.Forall₂ R xs as ∧ List.Forall₂ R ys bs ∧ as ++ bs = zs := by
  constructor
  · intro h
    have hl := (List.forall₂_take_append zs xs ys h.flip).flip
    have hr := (List.forall₂_drop_append zs xs ys h.flip).flip
    exact ⟨_,_,hl,hr,List.take_append_drop ..⟩
  · intro h
    obtain ⟨as, bs, ha, hb, rfl⟩ := h
    exact List.rel_append ha hb

theorem forall₂_comp_iff {γ : Type} {R : α → β → Prop} {S : β → γ → Prop} {xs : List α}
    {zs : List γ} :
    (∃ ys, List.Forall₂ R xs ys ∧ List.Forall₂ S ys zs) ↔
      List.Forall₂ (fun x z => ∃ y, R x y ∧ S y z) xs zs := by
  constructor
  · intro h
    obtain ⟨ys, hxy, hyz⟩ := h
    induction hxy generalizing zs with
    | nil => cases hyz; exact .nil
    | cons hx _ ih =>
      cases hyz with
      | cons hz hyz => exact .cons ⟨_,hx,hz⟩ (ih hyz)
  · intro h
    induction h with
    | nil => exact ⟨[],.nil,.nil⟩
    | cons hxz _ ih =>
      obtain ⟨y, hx, hz⟩ := hxz
      obtain ⟨ys, hxy, hyz⟩ := ih
      exact ⟨y :: ys,.cons hx hxy,.cons hz hyz⟩

theorem forall₂_function_iff {P : α → Prop} {f : α → β} {xs : List α} {ys : List β} :
    List.Forall₂ (fun x y => P x ∧ y = f x) xs ys ↔ (∀ x ∈ xs, P x) ∧ ys = xs.map f := by
  constructor
  · intro h
    induction h with
    | nil => simp
    | cons hx _ ih =>
      obtain ⟨hp, rfl⟩ := hx
      exact ⟨List.forall_mem_cons.mpr ⟨hp,ih.1⟩,by simp [ih.2]⟩
  · intro h
    obtain ⟨hp, rfl⟩ := h
    rw [List.forall₂_map_right_iff, List.forall₂_same]
    exact fun x hx => ⟨hp x hx,rfl⟩

theorem forall₂_exists_map_iff {γ : Type} {R : α → β → Prop} {g : β → γ} {xs : List α}
    {zs : List γ} :
    List.Forall₂ (fun x z => ∃ y, R x y ∧ z = g y) xs zs ↔
      ∃ ys, List.Forall₂ R xs ys ∧ zs = ys.map g := by
  rw [← forall₂_comp_iff]
  refine exists_congr fun ys => and_congr_right fun _ => ?_
  have hmap : List.Forall₂ (fun y z => True ∧ z = g y) ys zs ↔
      (∀ y ∈ ys, True) ∧ zs = ys.map g := forall₂_function_iff
  simpa using hmap

theorem mapM_ok_iff {f : α → Except ε β} {xs : List α} {ys : List β} :
    xs.mapM f = .ok ys ↔ List.Forall₂ (fun x y => f x = .ok y) xs ys := by
  induction xs generalizing ys with
  | nil => cases ys <;> simp [pure, Except.pure]
  | cons x xs ih =>
    rw [List.mapM_cons, bind_ok_iff]
    constructor
    · intro h
      obtain ⟨y, hy, h⟩ := h
      obtain ⟨zs, hzs, h⟩ := bind_ok_iff.mp h
      cases h
      exact .cons hy (ih.mp hzs)
    · intro h
      rcases h with _ | ⟨hy, hys⟩
      exact ⟨_,hy,bind_ok_iff.mpr ⟨_,ih.mpr hys,rfl⟩⟩

theorem mapM_map_ok {γ : Type} {f : α → Except ε β} {xs : List γ} {g : γ → α} {h : γ → β}
    (hf : ∀ x ∈ xs, f (g x) = .ok (h x)) : (xs.map g).mapM f = .ok (xs.map h) := by
  rw [mapM_ok_iff, List.forall₂_map_left_iff, List.forall₂_map_right_iff, List.forall₂_same]
  exact hf

theorem mapM_map_eq {γ : Type} (f : α → Except ε β) (g : β → γ) (xs : List α) :
    xs.mapM (fun x => (f x).map g) = (xs.mapM f).map (List.map g) := by
  induction xs with
  | nil => rfl
  | cons x xs ih =>
    rw [List.mapM_cons, List.mapM_cons, ih]
    cases f x with
    | error e => rfl
    | ok y => cases xs.mapM f <;> rfl

theorem mapM_mem {f : α → Except ε β} {xs : List α} {ys : List β} (h : xs.mapM f = .ok ys) {y : β}
    (hy : y ∈ ys) : ∃ x ∈ xs, f x = .ok y := by
  rw [mapM_ok_iff] at h
  induction h with
  | nil => cases hy
  | cons hx _ ih =>
    rcases List.mem_cons.mp hy with rfl | hy
    · exact ⟨_,List.mem_cons_self,hx⟩
    · obtain ⟨x, hmem, hxy⟩ := ih hy
      exact ⟨x,List.mem_cons_of_mem _ hmem,hxy⟩

theorem exists_mapM_ok_iff {f : α → Except ε β} {xs : List α} :
    (∃ ys, xs.mapM f = .ok ys) ↔ ∀ x ∈ xs, ∃ y, f x = .ok y := by
  induction xs with
  | nil => exact iff_of_true ⟨[],rfl⟩ nofun
  | cons x xs ih =>
    rw [List.forall_mem_cons, ← ih, List.mapM_cons]
    constructor
    · rintro ⟨_, h⟩
      obtain ⟨y, hy, h⟩ := bind_ok_iff.mp h
      obtain ⟨ys, hys, -⟩ := bind_ok_iff.mp h
      exact ⟨⟨y,hy⟩,ys,hys⟩
    · rintro ⟨⟨y, hy⟩, ys, hys⟩
      exact ⟨y :: ys,bind_ok_iff.mpr ⟨y,hy,bind_ok_iff.mpr ⟨ys,hys,rfl⟩⟩⟩

theorem mapM_map_exists {f : α → Except ε β} {g : α → α} {xs : List α} {ys : List β}
    (hf : ∀ {x y}, f x = .ok y → ∃ z, f (g x) = .ok z) (h : xs.mapM f = .ok ys) :
    ∃ zs, (xs.map g).mapM f = .ok zs := by
  have hall := exists_mapM_ok_iff.mp ⟨ys,h⟩
  rw [exists_mapM_ok_iff, List.forall_mem_map]
  intro x hx
  obtain ⟨y, hy⟩ := hall x hx
  exact hf hy

/-- The failing element is the first one: everything before it passes. -/
theorem mapM_error_iff {f : α → Except ε β} {xs : List α} {e : ε} :
    xs.mapM f = .error e ↔ ∃ done x rest, xs = done ++ x :: rest ∧
      (∀ d ∈ done, ∃ y, f d = .ok y) ∧ f x = .error e := by
  induction xs with
  | nil => simp [pure, Except.pure]
  | cons x xs ih =>
    rw [List.mapM_cons, bind_error_iff]
    constructor
    · intro h
      rcases h with hx | ⟨y, hy, h⟩
      · exact ⟨[],x,xs,rfl,by simp,hx⟩
      · rcases bind_error_iff.mp h with h | ⟨_, _, h⟩
        · obtain ⟨done, z, rest, rfl, hd, hz⟩ := ih.mp h
          exact ⟨x::done,z,rest,rfl,by simpa [hy] using hd,hz⟩
        · cases h
    · intro h
      obtain ⟨done, z, rest, hs, hd, hz⟩ := h
      cases done with
      | nil =>
        obtain ⟨rfl, rfl⟩ := List.cons.inj hs
        exact .inl hz
      | cons d done =>
        obtain ⟨rfl, rfl⟩ := List.cons.inj hs
        obtain ⟨y, hy⟩ := hd x (by simp)
        have htail := ih.mpr ⟨done,z,rest,rfl,fun a ha => hd a (by simp [ha]),hz⟩
        exact .inr ⟨y,hy,bind_error_iff.mpr (.inl htail)⟩

theorem foldlM_ok_of_perm {σ : Type} {step : σ → α → Except ε σ} {xs ys : List α} {s s' : σ}
    (comm : ∀ {s a b s'}, (step s a >>= (step · b)) = .ok s' → (step s b >>= (step · a)) = .ok s')
    (h : xs.Perm ys) (hx : xs.foldlM step s = .ok s') : ys.foldlM step s = .ok s' := by
  induction h generalizing s with
  | nil => exact hx
  | cons x _ ih =>
    rw [List.foldlM_cons, bind_ok_iff] at hx ⊢
    obtain ⟨r, hr, hrest⟩ := hx
    exact ⟨r,hr,ih hrest⟩
  | swap x y l =>
    simp only [List.foldlM_cons, ← bind_assoc] at hx ⊢
    obtain ⟨r, hr, hrest⟩ := bind_ok_iff.mp hx
    exact bind_ok_iff.mpr ⟨r,comm hr,hrest⟩
  | trans _ _ ih₁ ih₂ => exact ih₂ (ih₁ hx)

theorem foldlM_filterMap {σ : Type} {step : σ → α → Except ε σ} {f : α → Option α}
    (hkept : ∀ s x y, f x = some y → step s y = step s x)
    (hleft : ∀ s x, f x = none → step s x = .ok s) (xs : List α) (s : σ) :
    (xs.filterMap f).foldlM step s = xs.foldlM step s := by
  induction xs generalizing s with
  | nil => rfl
  | cons x xs ih =>
    rw [List.filterMap_cons, List.foldlM_cons]
    cases hf : f x with
    | none =>
      rw [hleft s x hf]
      exact ih s
    | some y =>
      rw [← hkept s x y hf, List.foldlM_cons]
      exact congrArg _ (funext ih)

/-- The lists that `f` yields for the elements, one after another. -/
def collect (f : α → Except ε (List β)) (xs : List α) : Except ε (List β) := do
  let nested ← xs.mapM f
  .ok nested.flatten

theorem collect_ok_iff {f : α → Except ε (List β)} {xs : List α} {ys : List β} :
    collect f xs = .ok ys ↔
      ∃ groups, List.Forall₂ (fun x zs => f x = .ok zs) xs groups ∧ groups.flatten = ys := by
  simp only [collect, bind_ok_iff, mapM_ok_iff, Except.ok.injEq]

theorem collect_error_iff {f : α → Except ε (List β)} {xs : List α} {e : ε} :
    collect f xs = .error e ↔ ∃ done x rest, xs = done ++ x :: rest ∧
      (∀ d ∈ done, ∃ ys, f d = .ok ys) ∧ f x = .error e := by
  simp [collect, bind_error_iff, mapM_error_iff]

theorem collect_singleton {f : α → Except ε (List β)} {x : α} {ys : List β} :
    collect f [x] = .ok ys ↔ f x = .ok ys := by
  rw [collect_ok_iff]
  constructor
  · intro h
    obtain ⟨groups, hg, rfl⟩ := h
    obtain ⟨zs, _, hx, hnil, rfl⟩ := List.forall₂_cons_left_iff.mp hg
    rw [List.forall₂_nil_left_iff] at hnil
    simpa [hnil] using hx
  · intro hx
    exact ⟨[ys],.cons hx .nil,by simp⟩

theorem collect_map_ok {γ : Type} {f : α → Except ε (List β)} {xs : List γ} {g : γ → α}
    {h : γ → List β} (hf : ∀ x ∈ xs, f (g x) = .ok (h x)) :
    collect f (xs.map g) = .ok (xs.flatMap h) := by
  rw [collect, mapM_map_ok hf, List.flatMap_def]
  rfl

theorem collect_append {f : α → Except ε (List β)} {xs ys : List α} {zs : List β} :
    collect f (xs ++ ys) = .ok zs ↔
      ∃ as bs, collect f xs = .ok as ∧ collect f ys = .ok bs ∧ as ++ bs = zs := by
  simp only [collect_ok_iff, forall₂_append_iff]
  constructor
  · intro h
    obtain ⟨_, ⟨left, right, hl, hr, rfl⟩, rfl⟩ := h
    exact ⟨_,_,⟨left,hl,rfl⟩,⟨right,hr,rfl⟩,List.flatten_append.symm⟩
  · intro h
    obtain ⟨_, _, ⟨left, hl, rfl⟩, ⟨right, hr, rfl⟩, rfl⟩ := h
    exact ⟨_,⟨left,right,hl,hr,rfl⟩,List.flatten_append⟩

theorem collect_filter {f g : α → Except ε (List β)} {P : β → Prop}
    (h : ∀ x ys, f x = .ok ys ↔ g x = .ok ys ∧ ∀ y ∈ ys, P y) {xs : List α} {ys : List β} :
    collect f xs = .ok ys ↔ collect g xs = .ok ys ∧ ∀ y ∈ ys, P y := by
  induction xs generalizing ys with
  | nil =>
    constructor
    · intro hnil
      cases hnil
      exact ⟨rfl,by simp⟩
    · exact And.left
  | cons x xs ih =>
    rw [← List.singleton_append, collect_append, collect_append]
    simp only [collect_singleton, h, ih]
    constructor
    · intro hcons
      obtain ⟨as, bs, ⟨ha, hpa⟩, ⟨hb, hpb⟩, rfl⟩ := hcons
      exact ⟨⟨as,bs,ha,hb,rfl⟩,List.forall_mem_append.mpr ⟨hpa,hpb⟩⟩
    · intro hcons
      obtain ⟨⟨as, bs, ha, hb, rfl⟩, hp⟩ := hcons
      obtain ⟨hpa, hpb⟩ := List.forall_mem_append.mp hp
      exact ⟨as,bs,⟨ha,hpa⟩,⟨hb,hpb⟩,rfl⟩

/-- A second pass over what was collected can be made element by element instead. -/
theorem collect_mapM {γ : Type} {f : α → Except ε (List β)} {g : β → Except ε γ} {xs : List α}
    {zs : List γ} :
    collect (fun x => f x >>= fun ys => ys.mapM g) xs = .ok zs ↔
      ∃ ys, collect f xs = .ok ys ∧ ys.mapM g = .ok zs := by
  induction xs generalizing zs with
  | nil => simp [collect, bind, Except.bind, pure, Except.pure]
  | cons x xs ih =>
    rw [← List.singleton_append, collect_append]
    simp only [ih, collect_append, collect_singleton, bind_ok_iff]
    constructor
    · intro h
      obtain ⟨_, _, ⟨as, ha, hga⟩, ⟨bs, hb, hgb⟩, rfl⟩ := h
      refine ⟨_,⟨as,bs,ha,hb,rfl⟩,?_⟩
      simp [List.mapM_append, hga, hgb, bind, Except.bind, pure, Except.pure]
    · intro h
      obtain ⟨_, ⟨as, bs, ha, hb, rfl⟩, h⟩ := h
      rw [List.mapM_append, bind_ok_iff] at h
      obtain ⟨us, hga, h⟩ := h
      obtain ⟨vs, hgb, h⟩ := bind_ok_iff.mp h
      exact ⟨us,vs,⟨as,ha,hga⟩,⟨bs,hb,hgb⟩,by cases h; rfl⟩

end Unseal.Traversal
