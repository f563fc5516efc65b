import Unseal.Chain
import Unseal.Proofs.Traversal

/-!
# Stages over a working set

Both kinds of stage collect what every event of the working set yields, in order. So a run is
additive in its working set, and a chain is its inner stages followed by the last.
-/

set_option autoImplicit false

namespace Unseal.Chain

open Traversal

variable {α : Type}

theorem stage_eq_collect (e : Envelope) (events : List Payload) :
    stage e events = collect (unwrapEvent e) events := rfl

theorem lastStage_eq_collect (m : Model α) (e : Envelope) (events : List Payload) :
    lastStage m e events = collect (fun p => (parseWith m e p).map Parsed.toList) events := by
  have h : (fun p => do let r ← parseWith m e p; Except.ok r.toList) =
      fun p => (parseWith m e p).map Parsed.toList := by
    funext p
    cases parseWith m e p <;> rfl
  simp only [lastStage, h, collect]

theorem run_cons_cons (m : Model α) (events : List Payload) (e e' : Envelope)
    (es : List Envelope) :
    run m events (e :: e' :: es) = stage e events >>= fun next => run m next (e' :: es) := rfl

def advance : List Envelope → List Payload → Except ParseError (List Payload)
  | [], events => .ok events
  | e :: es, events => do
    let next ← stage e events
    advance es next

/-- The inner stages feed the rest of the chain and know nothing of its model. -/
theorem run_append (m : Model α) (front : List Envelope) (e : Envelope) (es : List Envelope)
    (events : List Payload) :
    run m events (front ++ e :: es) =
      advance front events >>= fun next => run m next (e :: es) := by
  induction front generalizing events with
  | nil => rfl
  | cons e' front ih =>
    have h : run m events (e' :: (front ++ e :: es)) =
        stage e' events >>= fun next => run m next (front ++ e :: es) := by
      cases front <;> rfl
    rw [List.cons_append, h, advance, bind_assoc]
    exact congrArg _ (funext ih)

theorem run_events_nil (m : Model α) (e : Envelope) (es : List Envelope) :
    run m [] (e :: es) = .ok [] := by
  induction es generalizing e with
  | nil => rfl
  | cons e' es ih => exact ih e'

theorem run_events_append (m : Model α) (xs ys : List Payload) (e : Envelope)
    (es : List Envelope) (zs : List α) :
    run m (xs ++ ys) (e :: es) = .ok zs ↔
      ∃ as bs, run m xs (e :: es) = .ok as ∧ run m ys (e :: es) = .ok bs ∧ as ++ bs = zs := by
  induction es generalizing e xs ys zs with
  | nil => simp only [run, lastStage_eq_collect, collect_append]
  | cons e' es ih =>
    simp only [run_cons_cons, stage_eq_collect, bind_ok_iff, collect_append]
    constructor
    · intro h
      obtain ⟨_, ⟨us, vs, hu, hv, rfl⟩, h⟩ := h
      obtain ⟨as, bs, ha, hb, rfl⟩ := (ih us vs e' zs).mp h
      exact ⟨as,bs,⟨us,hu,ha⟩,⟨vs,hv,hb⟩,rfl⟩
    · intro h
      obtain ⟨as, bs, ⟨us, hu, ha⟩, ⟨vs, hv, hb⟩, rfl⟩ := h
      exact ⟨us ++ vs,⟨us,vs,hu,hv,rfl⟩,(ih us vs e' _).mpr ⟨as,bs,ha,hb,rfl⟩⟩

/-- The results of a run are those of its events alone, in the order of the events. -/
theorem run_ok_iff_collect (m : Model α) (events : List Payload) (e : Envelope)
    (es : List Envelope) (ys : List α) :
    run m events (e :: es) = .ok ys ↔ collect (parseChain m (e :: es)) events = .ok ys := by
  induction events generalizing ys with
  | nil => rw [run_events_nil]; rfl
  | cons p events ih =>
    rw [← List.singleton_append, run_events_append, collect_append]
    simp only [ih, collect_singleton, parseChain]

end Unseal.Chain

namespace Unseal

open Traversal

variable {α : Type} {m : Model α} {p : Payload}

theorem parseChain_one (e : Envelope) :
    parseChain m [e] p = (parseWith m e p).map Parsed.toList := by
  rw [parseChain, Chain.run, Chain.lastStage_eq_collect, collect, List.mapM_cons, List.mapM_nil]
  generalize (parseWith m e p).map Parsed.toList = r
  cases r with
  | error err => rfl
  | ok xs => exact congrArg Except.ok (List.append_nil xs)

theorem parseChain_of_error {e : Envelope} {err : ParseError} (h : e.extract p = .error err)
    (es : List Envelope) : parseChain m (e :: es) p = .error err := by
  have hwith : ∀ {β : Type} (m' : Model β), parseWith m' e p = .error err := by
    intro β m'
    rw [parseWith, h]
    rfl
  cases es with
  | nil =>
    rw [parseChain_one, hwith]
    rfl
  | cons e' es =>
    have hstage : Chain.stage e [p] = .error err := by
      rw [Chain.stage, List.mapM_cons, Chain.unwrapEvent, hwith]
      rfl
    rw [parseChain, Chain.run_cons_cons, hstage]
    rfl

theorem parseChain_two {outer inner : Envelope} {x : Json}
    (h : outer.extract p = .ok (.single (.value x))) :
    parseChain m [outer, inner] p =
      Chain.asEvent outer x >>= fun q => (parseWith m inner q).map Parsed.toList := by
  have hunwrap : Chain.unwrapEvent outer p = Chain.asEvent outer x >>= fun q => .ok [q] := by
    rw [Chain.unwrapEvent, parseWith, h]
    show [x].mapM (Chain.asEvent outer) = _
    rw [List.mapM_cons, List.mapM_nil]
    rfl
  rw [parseChain, Chain.run_cons_cons, Chain.stage, List.mapM_cons, List.mapM_nil, hunwrap]
  cases Chain.asEvent outer x with
  | error err => rfl
  | ok q => exact parseChain_one inner

end Unseal
