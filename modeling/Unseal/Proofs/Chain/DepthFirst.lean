import Unseal.Proofs.Chain.Event
import Unseal.Proofs.Chain.Stages

/-!
# Depth-first unwrapping

`openDeep` opens one event to the end of the chain before it looks at the next. The chain works
stage by stage over all events instead. Both succeed on the same events with the same results,
and a chain may be cut in two anywhere.
-/

set_option autoImplicit false

namespace Unseal

open Traversal

variable {α : Type}

def innerValue (q : Payload) : Except ParseError Json :=
  q.toJson.mapError fun f => .invalid (.ofReading "RawEvent" f.message)

def requireObjects (e : Envelope) (values : List Json) : Except ParseError Unit :=
  match values.find? fun v => !v.isObject with
  | none => .ok ()
  | some v => .error (.invalidChain "RawEvent or list of RawEvent" v.kind.name e.name)

/-- Opens an event with one envelope and, while there are more, every event found inside. -/
def openDeep (m : Model α) : Payload → Envelope → List Envelope → Except ParseError (List α)
  | p, e, [] => (parseWith m e p).map Parsed.toList
  | p, e, e' :: es => do
    let r ← e.extract p
    let values ← r.toList.mapM innerValue
    requireObjects e values
    let nested ← values.mapM fun v => openDeep m (.value v) e' es
    .ok nested.flatten

theorem innerValue_ok_iff {q : Payload} {v : Json} : innerValue q = .ok v ↔ q.toJson = .ok v := by
  cases h : q.toJson <;> simp [innerValue, h, Except.mapError]

theorem requireObjects_ok_iff {e : Envelope} {values : List Json} :
    requireObjects e values = .ok () ↔ ∀ v ∈ values, v.isObject := by
  unfold requireObjects
  split
  next h => simpa using List.find?_eq_none.mp h
  next v h =>
    have hv : v.isObject = false := by simpa using List.find?_some h
    simp only [reduceCtorEq, false_iff]
    exact fun hall => by simp [hall v (List.mem_of_find?_eq_some h)] at hv

theorem openDeep_cons_ok_iff (m : Model α) (p : Payload) (e e' : Envelope) (es : List Envelope)
    (ys : List α) :
    openDeep m p e (e' :: es) = .ok ys ↔ ∃ next, Chain.unwrapEvent e p = .ok next ∧
      collect (fun q => openDeep m q e' es) next = .ok ys := by
  simp only [openDeep, bind_ok_iff, mapM_ok_iff, innerValue_ok_iff, Chain.unwrapEvent_ok_iff]
  constructor
  · intro h
    obtain ⟨r, hr, values, hv, ⟨⟩, ho, groups, hg, ⟨⟩⟩ := h
    refine ⟨_,⟨r,values,hr,hv,requireObjects_ok_iff.mp ho,rfl⟩,?_⟩
    exact collect_ok_iff.mpr ⟨groups,List.forall₂_map_left_iff.mpr hg,rfl⟩
  · intro h
    obtain ⟨_, ⟨r, values, hr, hv, ho, rfl⟩, h⟩ := h
    obtain ⟨groups, hg, rfl⟩ := collect_ok_iff.mp h
    rw [List.forall₂_map_left_iff] at hg
    exact ⟨r,hr,values,hv,(),requireObjects_ok_iff.mpr ho,groups,hg,rfl⟩

theorem openDeep_ok_iff (m : Model α) (p : Payload) (e : Envelope) (es : List Envelope)
    (ys : List α) : parseChain m (e :: es) p = .ok ys ↔ openDeep m p e es = .ok ys := by
  induction es generalizing p e ys with
  | nil =>
    rw [parseChain, Chain.run, Chain.lastStage_eq_collect, collect_singleton, openDeep]
  | cons e' es ih =>
    -- The run over what the first stage yields is collected event by event, so the induction
    -- hypothesis applies to each event alone.
    rw [parseChain, Chain.run_cons_cons, Chain.stage_eq_collect, openDeep_cons_ok_iff]
    simp only [bind_ok_iff, collect_singleton, Chain.run_ok_iff_collect]
    have hdeep : ∀ next, collect (fun q => parseChain m (e' :: es) q) next = .ok ys ↔
        collect (fun q => openDeep m q e' es) next = .ok ys := by
      intro next
      simp only [collect_ok_iff, ih]
    simp only [hdeep]

theorem advance_ok_iff (e : Envelope) (es : List Envelope) (events next : List Payload) :
    Chain.advance (e :: es) events = .ok next ↔ ∃ values,
      Chain.run Chain.anyModel events (e :: es) = .ok values ∧ (∀ v ∈ values, v.isObject) ∧
      next = values.map .value := by
  induction es generalizing e events with
  | nil =>
    have hstage : Chain.advance [e] events = Chain.stage e events := by
      simp only [Chain.advance]
      cases Chain.stage e events <;> rfl
    rw [hstage, Chain.stage_eq_collect, Chain.run, Chain.lastStage_eq_collect]
    simp only [funext (Chain.unwrapEvent_eq e), collect_mapM, Chain.mapM_asEvent_ok_iff]
  | cons e' es ih =>
    rw [Chain.advance, Chain.run_cons_cons]
    simp only [bind_ok_iff, ih]
    constructor
    · intro h
      obtain ⟨mid, hmid, values, hv, h⟩ := h
      exact ⟨values,⟨mid,hmid,hv⟩,h⟩
    · intro h
      obtain ⟨values, ⟨mid, hmid, hv⟩, h⟩ := h
      exact ⟨mid,hmid,values,hv,h⟩

theorem parseChain_append_ok_iff (m : Model α) (p : Payload) (e e' : Envelope)
    (es es' : List Envelope) (ys : List α) :
    parseChain m (e :: es ++ e' :: es') p = .ok ys ↔ ∃ values groups,
      parseChain Chain.anyModel (e :: es) p = .ok values ∧ (∀ v ∈ values, v.isObject) ∧
      List.Forall₂ (fun v zs => parseChain m (e' :: es') (.value v) = .ok zs) values groups ∧
      groups.flatten = ys := by
  rw [parseChain, Chain.run_append, bind_ok_iff]
  simp only [advance_ok_iff]
  constructor
  · intro h
    obtain ⟨_, ⟨values, hv, ho, rfl⟩, h⟩ := h
    obtain ⟨groups, hg, rfl⟩ := collect_ok_iff.mp ((Chain.run_ok_iff_collect ..).mp h)
    exact ⟨values,groups,hv,ho,List.forall₂_map_left_iff.mp hg,rfl⟩
  · intro h
    obtain ⟨values, groups, hv, ho, hg, rfl⟩ := h
    refine ⟨_,⟨values,hv,ho,rfl⟩,(Chain.run_ok_iff_collect ..).mpr ?_⟩
    exact collect_ok_iff.mpr ⟨groups,List.forall₂_map_left_iff.mpr hg,rfl⟩

/-- Stage by stage or event by event, a chain yields the same results. The second part cuts the
chain: what its front yields under the accept-all model are objects, and the back opens each. -/
theorem parseChain_ok_iff_openDeep (m : Model α) (p : Payload) (e : Envelope)
    (es : List Envelope) (ys : List α) :
    (parseChain m (e :: es) p = .ok ys ↔ openDeep m p e es = .ok ys) ∧
    ∀ e' es', parseChain m (e :: es ++ e' :: es') p = .ok ys ↔ ∃ values groups,
      parseChain Chain.anyModel (e :: es) p = .ok values ∧ (∀ v ∈ values, v.isObject) ∧
      List.Forall₂ (fun v zs => parseChain m (e' :: es') (.value v) = .ok zs) values groups ∧
      groups.flatten = ys :=
  ⟨openDeep_ok_iff m p e es ys,fun e' es' => parseChain_append_ok_iff m p e e' es es' ys⟩

end Unseal
