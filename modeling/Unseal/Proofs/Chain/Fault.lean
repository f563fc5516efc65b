import Unseal.Proofs.Chain.Event
import Unseal.Proofs.Chain.Stages

/-!
# Which fault a chain reports

The stages before the failing one have passed completely, and so have the events before the
failing one in its stage. What that single event fails with is what the chain reports. A fault
inside the chain is there whatever the model.
-/

set_option autoImplicit false

namespace Unseal

open Traversal

variable {α : Type}

def FailsInside (es : List Envelope) (p : Payload) (err : ParseError) : Prop :=
  ∃ front e back done q rest, es = front ++ e :: back ∧ back ≠ [] ∧
    Chain.advance front [p] = .ok (done ++ q :: rest) ∧
    (∀ d ∈ done, ∃ next, Chain.unwrapEvent e d = .ok next) ∧ Chain.InnerFault e q err

def FailsLast (m : Model α) (es : List Envelope) (p : Payload) (err : ParseError) : Prop :=
  ∃ front e done q rest, es = front ++ [e] ∧
    Chain.advance front [p] = .ok (done ++ q :: rest) ∧
    (∀ d ∈ done, ∃ xs, (parseWith m e d).map Parsed.toList = .ok xs) ∧ LastFault m e q err

theorem advance_error_iff (es : List Envelope) (events : List Payload) (err : ParseError) :
    Chain.advance es events = .error err ↔ ∃ front e back done q rest,
      es = front ++ e :: back ∧ Chain.advance front events = .ok (done ++ q :: rest) ∧
      (∀ d ∈ done, ∃ next, Chain.unwrapEvent e d = .ok next) ∧ Chain.InnerFault e q err := by
  induction es generalizing events with
  | nil => simp [Chain.advance]
  | cons e es ih =>
    rw [Chain.advance, bind_error_iff, Chain.stage_eq_collect]
    simp only [collect_error_iff, Chain.unwrapEvent_error_iff, ih]
    constructor
    · intro h
      rcases h with ⟨done, q, rest, rfl, hd, hq⟩ | ⟨mid, hmid, h⟩
      · exact ⟨[],e,es,done,q,rest,rfl,rfl,hd,hq⟩
      · obtain ⟨front, e', back, done, q, rest, rfl, h⟩ := h
        exact ⟨e :: front,e',back,done,q,rest,rfl,bind_ok_iff.mpr ⟨mid,hmid,h.1⟩,h.2⟩
    · intro h
      obtain ⟨front, e', back, done, q, rest, hs, ha, h⟩ := h
      cases front with
      | nil =>
        obtain ⟨rfl, rfl⟩ := List.cons.inj hs
        cases ha
        exact .inl ⟨done,q,rest,rfl,h⟩
      | cons e'' front =>
        obtain ⟨rfl, rfl⟩ := List.cons.inj hs
        obtain ⟨mid, hmid, ha⟩ := bind_ok_iff.mp ha
        exact .inr ⟨mid,hmid,front,e',back,done,q,rest,rfl,ha,h⟩

theorem failsInside_append_singleton (front : List Envelope) (e : Envelope) (p : Payload)
    (err : ParseError) :
    FailsInside (front ++ [e]) p err ↔ Chain.advance front [p] = .error err := by
  rw [advance_error_iff]
  constructor
  · intro h
    obtain ⟨front', e', back, done, q, rest, hs, hb, h⟩ := h
    obtain ⟨back, last, rfl⟩ := (List.eq_nil_or_concat back).resolve_left hb
    have hs' : front ++ [e] = (front' ++ e' :: back) ++ [last] := by simpa using hs
    exact ⟨front',e',back,done,q,rest,(List.append_singleton_inj.mp hs').1,h⟩
  · intro h
    obtain ⟨front', e', back, done, q, rest, rfl, h⟩ := h
    exact ⟨front',e',back ++ [e],done,q,rest,by simp,by simp,h⟩

theorem failsLast_append_singleton (m : Model α) (front : List Envelope) (e : Envelope)
    (p : Payload) (err : ParseError) :
    FailsLast m (front ++ [e]) p err ↔ ∃ events, Chain.advance front [p] = .ok events ∧
      Chain.lastStage m e events = .error err := by
  simp only [Chain.lastStage_eq_collect, collect_error_iff, parseWith_error_iff]
  constructor
  · intro h
    obtain ⟨front', e', done, q, rest, hs, ha, h⟩ := h
    obtain ⟨rfl, rfl⟩ := List.append_singleton_inj.mp hs
    exact ⟨_,ha,done,q,rest,rfl,h⟩
  · intro h
    obtain ⟨events, ha, done, q, rest, rfl, h⟩ := h
    exact ⟨front,e,done,q,rest,rfl,ha,h⟩

/-- A chain fails exactly with the fault of the first failing event of the first failing stage.
A fault inside it is reported under every model, and the last stage reports a chaining fault only
where the extraction itself yields one. -/
theorem parseChain_error_iff (m : Model α) (e : Envelope) (es : List Envelope) (p : Payload)
    (err : ParseError) :
    (parseChain m (e :: es) p = .error err ↔
      FailsInside (e :: es) p err ∨ FailsLast m (e :: es) p err) ∧
    (FailsInside (e :: es) p err →
      ∀ (β : Type) (m' : Model β), parseChain m' (e :: es) p = .error err) ∧
    (∀ expected received name, err = .invalidChain expected received name →
      FailsLast m (e :: es) p err →
        ∃ q, ((e :: es).getLast (by simp)).extract q = .error err) := by
  obtain ⟨front, last, hs⟩ := (List.eq_nil_or_concat (e :: es)).resolve_left (by simp)
  rw [List.concat_eq_append] at hs
  have hrun : ∀ (β : Type) (m' : Model β), parseChain m' (e :: es) p =
      Chain.advance front [p] >>= Chain.lastStage m' last := by
    intro β m'
    rw [hs, parseChain, Chain.run_append]
    rfl
  refine ⟨?_,?_,?_⟩
  · rw [hrun, hs, failsInside_append_singleton, failsLast_append_singleton, bind_error_iff]
  · intro h β m'
    rw [hs, failsInside_append_singleton] at h
    rw [hrun, h]
    rfl
  · rintro expected received name rfl ⟨front', e', done, q, rest, hs', _, _, hf⟩
    cases hf with
    | extraction h => exact ⟨q,by simpa [hs'] using h⟩

end Unseal
