import Unseal.Proofs.Chain.Event
import Unseal.Proofs.Chain.Stages
import Unseal.Proofs.Schema.Agreement
import Unseal.Schema.Compile

/-!
# Schema models as filters

A model that accepts what another accepts, unchanged and under a condition, filters its results
through any chain: only the last stage meets the model. A schema model filters the model of any
value, and its condition is the verdict without a report.
-/

set_option autoImplicit false

namespace Unseal

open Traversal

variable {α : Type} {m m' : Model α} {P : α → Prop}

/-- A model accepts what another accepts, as it is, where a condition holds of it. -/
def Model.Filters (m m' : Model α) (P : α → Prop) : Prop :=
  ∀ q x, m.checkPayload q = .ok x ↔ m'.checkPayload q = .ok x ∧ P x

def parseAll (m : Model α) : List Envelope → Payload → Except ParseError (List α)
  | [], p => (parse m p).map fun x => [x]
  | es, p => parseChain m es p

theorem Model.readJson_ok_iff {name text : String} {v : Json} :
    Model.readJson name text = .ok v ↔ Json.read text = .ok v := by
  unfold Model.readJson
  cases Json.read text <;> simp

namespace Model.Filters

theorem payloads (h : m.Filters m' P) (qs : List Payload) (xs : List α) :
    List.Forall₂ (fun q x => m.checkPayload q = .ok x) qs xs ↔
      List.Forall₂ (fun q x => m'.checkPayload q = .ok x) qs xs ∧ ∀ x ∈ xs, P x := by
  induction qs generalizing xs with
  | nil => cases xs <;> simp
  | cons q qs ih =>
    cases xs with
    | nil => simp
    | cons x xs =>
      simp only [List.forall₂_cons, h q x, ih xs, List.forall_mem_cons]
      tauto

theorem parse (h : m.Filters m' P) (p : Payload) (x : α) :
    Unseal.parse m p = .ok x ↔ Unseal.parse m' p = .ok x ∧ P x := by
  simp only [Unseal.parse, orInvalid_ok_iff, h p x]

theorem parseWith (h : m.Filters m' P) (e : Envelope) (p : Payload) (xs : List α) :
    (Unseal.parseWith m e p).map Parsed.toList = .ok xs ↔
      (Unseal.parseWith m' e p).map Parsed.toList = .ok xs ∧ ∀ x ∈ xs, P x := by
  simp only [parseWith_ok_iff, h.payloads]
  constructor
  · rintro ⟨r, hr, hxs, hp⟩
    exact ⟨⟨r,hr,hxs⟩,hp⟩
  · rintro ⟨⟨r, hr, hxs⟩, hp⟩
    exact ⟨r,hr,hxs,hp⟩

theorem run (h : m.Filters m' P) (events : List Payload) (e : Envelope) (es : List Envelope)
    (xs : List α) :
    Chain.run m events (e :: es) = .ok xs ↔
      Chain.run m' events (e :: es) = .ok xs ∧ ∀ x ∈ xs, P x := by
  induction es generalizing events e with
  | nil =>
    simp only [Chain.run, Chain.lastStage_eq_collect]
    exact collect_filter (h.parseWith e)
  | cons e' es ih =>
    -- Stages before the last are the same for both models.
    simp only [Chain.run_cons_cons, bind_ok_iff, ih]
    constructor
    · rintro ⟨next, hnext, hxs, hp⟩
      exact ⟨⟨next,hnext,hxs⟩,hp⟩
    · rintro ⟨⟨next, hnext, hxs⟩, hp⟩
      exact ⟨next,hnext,hxs,hp⟩

theorem parseAll (h : m.Filters m' P) (es : List Envelope) (p : Payload) (xs : List α) :
    Unseal.parseAll m es p = .ok xs ↔ Unseal.parseAll m' es p = .ok xs ∧ ∀ x ∈ xs, P x := by
  cases es with
  | nil =>
    simp only [Unseal.parseAll, map_ok_iff, h.parse]
    constructor
    · rintro ⟨x, ⟨hx, hp⟩, rfl⟩
      exact ⟨⟨x,hx,rfl⟩,by simpa using hp⟩
    · rintro ⟨⟨x, hx, rfl⟩, hp⟩
      exact ⟨x,⟨hx,hp x (by simp)⟩,rfl⟩
  | cons e es => exact h.run [p] e es xs

end Model.Filters

namespace SchemaModel

variable (m : SchemaModel)

theorem violations_nil_iff (v : Json) : m.violations v = [] ↔ m.isValid v = true :=
  (Schema.report_agrees m.links depthLimit).nil_iff ..

theorem check_ok_iff (v w : Json) : m.check v = .ok w ↔ w = v ∧ m.isValid v = true := by
  rw [← violations_nil_iff, check]
  split
  next hnil => simp [hnil, eq_comm]
  next hne => exact iff_of_false (by simp) fun h => hne h.2

theorem check_error_violations {v : Json} {e : ValidationError} (h : m.check v = .error e) :
    e.violations ≠ [] := by
  rw [check] at h
  split at h
  next => cases h
  next hne =>
    cases h
    exact hne

theorem filters_any (name : String) :
    m.model.Filters (Shape.any.model name) fun v => m.isValid v = true := by
  intro q x
  refine Iff.trans ?_ (and_congr_left' Shape.any_ok_iff.symm)
  cases q with
  | value v =>
    refine (m.check_ok_iff v x).trans ?_
    constructor
    · rintro ⟨rfl, h⟩
      exact ⟨rfl,h⟩
    · rintro ⟨⟨⟩, h⟩
      exact ⟨rfl,h⟩
  | text t =>
    show (Model.readJson m.name t >>= m.check) = .ok x ↔ Json.read t = .ok x ∧ m.isValid x = true
    simp only [bind_ok_iff, Model.readJson_ok_iff, m.check_ok_iff]
    constructor
    · rintro ⟨v, hv, rfl, h⟩
      exact ⟨hv,h⟩
    · rintro ⟨hv, h⟩
      exact ⟨x,hv,rfl,h⟩

/-- A schema model is a filter. With or without a chain, parsing yields what the model of any
value yields, and only if all of it is valid; the check alters nothing, accepts what is valid
without a report, and refuses nothing without a violation. -/
theorem filters_parsing (name : String) :
    (∀ es p xs, parseAll m.model es p = .ok xs ↔
      parseAll (Shape.any.model name) es p = .ok xs ∧ ∀ x ∈ xs, m.isValid x = true) ∧
    (∀ v w, m.check v = .ok w ↔ w = v ∧ m.isValid v = true) ∧
    ∀ v e, m.check v = .error e → e.violations ≠ [] :=
  ⟨(m.filters_any name).parseAll, m.check_ok_iff, fun _ _ => m.check_error_violations⟩

end SchemaModel
end Unseal
