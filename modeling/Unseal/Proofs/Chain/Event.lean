import Unseal.Chain
import Unseal.Proofs.Parsed
import Unseal.Proofs.Traversal

/-!
# One event in a stage

What an envelope and a model make of a single event, and what a stage that is not the last makes
of it: the conditions under which it passes, and the faults that it may end with instead.
-/

set_option autoImplicit false

namespace Unseal

open Traversal

theorem orInvalid_ok_iff {β : Type} {r : Except ValidationError β} {x : β} :
    orInvalid r = .ok x ↔ r = .ok x := by
  cases r <;> simp [orInvalid]

theorem orInvalid_error_iff {β : Type} {r : Except ValidationError β} {err : ParseError} :
    orInvalid r = .error err ↔ ∃ v, r = .error v ∧ err = .invalid v := by
  cases r <;> simp [orInvalid, eq_comm]

theorem Shape.unwrap_value_ok_iff {s : Shape} {name : String} {v : Json} {x : s.Carrier} :
    s.unwrap name (.value v) = .ok x ↔ s.ofJson v = .ok x := by
  cases h : s.ofJson v <;> simp [unwrap, model, Model.checkPayload, orInvalid, h]

theorem Shape.unwrap_text_ok_iff {s : Shape} {name text : String} {x : s.Carrier} :
    s.unwrap name (.text text) = .ok x ↔ s.readText text = .ok x := by
  cases h : s.readText text <;> simp [unwrap, model, Model.checkPayload, orInvalid, h]

variable {α : Type}

theorem parseWith_toList (m : Model α) (e : Envelope) (p : Payload) :
    (parseWith m e p).map Parsed.toList =
      e.extract p >>= fun r => r.toList.mapM fun q => orInvalid (m.checkPayload q) := by
  cases h : e.extract p with
  | error err => simp [parseWith, h, bind, Except.bind, Except.map]
  | ok r => exact (congrArg _ (by simp [parseWith, h, bind, Except.bind])).trans (r.toList_mapM _)

theorem parseWith_ok_iff (m : Model α) (e : Envelope) (p : Payload) (xs : List α) :
    (parseWith m e p).map Parsed.toList = .ok xs ↔ ∃ r, e.extract p = .ok r ∧
      List.Forall₂ (fun q x => m.checkPayload q = .ok x) r.toList xs := by
  simp only [parseWith_toList, bind_ok_iff, mapM_ok_iff, orInvalid_ok_iff]

inductive LastFault (m : Model α) (e : Envelope) (p : Payload) : ParseError → Prop
  | extraction {err : ParseError} : e.extract p = .error err → LastFault m e p err
  | refused {r : Parsed Payload} {before after : List Payload} {q : Payload}
      {v : ValidationError} :
      e.extract p = .ok r → r.toList = before ++ q :: after →
      (∀ b ∈ before, ∃ x, m.checkPayload b = .ok x) → m.checkPayload q = .error v →
      LastFault m e p (.invalid v)

theorem parseWith_error_iff (m : Model α) (e : Envelope) (p : Payload) (err : ParseError) :
    (parseWith m e p).map Parsed.toList = .error err ↔ LastFault m e p err := by
  rw [parseWith_toList, bind_error_iff]
  simp only [mapM_error_iff, orInvalid_ok_iff, orInvalid_error_iff]
  constructor
  · intro h
    rcases h with h | ⟨r, hr, before, q, after, hs, hb, v, hv, rfl⟩
    · exact .extraction h
    · exact .refused hr hs hb hv
  · intro h
    rcases h with h | ⟨hr, hs, hb, hv⟩
    · exact .inl h
    · exact .inr ⟨_,hr,_,_,_,hs,hb,_,hv,rfl⟩

theorem Shape.readText_any (text : String) :
    Shape.any.readText text = TextReader.lift (Json.read text) := by
  show (TextReader.lift (Json.readValue _ _ _) >>= _) = _
  rw [Json.read]
  cases Json.readValue (Json.fuelFor (.ofText text)) Json.depthLimit (.ofText text) with
  | error f => rfl
  | ok r =>
    show (TextReader.lift (Json.finish r.2) >>= _) = _
    simp only [bind, Except.bind]
    cases Json.finish r.2 <;> rfl

theorem Shape.any_ok_iff {name : String} {q : Payload} {v : Json} :
    (Shape.any.model name).checkPayload q = .ok v ↔ q.toJson = .ok v := by
  cases q with
  | value w =>
    have hany : Shape.any.ofJson w = .ok w := rfl
    simp only [model, Model.checkPayload, hany, Payload.toJson]
    exact ⟨fun h => congrArg Except.ok (Except.ok.inj h),fun h => congrArg _ (Except.ok.inj h)⟩
  | text t =>
    simp only [model, Model.checkPayload, readText_any, Payload.toJson]
    cases Json.read t with
    | ok w => exact ⟨fun h => congrArg _ (Except.ok.inj h),fun h => congrArg _ (Except.ok.inj h)⟩
    | error f => simp [TextReader.lift]

namespace Chain

theorem anyModel_ok_iff {q : Payload} {v : Json} :
    anyModel.checkPayload q = .ok v ↔ q.toJson = .ok v := by
  cases q with
  | value w => simp [anyModel, Model.ofCheck, Model.checkPayload, Payload.toJson]
  | text t =>
    cases h : Json.read t <;>
      simp [anyModel, Model.ofCheck, Model.checkPayload, Payload.toJson, Model.readJson, h,
        bind, Except.bind]

/-- Between stages only a text that is not JSON is refused. -/
theorem anyModel_error_iff {q : Payload} {v : ValidationError} :
    anyModel.checkPayload q = .error v ↔ ∃ t f, q = .text t ∧ Json.read t = .error f ∧
      v = .ofReading "RawEvent" f.message := by
  cases q with
  | value w => simp [anyModel, Model.ofCheck, Model.checkPayload]
  | text t =>
    cases h : Json.read t <;>
      simp [anyModel, Model.ofCheck, Model.checkPayload, Model.readJson, h, bind, Except.bind,
        eq_comm]

theorem asEvent_ok_iff {e : Envelope} {v : Json} {p : Payload} :
    asEvent e v = .ok p ↔ v.isObject ∧ p = .value v := by
  cases h : v.isObject <;> simp [asEvent, h, eq_comm]

theorem asEvent_error_iff {e : Envelope} {v : Json} {err : ParseError} :
    asEvent e v = .error err ↔ v.isObject = false ∧
      err = .invalidChain "RawEvent or list of RawEvent" v.kind.name e.name := by
  cases h : v.isObject <;> simp [asEvent, h, eq_comm]

theorem unwrapEvent_eq (e : Envelope) (p : Payload) :
    unwrapEvent e p =
      (parseWith anyModel e p).map Parsed.toList >>= fun values => values.mapM (asEvent e) := by
  cases h : parseWith anyModel e p <;> simp [unwrapEvent, h, bind, Except.bind, Except.map]

theorem mapM_asEvent_ok_iff {e : Envelope} {values : List Json} {next : List Payload} :
    values.mapM (asEvent e) = .ok next ↔
      (∀ v ∈ values, v.isObject) ∧ next = values.map .value := by
  simp only [mapM_ok_iff, asEvent_ok_iff, forall₂_function_iff]

theorem unwrapEvent_ok_iff (e : Envelope) (p : Payload) (next : List Payload) :
    unwrapEvent e p = .ok next ↔ ∃ r values, e.extract p = .ok r ∧
      List.Forall₂ (fun q v => q.toJson = .ok v) r.toList values ∧
      (∀ v ∈ values, v.isObject) ∧ next = values.map .value := by
  simp only [unwrapEvent_eq, bind_ok_iff, parseWith_ok_iff, anyModel_ok_iff, mapM_asEvent_ok_iff]
  constructor
  · intro h
    obtain ⟨values, ⟨r, hr, hv⟩, h⟩ := h
    exact ⟨r,values,hr,hv,h⟩
  · intro h
    obtain ⟨r, values, hr, hv, h⟩ := h
    exact ⟨values,⟨r,hr,hv⟩,h⟩

/-- Why one event fails in a stage that is not the last. Every payload is read before any of
them is required to be an object. -/
inductive InnerFault (e : Envelope) (p : Payload) : ParseError → Prop
  | extraction {err : ParseError} : e.extract p = .error err → InnerFault e p err
  | unreadable {r : Parsed Payload} {before after : List Payload} {t : String} {f : Json.Fault} :
      e.extract p = .ok r → r.toList = before ++ .text t :: after →
      (∀ b ∈ before, ∃ v, b.toJson = .ok v) → Json.read t = .error f →
      InnerFault e p (.invalid (.ofReading "RawEvent" f.message))
  | notObject {r : Parsed Payload} {before after : List Json} {v : Json} :
      e.extract p = .ok r →
      List.Forall₂ (fun q w => q.toJson = .ok w) r.toList (before ++ v :: after) →
      (∀ b ∈ before, b.isObject) → v.isObject = false →
      InnerFault e p (.invalidChain "RawEvent or list of RawEvent" v.kind.name e.name)

theorem unwrapEvent_error_iff (e : Envelope) (p : Payload) (err : ParseError) :
    unwrapEvent e p = .error err ↔ InnerFault e p err := by
  simp only [unwrapEvent_eq, bind_error_iff, parseWith_error_iff, parseWith_ok_iff,
    anyModel_ok_iff, mapM_error_iff, asEvent_ok_iff, asEvent_error_iff]
  constructor
  · intro h
    rcases h with (h | ⟨hr, hs, hb, hv⟩) | ⟨_, ⟨r, hr, hv⟩, before, v, after, rfl, hb, ho, rfl⟩
    · exact .extraction h
    · obtain ⟨t, f, rfl, hf, rfl⟩ := anyModel_error_iff.mp hv
      exact .unreadable hr hs (by simpa only [anyModel_ok_iff] using hb) hf
    · exact .notObject hr hv (fun b hm => (hb b hm).choose_spec.1) ho
  · intro h
    rcases h with h | ⟨hr, hs, hb, hf⟩ | ⟨hr, hv, hb, ho⟩
    · exact .inl (.extraction h)
    · refine .inl (.refused hr hs (by simpa only [anyModel_ok_iff] using hb) ?_)
      exact anyModel_error_iff.mpr ⟨_,_,rfl,hf,rfl⟩
    · exact .inr ⟨_,⟨_,hr,hv⟩,_,_,_,rfl,fun b hm => ⟨_,hb b hm,rfl⟩,ho,rfl⟩

end Chain
end Unseal
