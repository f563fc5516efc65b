import Unseal.Proofs.Chain.Fault
import Unseal.Proofs.Envelope.Refusal

/-!
# What a chaining fault says

A chaining fault has two causes, a chain without envelopes and a value between two stages that is
no object. Its text tells them apart by the name of the envelope, which is empty in the first case.
So it does as long as the envelopes have names.
-/

set_option autoImplicit false

namespace Unseal

open Traversal

/-! ## The text -/

namespace ParseError

def SaysEmpty (err : ParseError) : Prop := "envelope chain is empty".toList <+: err.message.toList

variable {expected received name : String}

theorem message_unnamed :
    (invalidChain expected received "").message =
      "envelope chain is empty: expected " ++ expected := rfl

theorem message_named (h : name ≠ "") : (invalidChain expected received name).message =
    "return type expected is " ++ expected ++ ", received " ++ received ++
      " from envelope " ++ name := if_neg h

theorem saysEmpty_iff : (invalidChain expected received name).SaysEmpty ↔ name = "" := by
  unfold SaysEmpty
  by_cases h : name = ""
  · subst h
    have hstart : "envelope chain is empty".toList <+:
        "envelope chain is empty: expected ".toList :=
      ⟨": expected ".toList,rfl⟩
    rw [message_unnamed, String.toList_append]
    exact iff_of_true (hstart.trans (List.prefix_append ..)) rfl
  · rw [message_named h]
    refine iff_of_false ?_ h
    -- the first letters differ
    simp [String.toList_append, List.cons_prefix_cons]

end ParseError

/-! ## Its causes -/

def Envelope.TakesOut (e : Envelope) (v : Json) : Prop :=
  ∃ p r q, e.extract p = .ok r ∧ q ∈ r.toList ∧ q.toJson = .ok v

variable {α : Type} {m : Model α} {p : Payload} {err : ParseError}
  {expected received name : String}

theorem parseChain_fault {front : List Envelope} {last : Envelope}
    (h : parseChain m (front ++ [last]) p = .error err) :
    (∃ before e after q, front = before ++ e :: after ∧ Chain.InnerFault e q err) ∨
      ∃ q, LastFault m last q err := by
  rw [parseChain, Chain.run_append] at h
  rcases bind_error_iff.mp h with h | ⟨events, -, h⟩
  · obtain ⟨before, e, after, _, q, _, hfront, -, -, hq⟩ := (advance_error_iff ..).mp h
    exact .inl ⟨before,e,after,q,hfront,hq⟩
  · change Chain.lastStage m last events = _ at h
    rw [Chain.lastStage_eq_collect, collect_error_iff] at h
    obtain ⟨_, q, _, -, -, hq⟩ := h
    exact .inr ⟨q,(parseWith_error_iff ..).mp hq⟩

theorem Envelope.Honest.not_invalidChain {e : Envelope} (he : e.Honest) :
    e.extract p ≠ .error (.invalidChain expected received name) := by
  intro h
  obtain ⟨_, ⟨⟩⟩ := he p _ h

theorem innerFault_invalidChain {e : Envelope} (he : e.Honest)
    (h : Chain.InnerFault e p (.invalidChain expected received name)) :
    ∃ v, e.TakesOut v ∧ v.isObject = false ∧ expected = "RawEvent or list of RawEvent" ∧
      received = v.kind.name ∧ name = e.name := by
  cases h with
  | extraction h => exact absurd h he.not_invalidChain
  | @notObject r before after v hr hvalues _ hv =>
    obtain ⟨q, hq, hread⟩ := mapM_mem (mapM_ok_iff.mpr hvalues) (by simp : v ∈ before ++ v :: after)
    exact ⟨v,⟨p,r,q,hr,hq,hread⟩,hv,rfl,rfl,rfl⟩

theorem not_lastFault_invalidChain {e : Envelope} (he : e.Honest) :
    ¬LastFault m e p (.invalidChain expected received name) := by
  intro h
  cases h with
  | extraction h => exact he.not_invalidChain h

/-- Through honest envelopes, a chaining fault of a chain that has some is that of an envelope
which another follows and which took out a value that is no object. -/
theorem parseChain_invalidChain {es : List Envelope} (hes : ∀ e ∈ es, e.Honest) (hne : es ≠ [])
    (h : parseChain m es p = .error (.invalidChain expected received name)) :
    ∃ front e back v, es = front ++ e :: back ∧ back ≠ [] ∧ e.TakesOut v ∧ v.isObject = false ∧
      expected = "RawEvent or list of RawEvent" ∧ received = v.kind.name ∧ name = e.name := by
  obtain ⟨front, last, rfl⟩ := (List.eq_nil_or_concat es).resolve_left hne
  rw [List.concat_eq_append] at h hes ⊢
  obtain ⟨hfront, hlast⟩ := List.forall_mem_append.mp hes
  rcases parseChain_fault h with ⟨before, e, after, q, rfl, hq⟩ | ⟨q, hq⟩
  · obtain ⟨v, hv⟩ := innerFault_invalidChain (hfront e (by simp)) hq
    exact ⟨before,e,after ++ [last],v,by simp,by simp,hv⟩
  · exact absurd hq (not_lastFault_invalidChain (hlast last (by simp)))

/-- A chaining fault begins as that of the empty chain if the chain is empty, and also if the
envelope at fault has an empty name. Otherwise it states what was received, and from which of the
inner envelopes. -/
theorem parseChain_chaining_text {es : List Envelope} (hes : ∀ e ∈ es, e.Honest)
    (h : parseChain m es p = .error (.invalidChain expected received name)) :
    ((ParseError.invalidChain expected received name).SaysEmpty ↔ es = [] ∨ name = "") ∧
    (es ≠ [] → ∃ front e back v, es = front ++ e :: back ∧ back ≠ [] ∧ e.TakesOut v ∧
      v.isObject = false ∧ name = e.name ∧
      (name ≠ "" → (ParseError.invalidChain expected received name).message =
        "return type expected is RawEvent or list of RawEvent, received " ++ v.kind.name ++
          " from envelope " ++ e.name)) := by
  constructor
  · rw [ParseError.saysEmpty_iff]
    refine ⟨.inr,?_⟩
    rintro (rfl | hname)
    · cases h
      rfl
    · exact hname
  · intro hne
    obtain ⟨front, e, back, v, hsplit, hback, htakes, hobject, rfl, rfl, rfl⟩ :=
      parseChain_invalidChain hes hne h
    refine ⟨front,e,back,v,hsplit,hback,htakes,hobject,rfl,fun hname => ?_⟩
    rw [ParseError.message_named hname]
    rfl

def countedParcel : Json := .mkObj [("parcels", .num (.int 2))]

def parcelChain (name : String) : List Envelope :=
  [(Field.ofPlace name "parcels" false false).envelope, .eventBridge]

theorem countedParcel_chaining_text :
    (∀ e ∈ parcelChain "parcels", e.Honest) ∧
    parseChain (Shape.any.model "Value") (parcelChain "parcels") (.value countedParcel) =
      .error (.invalidChain "RawEvent or list of RawEvent" "number" "parcels") ∧
    ¬(ParseError.invalidChain "RawEvent or list of RawEvent" "number" "parcels").SaysEmpty := by
  have hhonest : ∀ e ∈ parcelChain "parcels", e.Honest :=
    List.forall_mem_cons.mpr ⟨Field.honest _,by simpa using Envelope.eventBridge_honest⟩
  have hfault : parseChain (Shape.any.model "Value") (parcelChain "parcels")
      (.value countedParcel) =
        .error (.invalidChain "RawEvent or list of RawEvent" "number" "parcels") := rfl
  refine ⟨hhonest,hfault,?_⟩
  rw [(parseChain_chaining_text hhonest hfault).1]
  simp [parcelChain]

/-- An envelope without a name makes a chain of two look empty. -/
theorem unnamed_says_empty :
    parseChain (Shape.any.model "Value") (parcelChain "") (.value countedParcel) =
      .error (.invalidChain "RawEvent or list of RawEvent" "number" "") ∧
    (ParseError.invalidChain "RawEvent or list of RawEvent" "number" "").message =
      "envelope chain is empty: expected RawEvent or list of RawEvent" ∧
    (ParseError.invalidChain "RawEvent or list of RawEvent" "number" "").SaysEmpty ∧
    parcelChain "" ≠ [] :=
  ⟨rfl,by decide,⟨": expected RawEvent or list of RawEvent".toList,by decide⟩,nofun⟩

end Unseal
