import Unseal.Envelope.Field
import Unseal.Envelope.Named
import Unseal.Proofs.Envelope.Records

/-!
# How an envelope refuses

The one reason for which an envelope refuses an event is that the event is invalid. Faults of a
chain and unknown names are not its business. This holds of each part of an extraction and is kept
when parts are put together.
-/

set_option autoImplicit false

namespace Unseal

open Traversal

def OnlyInvalid {α : Type} (r : Except ParseError α) : Prop :=
  ∀ err, r = .error err → ∃ e, err = .invalid e

namespace OnlyInvalid

variable {α β : Type}

theorem ok (x : α) : OnlyInvalid (.ok x) := nofun

theorem invalid (e : ValidationError) : OnlyInvalid (.error (.invalid e) : Except _ α) := by
  rintro _ ⟨⟩
  exact ⟨e,rfl⟩

theorem bind {r : Except ParseError α} {f : α → Except ParseError β} (hr : OnlyInvalid r)
    (hf : ∀ x, OnlyInvalid (f x)) : OnlyInvalid (r >>= f) := by
  intro err h
  rcases bind_error_iff.mp h with h | ⟨x, -, h⟩
  · exact hr err h
  · exact hf x err h

theorem orInvalid (r : Except ValidationError α) : OnlyInvalid (orInvalid r) := by
  intro err h
  obtain ⟨e, -, rfl⟩ := orInvalid_error_iff.mp h
  exact ⟨e,rfl⟩

theorem mapM {f : α → Except ParseError β} (hf : ∀ x, OnlyInvalid (f x)) (xs : List α) :
    OnlyInvalid (xs.mapM f) := by
  intro err h
  obtain ⟨_, x, _, -, -, hx⟩ := mapM_error_iff.mp h
  exact hf x err hx

theorem eachFrom {f : Nat → α → Except ParseError β} (hf : ∀ i x, OnlyInvalid (f i x)) (i : Nat)
    (xs : List α) : OnlyInvalid (eachFrom f i xs) := by
  induction xs generalizing i with
  | nil => exact .ok []
  | cons x xs ih => exact (hf i x).bind fun y => (ih (i + 1)).bind fun ys => .ok (y :: ys)

theorem checkSource (model path actual expected : String) :
    OnlyInvalid (checkSource model path actual expected) := by
  unfold Unseal.checkSource
  split
  · exact .ok ()
  · exact .invalid _

theorem checkSources {source : α → String} {path : Nat → String} (model expected : String)
    (records : List α) :
    OnlyInvalid (discard <| eachRecord records fun i r =>
      Unseal.checkSource model (path i) (source r) expected) := by
  intro err h
  exact eachFrom (fun _ _ => checkSource _ _ _ _) 0 records err (discard_error_iff.mp h)

end OnlyInvalid

/-- An envelope that refuses an event only as invalid. -/
def Envelope.Honest (e : Envelope) : Prop := ∀ p, OnlyInvalid (e.extract p)

namespace Envelope

theorem sqs_honest : sqs.Honest := fun _ =>
  (OnlyInvalid.orInvalid _).bind fun event =>
    (OnlyInvalid.checkSources "SqsEvent" "aws:sqs" event.1).bind fun _ => .ok _

theorem sns_honest : sns.Honest := fun _ =>
  (OnlyInvalid.orInvalid _).bind fun event =>
    (OnlyInvalid.checkSources "SnsEvent" "aws:sns" event.1).bind fun _ => .ok _

theorem snsSqs_honest : snsSqs.Honest := by
  intro p
  have hmessage : ∀ r : SqsRecord, OnlyInvalid (snsMessage r) :=
    fun _ => (OnlyInvalid.orInvalid _).bind fun _ => .ok _
  exact (OnlyInvalid.orInvalid _).bind fun event : SqsEvent =>
    (OnlyInvalid.checkSources "SqsEvent" "aws:sqs" event.1).bind fun _ =>
      (OnlyInvalid.mapM hmessage event.1).bind fun _ => .ok _

theorem kinesis_honest : kinesis.Honest := by
  intro p
  have hdata : ∀ i r, OnlyInvalid (kinesisData i r) := by
    intro i r
    refine (OnlyInvalid.checkSource _ _ _ _).bind fun _ => ?_
    cases decodeData r.payload.data with
    | error f => exact .invalid _
    | ok t => exact .ok _
  exact (OnlyInvalid.orInvalid _).bind fun event : KinesisEvent =>
    (OnlyInvalid.eachFrom hdata 0 event.1).bind fun _ => .ok _

theorem eventBridge_honest : eventBridge.Honest := by
  intro p
  refine (OnlyInvalid.orInvalid _).bind fun v => ?_
  split
  · exact .invalid _
  · exact (OnlyInvalid.orInvalid _).bind fun _ => .ok _

theorem apiGateway_honest : apiGateway.Honest := by
  intro p
  refine (OnlyInvalid.orInvalid _).bind fun request : GatewayRequest => ?_
  cases request.body with
  | none => exact .invalid _
  | some body => exact .ok _

end Envelope

theorem Source.honest (s : Source) : s.envelope.Honest :=
  match s with
  | .eventBridge => Envelope.eventBridge_honest
  | .sqs => Envelope.sqs_honest
  | .sns => Envelope.sns_honest
  | .snsSqs => Envelope.snsSqs_honest
  | .kinesis => Envelope.kinesis_honest
  | .apiGateway => Envelope.apiGateway_honest

theorem Field.honest (f : Field) : f.envelope.Honest := by
  intro p
  change OnlyInvalid (f.extract p)
  unfold Field.extract
  split
  · exact .invalid _
  · split
    · exact .invalid _
    · split
      · split
        · exact .ok _
        · exact .invalid _
      · exact .ok _

end Unseal
