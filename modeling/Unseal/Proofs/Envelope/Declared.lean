import Unseal.Envelope.Named
import Unseal.Proofs.Chain.Event
import Unseal.Proofs.Record.Reread
import Unseal.Proofs.Record.Tidy

/-!
# Keys that no field declares

What an envelope makes of an event depends on the members that its records declare. Others may
come, go and change their values at every level of the event, and neither the payloads nor the
fault it ends with are different.
-/

set_option autoImplicit false

namespace Unseal

mutual
/-- The value without the members that no field answers to, in every record of the shape. A strict
record refuses such members, so it keeps them. -/
def Shape.declared : Shape → Json → Json
  | .optional s, v => s.declared v
  | .sequence s, v =>
    match v with
    | .arr vs => .arr (vs.map fun v => s.declared v)
    | v => v
  | .dictionary s, v =>
    match v with
    | .obj ms => .obj (ms.map fun (k, v) => (k, s.declared v))
    | v => v
  | .record _ strict fs, v =>
    match v with
    | .obj ms => .obj (ms.filterMap fun (key, v) => (fs.declaredAt strict key v).map (key, ·))
    | .arr vs => .arr (fs.declaredItems vs)
    | v => v
  | _, v => v

def Fields.declaredAt (strict : Bool) (key : String) (v : Json) : Fields → Option Json
  | .nil => if strict then some v else none
  | .cons k s rest =>
    if k.answers key then some (s.declared v) else rest.declaredAt strict key v

def Fields.declaredItems : Fields → List Json → List Json
  | .cons _ s rest, v :: vs => s.declared v :: rest.declaredItems vs
  | _, vs => vs
end

/-! ## Members that are left out -/

namespace Fields

theorem declaredAt_isSome : (fs : Fields) → (strict : Bool) → (key : String) → (v : Json) →
    (fs.declaredAt strict key v).isSome = (strict || fs.answers key)
  | .nil, strict, _, _ => by cases strict <;> rfl
  | .cons k s rest, strict, key, v => by
    rw [declaredAt, answers]
    cases k.answers key with
    | true => simp
    | false => simpa using rest.declaredAt_isSome strict key v

theorem length_declaredItems : (fs : Fields) → (vs : List Json) →
    (fs.declaredItems vs).length = vs.length
  | .nil, _ => rfl
  | .cons _ _ _, [] => rfl
  | .cons _ _ rest, _ :: vs => congrArg (· + 1) (rest.length_declaredItems vs)

section Put

variable {k : Key} {s : Shape} {rest : Fields} {key : String} {v w : Json}
  {slot : Option s.Carrier} {slots : rest.Slots}

theorem put_cons_of_answers (hk : k.answers key = true) (h : s.ofJson w = s.ofJson v) :
    Fields.put key w (.cons k s rest) (slot, slots) =
      Fields.put key v (.cons k s rest) (slot, slots) := by
  simp only [put_cons, hk, if_true, h]

theorem put_cons_of_rest (hk : k.answers key = false)
    (h : rest.put key w slots = rest.put key v slots) :
    Fields.put key w (.cons k s rest) (slot, slots) =
      Fields.put key v (.cons k s rest) (slot, slots) := by
  simp only [put_cons, hk, Bool.false_eq_true, if_false, h]

end Put

theorem absorb_of_declaredAt_none {strict : Bool} {fs : Fields} {slots : fs.Slots} {key : String}
    {v : Json} (h : fs.declaredAt strict key v = none) :
    fs.absorb strict slots (key, v) = .ok slots := by
  obtain ⟨rfl, hanswers⟩ : strict = false ∧ fs.answers key = false := by
    simpa [h] using (fs.declaredAt_isSome strict key v).symm
  exact absorb_ok_iff.mpr ⟨nofun,fs.fill_of_not_answers slots hanswers⟩

end Fields

/-! ## Values read the same -/

theorem Shape.kind_declared : (s : Shape) → (v : Json) → (s.declared v).kind = v.kind
  | .optional s, v => s.kind_declared v
  | .sequence _, v => by cases v <;> rfl
  | .dictionary _, v => by cases v <;> rfl
  | .record _ _ _, v => by cases v <;> rfl
  | .text, _ => rfl
  | .integer _, _ => rfl
  | .real, _ => rfl
  | .flag, _ => rfl
  | .any, _ => rfl
  | .instant, _ => rfl

theorem Json.eq_null_iff {v : Json} : v = .null ↔ v.kind = .null := by cases v <;> simp [kind]

section Containers

variable {s : Shape} (h : ∀ v, s.ofJson (s.declared v) = s.ofJson v) (v : Json)
include h

theorem Shape.optional_declared :
    (Shape.optional s).ofJson (s.declared v) = (Shape.optional s).ofJson v := by
  by_cases hv : v = .null
  · have hw : s.declared v = .null :=
      Json.eq_null_iff.mpr ((s.kind_declared v).trans (Json.eq_null_iff.mp hv))
    rw [hw, hv]
  · have hw : s.declared v ≠ .null :=
      fun hw => hv (Json.eq_null_iff.mpr ((s.kind_declared v).symm.trans (Json.eq_null_iff.mp hw)))
    rw [ofJson_optional hv, ofJson_optional hw, h]

theorem Shape.sequence_declared :
    (Shape.sequence s).ofJson ((Shape.sequence s).declared v) = (Shape.sequence s).ofJson v := by
  cases v with
  | arr vs =>
    show (vs.map fun v => s.declared v).mapM (fun v => s.ofJson v) = vs.mapM fun v => s.ofJson v
    rw [List.mapM_map]
    exact congrArg (vs.mapM ·) (funext h)
  | _ => rfl

theorem Shape.dictionary_declared :
    (Shape.dictionary s).ofJson ((Shape.dictionary s).declared v) =
      (Shape.dictionary s).ofJson v := by
  cases v with
  | obj ms =>
    show (ms.map fun (k, v) => (k, s.declared v)).mapM _ = ms.mapM _
    rw [List.mapM_map]
    refine congrArg (ms.mapM ·) (funext fun (k, v) => ?_)
    show (s.ofJson (s.declared v) >>= fun x => Except.ok (k, x)) = _
    rw [h]
  | _ => rfl

end Containers

section Records

variable {name : String} {strict : Bool} {fs : Fields}

theorem Shape.record_declared
    (hput : ∀ key v slots w, fs.declaredAt strict key v = some w →
      fs.put key w slots = fs.put key v slots)
    (hitems : ∀ vs, fs.ofItems name fs.size 0 (fs.declaredItems vs) =
      fs.ofItems name fs.size 0 vs) (v : Json) :
    (Shape.record name strict fs).ofJson ((Shape.record name strict fs).declared v) =
      (Shape.record name strict fs).ofJson v := by
  cases v with
  | obj ms =>
    -- the others are taken in their order, so the first fault is the same
    show ((ms.filterMap _).foldlM (fs.absorb strict) fs.empty >>= fs.complete) =
      ms.foldlM (fs.absorb strict) fs.empty >>= fs.complete
    rw [Traversal.foldlM_filterMap]
    · rintro slots ⟨key, v⟩ m hm
      obtain ⟨w, hw, rfl⟩ := Option.map_eq_some_iff.mp hm
      simp only [Fields.absorb, hput key v slots w hw]
    · rintro slots ⟨key, v⟩ hm
      exact Fields.absorb_of_declaredAt_none (Option.map_eq_none_iff.mp hm)
  | arr vs =>
    show (fs.ofItems name fs.size 0 (fs.declaredItems vs) >>= fun p =>
        if p.2.isEmpty then .ok p.1 else .error (.tooMany (fs.declaredItems vs).length)) =
      fs.ofItems name fs.size 0 vs >>= fun p =>
        if p.2.isEmpty then .ok p.1 else .error (.tooMany vs.length)
    rw [hitems, fs.length_declaredItems]
  | _ => rfl

end Records

mutual
theorem Shape.ofJson_declared : (s : Shape) → (v : Json) → s.ofJson (s.declared v) = s.ofJson v
  | .text, _ => rfl
  | .integer _, _ => rfl
  | .real, _ => rfl
  | .flag, _ => rfl
  | .any, _ => rfl
  | .instant, _ => rfl
  | .optional s, v => Shape.optional_declared s.ofJson_declared v
  | .sequence s, v => Shape.sequence_declared s.ofJson_declared v
  | .dictionary s, v => Shape.dictionary_declared s.ofJson_declared v
  | .record _ strict fs, v =>
    Shape.record_declared (fs.put_declaredAt strict) (fs.ofItems_declaredItems _ _ 0) v

theorem Fields.put_declaredAt (strict : Bool) : (fs : Fields) → (key : String) → (v : Json) →
    (slots : fs.Slots) → (w : Json) → fs.declaredAt strict key v = some w →
    fs.put key w slots = fs.put key v slots
  | .nil, _, _, _, _, _ => rfl
  | .cons k s rest, key, v, (slot, slots), w, hw => by
    rw [Fields.declaredAt] at hw
    cases hk : k.answers key with
    | true =>
      rw [if_pos hk] at hw
      exact Fields.put_cons_of_answers hk (Option.some.inj hw ▸ s.ofJson_declared v)
    | false =>
      rw [if_neg (by simp [hk])] at hw
      exact Fields.put_cons_of_rest hk (rest.put_declaredAt strict key v slots w hw)

theorem Fields.ofItems_declaredItems : (fs : Fields) → (record : String) → (total i : Nat) →
    (vs : List Json) → fs.ofItems record total i (fs.declaredItems vs) =
      fs.ofItems record total i vs
  | .nil, _, _, _, _ => rfl
  | .cons _ _ _, _, _, _, [] => rfl
  | .cons _ s rest, record, total, i, v :: vs => by
    rw [Fields.declaredItems, Fields.ofItems_item, Fields.ofItems_item, s.ofJson_declared,
      rest.ofItems_declaredItems record total (i + 1) vs]
end

/-! ## Envelopes -/

def Source.eventShape : Source → Shape
  | eventBridge => .eventBridgeEvent
  | sqs => .sqsEvent
  | sns => .snsEvent
  | snsSqs => .sqsEvent
  | kinesis => .kinesisEvent
  | apiGateway => .gatewayRequest

theorem Shape.unwrap_declared (s : Shape) (name : String) (v : Json) :
    s.unwrap name (.value (s.declared v)) = s.unwrap name (.value v) := by
  simp only [unwrap, model, Model.checkPayload, s.ofJson_declared]

theorem Shape.isSome_get?_declared {name : String} {strict : Bool} {fs : Fields} {key : String}
    (h : fs.answers key) (v : Json) :
    (((Shape.record name strict fs).declared v).get? key).isSome = (v.get? key).isSome := by
  have hkept : ∀ v, (fs.declaredAt strict key v).isSome := by
    intro v
    rw [fs.declaredAt_isSome, h, Bool.or_true]
  cases v with
  | obj ms =>
    have hfind := @Members.find?_filterMap _ _ _ (fs.declaredAt strict) hkept ms
    show (Members.find? key (ms.filterMap _)).isSome = (Members.find? key ms).isSome
    refine (congrArg Option.isSome hfind).trans ?_
    cases Members.find? key ms with
    | none => rfl
    | some v => exact hkept v
  | _ => rfl

theorem Shape.isObject_declared (s : Shape) (v : Json) :
    (s.declared v).isObject = v.isObject := by
  have hobject : ∀ v : Json, v.isObject = decide (v.kind = .object) := by
    intro v
    cases v <;> rfl
  rw [hobject, hobject, s.kind_declared]

/-- Both the look for a detail and the reading of the event pass over what is not declared. -/
theorem Envelope.eventBridge_extract_declared (v : Json) :
    eventBridge.extract (.value (Shape.eventBridgeEvent.declared v)) =
      eventBridge.extract (.value v) := by
  have hextract : ∀ v, eventBridge.extract (.value v) =
      if v.isObject && (v.get? "detail").isNone then
        .error (.invalid (.missing "EventBridgeEvent" "detail"))
      else Shape.eventBridgeEvent.unwrap "EventBridgeEvent" (.value v) >>=
        fun event : EventBridgeEvent => .ok (.single (.value event.detail)) := fun _ => rfl
  have hdetail : ((Shape.eventBridgeEvent.declared v).get? "detail").isSome =
      (v.get? "detail").isSome := Shape.isSome_get?_declared rfl v
  rw [hextract, hextract, Shape.isObject_declared, ← Option.not_isSome, ← Option.not_isSome,
    hdetail, Shape.unwrap_declared]

theorem Source.extract_declared (s : Source) (v : Json) :
    s.envelope.extract (.value (s.eventShape.declared v)) = s.envelope.extract (.value v) := by
  cases s with
  | eventBridge => exact Envelope.eventBridge_extract_declared v
  | _ => exact congrArg (· >>= _) (Shape.unwrap_declared _ _ v)

/-- Two events that differ in members that no field declares are one event to the envelope: they
yield the same payloads, or they are refused for the same reason. -/
theorem Source.extract_eq_of_declared (s : Source) {v w : Json}
    (h : s.eventShape.declared v = s.eventShape.declared w) :
    s.envelope.extract (.value v) = s.envelope.extract (.value w) := by
  rw [← s.extract_declared v, h, s.extract_declared w]

def noticeWith (spare : List (String × Json)) : Json :=
  .obj <| ("Records", .arr [.obj <| [("EventSource", .str "aws:sns"),
    ("EventSubscriptionArn", .str "arn:aws:sns:eu-west-1:111122223333:orders:1"),
    ("EventVersion", .str "1.0"),
    ("Sns", .obj <| [("Message", .str "ready"), ("MessageId", .str "m-1"),
      ("Timestamp", .str "2024-03-18T21:41:09Z"),
      ("TopicArn", .str "arn:aws:sns:eu-west-1:111122223333:orders"),
      ("Type", .str "Notification")] ++ spare)] ++ spare]) :: spare

theorem noticeWith_spare :
    Source.sns.eventShape.declared (noticeWith [("spare", .arr [.null])]) =
      Source.sns.eventShape.declared (noticeWith []) ∧
    Source.sns.envelope.extract (.value (noticeWith [("spare", .arr [.null])])) =
      Source.sns.envelope.extract (.value (noticeWith [])) ∧
    Source.sns.envelope.extract (.value (noticeWith [])) = .ok (.many [.text "ready"]) :=
  ⟨rfl,Source.sns.extract_eq_of_declared rfl,rfl⟩

end Unseal
