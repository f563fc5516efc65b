import Unseal.Proofs.Envelope.Declared
import Unseal.Proofs.Envelope.Refusal
import Unseal.Proofs.Record.Restoring

/-!
# Where a payload comes from

An envelope yields what an event holds in the field that is documented for it. The records of an
event are objects with their fields as members, but a record is also read from the list of its
fields. So an event is accepted that has no such member, or is no object at all: then the payload
is what stands in the field's place.
-/

set_option autoImplicit false

namespace Unseal

open Traversal

/-! ## The members of a record -/

namespace Fields

def spelled (fs : Fields) : Json → List (String × Json)
  | .obj ms => ms
  | .arr vs => fs.names.zip vs
  | _ => []

theorem decodes_ofItems {record : String} {total : Nat} : (fs : Fields) → fs.separate →
    {i : Nat} → {vs left : List Json} → {x : fs.Carrier} →
    fs.ofItems record total i vs = .ok (x, left) → fs.Decodes (fs.names.zip vs) x
  | .nil, _, _, _, _, _, _ => trivial
  | .cons k s rest, h, i, vs, left, (x, xs), hv => by
    have hrest := (separate_cons h).1
    cases vs with
    | nil =>
      rw [ofItems_end] at hv
      split at hv
      next => cases hv
      next hk =>
        obtain ⟨⟨ys, _⟩, hys, ⟨⟩⟩ := bind_ok_iff.mp hv
        have htail := rest.decodes_ofItems hrest hys
        rw [List.zip_nil_right] at htail ⊢
        exact ⟨⟨hk,rfl⟩,htail⟩
    | cons v vs =>
      rw [ofItems_item] at hv
      obtain ⟨y, hy, hv⟩ := bind_ok_iff.mp hv
      obtain ⟨⟨ys, _⟩, hys, ⟨⟩⟩ := bind_ok_iff.mp hv
      exact .cons h hy (fun m hm => (List.of_mem_zip hm).1) (rest.decodes_ofItems hrest hys)

end Fields

theorem Shape.decodes_spelled {name : String} {fs : Fields} (h : fs.separate) {v : Json}
    {x : fs.Carrier} (hv : (Shape.record name false fs).ofJson v = .ok x) :
    fs.Decodes (fs.spelled v) x := by
  cases v with
  | obj ms => exact (ofJson_object_iff h).mp hv
  | arr vs => exact fs.decodes_ofItems h (ofJson_list_iff.mp hv)
  | _ => cases hv

/-- What a record holds in the place of a field. -/
def Shape.part? (s : Shape) (field : String) (v : Json) : Option Json :=
  match s with
  | .record _ _ fs => Members.find? field (fs.spelled v)
  | _ => none

/-! ## Records that are objects -/

mutual
/-- No record in the value is written as a list. -/
def Shape.keyed : Shape → Json → Bool
  | .optional s, v => s.keyed v
  | .sequence s, v =>
    match v with
    | .arr vs => vs.all fun v => s.keyed v
    | _ => true
  | .dictionary s, v =>
    match v with
    | .obj ms => ms.all fun m => s.keyed m.2
    | _ => true
  | .record _ _ fs, v =>
    match v with
    | .obj ms => ms.all fun m => fs.keyedAt m.1 m.2
    | .arr _ => false
    | _ => true
  | _, _ => true

def Fields.keyedAt (key : String) (v : Json) : Fields → Bool
  | .nil => true
  | .cons k s rest => if k.answers key then s.keyed v else rest.keyedAt key v
end

section Keyed

variable {name : String} {strict : Bool} {fs : Fields} {field : String} {v x : Json}

theorem Shape.part?_of_keyed (h : (Shape.record name strict fs).keyed v) :
    (Shape.record name strict fs).part? field v = v.get? field := by
  cases v with
  | arr vs => cases h
  | _ => rfl

theorem Shape.keyedAt_of_get? (h : (Shape.record name strict fs).keyed v)
    (hx : v.get? field = some x) : fs.keyedAt field x := by
  cases v with
  | obj ms => exact List.all_eq_true.mp h (field, x) (Members.mem_of_find? hx)
  | _ => cases hx

theorem Json.isObject_of_get? (h : v.get? field = some x) : v.isObject := by
  cases v with
  | obj ms => rfl
  | _ => cases h

end Keyed

/-! ## What a source yields -/

section Places

variable (find : Shape → String → Json → Option Json)

inductive Source.Carries : Source → Json → Payload → Prop
  | sqs {r : Json} {body : String} : find .sqsRecord "body" r = some (.str body) →
      Carries .sqs r (.text body)
  | sns {r n : Json} {message : String} : find .snsRecord "Sns" r = some n →
      find .snsNotification "Message" n = some (.str message) → Carries .sns r (.text message)
  | snsSqs {r : Json} {body : String} {n : SnsNotification} :
      find .sqsRecord "body" r = some (.str body) → Shape.snsNotification.readText body = .ok n →
      Carries .snsSqs r (.text n.message)
  | kinesis {r p : Json} {data t : String} : find .kinesisRecord "kinesis" r = some p →
      find .kinesisPayload "data" p = some (.str data) → decodeData data = .ok t →
      Carries .kinesis r (.text t)

/-- An event and what is taken from it, where `find` looks for the fields of its records. -/
def Source.Yields : Source → Json → Parsed Payload → Prop
  | .eventBridge, v, r => ∃ detail, find .eventBridgeEvent "detail" v = some detail ∧
      r = .single (.value detail)
  | .apiGateway, v, r => ∃ body, find .gatewayRequest "body" v = some (.str body) ∧
      r = .single (.text body)
  | s, v, r => ∃ records qs, find s.eventShape "Records" v = some (.arr records) ∧
      List.Forall₂ (Source.Carries find s) records qs ∧ r = .many qs

end Places

/-! ## The documented fields -/

theorem SqsRecord.part?_body {v : Json} {r : SqsRecord} (h : Shape.sqsRecord.ofJson v = .ok r) :
    Shape.sqsRecord.part? "body" v = some (.str r.body) := by
  obtain ⟨-, -, hbody, -⟩ := Shape.decodes_spelled rfl h
  exact hbody.find?_text

theorem SnsRecord.part?_notification {v : Json} {r : SnsRecord}
    (h : Shape.snsRecord.ofJson v = .ok r) : ∃ n, Shape.snsRecord.part? "Sns" v = some n ∧
      Shape.snsNotification.ofJson n = .ok r.notification := by
  obtain ⟨-, -, -, hnotification, -⟩ := Shape.decodes_spelled rfl h
  exact hnotification.find?_required

theorem SnsNotification.part?_message {v : Json} {n : SnsNotification}
    (h : Shape.snsNotification.ofJson v = .ok n) :
    Shape.snsNotification.part? "Message" v = some (.str n.message) := by
  obtain ⟨-, -, -, -, hmessage, -⟩ := Shape.decodes_spelled rfl h
  exact hmessage.find?_text

theorem KinesisRecord.part?_payload {v : Json} {r : KinesisRecord}
    (h : Shape.kinesisRecord.ofJson v = .ok r) :
    ∃ p, Shape.kinesisRecord.part? "kinesis" v = some p ∧
      Shape.kinesisPayload.ofJson p = .ok r.payload := by
  obtain ⟨-, -, -, -, -, -, hpayload, -⟩ := Shape.decodes_spelled rfl h
  exact hpayload.find?_required

theorem KinesisPayload.part?_data {v : Json} {p : KinesisPayload}
    (h : Shape.kinesisPayload.ofJson v = .ok p) :
    Shape.kinesisPayload.part? "data" v = some (.str p.data) := by
  obtain ⟨-, -, -, hdata, -⟩ := Shape.decodes_spelled rfl h
  exact hdata.find?_text

theorem EventBridgeEvent.part?_detail {v : Json} {event : EventBridgeEvent}
    (h : Shape.eventBridgeEvent.ofJson v = .ok event) :
    Shape.eventBridgeEvent.part? "detail" v = some event.detail := by
  obtain ⟨-, -, -, -, -, -, -, -, hdetail, -⟩ := Shape.decodes_spelled rfl h
  obtain ⟨w, hw, ⟨⟩⟩ := hdetail.find?_required
  exact hw

theorem Shape.part?_records {name : String} {s : Shape} {v : Json} {records : List s.Carrier}
    (h : (Shape.batch name s).unwrap name (.value v) = .ok (records, ())) :
    ∃ vs, (Shape.batch name s).part? "Records" v = some (.arr vs) ∧
      List.Forall₂ (fun v r => s.ofJson v = .ok r) vs records := by
  obtain ⟨hrecords, -⟩ := @Shape.decodes_spelled name
    (.cons (.required "Records") (.sequence s) .nil) rfl v _ (Shape.unwrap_value_ok_iff.mp h)
  obtain ⟨w, hw, hs⟩ := hrecords.find?_required
  cases w with
  | arr vs => exact ⟨vs,hw,mapM_ok_iff.mp hs⟩
  | _ => cases hs

theorem GatewayRequest.part?_body {v : Json} {request : GatewayRequest} {body : String}
    (h : Shape.gatewayRequest.ofJson v = .ok request) (hbody : request.body = some body) :
    Shape.gatewayRequest.part? "body" v = some (.str body) := by
  obtain ⟨-, -, -, -, -, -, -, hfound, -⟩ := Shape.decodes_spelled rfl h
  have hpresent : request.body ≠ none := by simp [hbody]
  obtain ⟨w, hw, hread⟩ := hfound.find?_name rfl (.inr hpresent)
  by_cases hnull : w = .null
  · subst hnull
    exact absurd (Except.ok.inj hread).symm hpresent
  · rw [Shape.ofJson_optional hnull] at hread
    obtain ⟨t, ht, hsome⟩ := bind_ok_iff.mp hread
    obtain rfl : t = body := Option.some.inj ((Except.ok.inj hsome).trans hbody)
    rw [← Shape.ofJson_text ht]
    exact hw

/-! ## Every source -/

namespace Envelope

variable {v : Json} {r : Parsed Payload}

theorem sqs_yields (h : sqs.extract (.value v) = .ok r) : Source.sqs.Yields Shape.part? v r := by
  obtain ⟨⟨records, ⟨⟩⟩, hevent, -⟩ := bind_ok_iff.mp h
  obtain ⟨-, rfl⟩ := (sqs_extract_ok_iff hevent).mp h
  obtain ⟨vs, hvs, hrecords⟩ := Shape.part?_records hevent
  refine ⟨vs,_,hvs,List.forall₂_map_right_iff.mpr (hrecords.imp fun _ _ hr => ?_),rfl⟩
  exact .sqs (SqsRecord.part?_body hr)

theorem sns_yields (h : sns.extract (.value v) = .ok r) : Source.sns.Yields Shape.part? v r := by
  obtain ⟨⟨records, ⟨⟩⟩, hevent, -⟩ := bind_ok_iff.mp h
  obtain ⟨-, rfl⟩ := (sns_extract_ok_iff hevent).mp h
  obtain ⟨vs, hvs, hrecords⟩ := Shape.part?_records hevent
  refine ⟨vs,_,hvs,List.forall₂_map_right_iff.mpr (hrecords.imp fun _ _ hr => ?_),rfl⟩
  obtain ⟨n, hn, hnotification⟩ := SnsRecord.part?_notification hr
  exact .sns hn (SnsNotification.part?_message hnotification)

theorem snsSqs_yields (h : snsSqs.extract (.value v) = .ok r) :
    Source.snsSqs.Yields Shape.part? v r := by
  obtain ⟨⟨records, ⟨⟩⟩, hevent, -⟩ := bind_ok_iff.mp h
  obtain ⟨-, ns, hns, rfl⟩ := (snsSqs_extract_ok_iff hevent).mp h
  obtain ⟨vs, hvs, hrecords⟩ := Shape.part?_records hevent
  have hboth := forall₂_comp_iff.mp ⟨records,hrecords,hns⟩
  refine ⟨vs,_,hvs,List.forall₂_map_right_iff.mpr (hboth.imp fun _ _ hr => ?_),rfl⟩
  obtain ⟨record, hr, hn⟩ := hr
  exact .snsSqs (SqsRecord.part?_body hr) (Shape.unwrap_text_ok_iff.mp (orInvalid_ok_iff.mpr hn))

theorem kinesis_yields (h : kinesis.extract (.value v) = .ok r) :
    Source.kinesis.Yields Shape.part? v r := by
  obtain ⟨⟨records, ⟨⟩⟩, hevent, -⟩ := bind_ok_iff.mp h
  obtain ⟨-, texts, htexts, rfl⟩ := (kinesis_extract_ok_iff hevent).mp h
  obtain ⟨vs, hvs, hrecords⟩ := Shape.part?_records hevent
  have hboth := forall₂_comp_iff.mp ⟨records,hrecords,htexts⟩
  refine ⟨vs,_,hvs,List.forall₂_map_right_iff.mpr (hboth.imp fun _ _ hr => ?_),rfl⟩
  obtain ⟨record, hr, ht⟩ := hr
  obtain ⟨p, hp, hpayload⟩ := KinesisRecord.part?_payload hr
  exact .kinesis hp (KinesisPayload.part?_data hpayload) ht

theorem eventBridge_yields (h : eventBridge.extract (.value v) = .ok r) :
    Source.eventBridge.Yields Shape.part? v r := by
  obtain ⟨_, ⟨⟩, h⟩ := bind_ok_iff.mp h
  split at h
  · cases h
  · obtain ⟨event, hevent, ⟨⟩⟩ := bind_ok_iff.mp h
    exact ⟨_,EventBridgeEvent.part?_detail (Shape.unwrap_value_ok_iff.mp hevent),rfl⟩

theorem apiGateway_yields (h : apiGateway.extract (.value v) = .ok r) :
    Source.apiGateway.Yields Shape.part? v r := by
  obtain ⟨request, hrequest, h⟩ := bind_ok_iff.mp h
  have hread := Shape.unwrap_value_ok_iff.mp hrequest
  split at h
  next body hbody =>
    cases h
    exact ⟨body,GatewayRequest.part?_body hread hbody,rfl⟩
  next => cases h

end Envelope

theorem Source.extract_yields (s : Source) {v : Json} {r : Parsed Payload}
    (h : s.envelope.extract (.value v) = .ok r) : s.Yields Shape.part? v r :=
  match s with
  | .eventBridge => Envelope.eventBridge_yields h
  | .sqs => Envelope.sqs_yields h
  | .sns => Envelope.sns_yields h
  | .snsSqs => Envelope.snsSqs_yields h
  | .kinesis => Envelope.kinesis_yields h
  | .apiGateway => Envelope.apiGateway_yields h

/-! ## Events in objects -/

theorem Shape.keyed_record {name : String} {s : Shape} {v r : Json} {records : List Json}
    (h : (Shape.batch name s).keyed v) (hrecords : v.get? "Records" = some (.arr records))
    (hr : r ∈ records) : s.keyed r := by
  have hall : records.all (fun r => s.keyed r) = true := keyedAt_of_get? h hrecords
  exact List.all_eq_true.mp hall r hr

theorem Shape.get?_of_part? {name field : String} {strict : Bool} {fs : Fields} {v x : Json}
    (h : (Shape.record name strict fs).keyed v)
    (hx : (Shape.record name strict fs).part? field v = some x) : v.get? field = some x :=
  (part?_of_keyed h).symm.trans hx

namespace Source

variable {s : Source} {v : Json}

theorem Carries.keyed {r : Json} {q : Payload} {records : List Json} (h : s.eventShape.keyed v)
    (hrecords : v.get? "Records" = some (.arr records)) (hr : r ∈ records)
    (hq : Carries Shape.part? s r q) : Carries (fun _ => Json.get?) s r q := by
  cases hq with
  | sqs hbody =>
    have hrecord : Shape.sqsRecord.keyed r := Shape.keyed_record h hrecords hr
    exact .sqs (Shape.get?_of_part? hrecord hbody)
  | sns hn hmessage =>
    have hrecord : Shape.snsRecord.keyed r := Shape.keyed_record h hrecords hr
    have hsns := Shape.get?_of_part? hrecord hn
    exact .sns hsns (Shape.get?_of_part? (Shape.keyedAt_of_get? hrecord hsns) hmessage)
  | snsSqs hbody hn =>
    have hrecord : Shape.sqsRecord.keyed r := Shape.keyed_record h hrecords hr
    exact .snsSqs (Shape.get?_of_part? hrecord hbody) hn
  | kinesis hp hdata ht =>
    have hrecord : Shape.kinesisRecord.keyed r := Shape.keyed_record h hrecords hr
    have hkinesis := Shape.get?_of_part? hrecord hp
    exact .kinesis hkinesis (Shape.get?_of_part? (Shape.keyedAt_of_get? hrecord hkinesis) hdata) ht

theorem Yields.keyed {r : Parsed Payload} (h : s.eventShape.keyed v)
    (hr : s.Yields Shape.part? v r) :
    v.isObject ∧ s.Yields (fun _ => Json.get?) v r := by
  cases s with
  | eventBridge =>
    obtain ⟨detail, hdetail, rfl⟩ := hr
    have hmember := Shape.get?_of_part? h hdetail
    exact ⟨Json.isObject_of_get? hmember,detail,hmember,rfl⟩
  | apiGateway =>
    obtain ⟨body, hbody, rfl⟩ := hr
    have hmember := Shape.get?_of_part? h hbody
    exact ⟨Json.isObject_of_get? hmember,body,hmember,rfl⟩
  | _ =>
    obtain ⟨records, qs, hrecords, hqs, rfl⟩ := hr
    have hmember := Shape.get?_of_part? h hrecords
    have hmem := (List.forall₂_and_left ..).mpr ⟨fun r (hr : r ∈ records) => hr,hqs⟩
    have hcarried := hmem.imp fun _ _ hq => Carries.keyed h hmember hq.1 hq.2
    exact ⟨Json.isObject_of_get? hmember,records,qs,hmember,hcarried,rfl⟩

end Source

/-- What is refused is refused as invalid, and what is yielded is what stands in the documented
place. Where the event and its records are objects, that is their member of the documented name. -/
theorem Source.extract_documented (s : Source) (v : Json) :
    (∀ err, s.envelope.extract (.value v) = .error err → ∃ e, err = .invalid e) ∧
    ∀ r, s.envelope.extract (.value v) = .ok r →
      s.Yields Shape.part? v r ∧
      (s.eventShape.keyed v → v.isObject ∧ s.Yields (fun _ => Json.get?) v r) := by
  refine ⟨s.honest _,fun r h => ?_⟩
  have hyields := s.extract_yields h
  exact ⟨hyields,fun hkeyed => hyields.keyed hkeyed⟩

theorem noticeWith_documented :
    Source.sns.envelope.extract (.value (noticeWith [])) = .ok (.many [.text "ready"]) ∧
    Source.sns.eventShape.keyed (noticeWith []) = true ∧
    (noticeWith []).isObject ∧
    Source.sns.Yields (fun _ => Json.get?) (noticeWith []) (.many [.text "ready"]) ∧
    ∃ e, Source.sns.envelope.extract (.value .null) = .error (.invalid e) := by
  have hnotice := (Source.sns.extract_documented (noticeWith [])).2 _ rfl
  obtain ⟨e, he⟩ := (Source.sns.extract_documented .null).1 _ rfl
  exact ⟨rfl,rfl,(hnotice.2 rfl).1,(hnotice.2 rfl).2,e,congrArg Except.error he⟩

def listedBusEvent : Json :=
  .arr [.str "0", .str "e-1", .str "com.shop", .str "111122223333", .str "2024-03-18T21:41:09Z",
    .str "eu-west-1", .arr [], .str "OrderPlaced", .obj [("id", .num (.int 1))]]

def listedMessage : Json :=
  .obj [("Records", .arr [.arr [.str "m-1", .str "r-1", .str "ready", .obj [], .obj [],
    .str "0a1b", .str "aws:sqs", .str "arn:aws:sqs:eu-west-1:111122223333:orders",
    .str "eu-west-1"]])]

/-- Two events that are no objects and a record that is none are accepted. -/
theorem listed_accepted :
    Source.eventBridge.envelope.extract (.value listedBusEvent) =
      .ok (.single (.value (.obj [("id", .num (.int 1))]))) ∧
    listedBusEvent.isObject = false ∧
    Source.sqs.envelope.extract (.value (.arr [.arr []])) = .ok (.many []) ∧
    (Json.arr [.arr []]).isObject = false ∧
    Source.sqs.envelope.extract (.value listedMessage) = .ok (.many [.text "ready"]) ∧
    ¬∃ records, listedMessage.get? "Records" = some (.arr records) ∧
      ∀ r ∈ records, r.isObject := by
  refine ⟨rfl,rfl,rfl,rfl,rfl,?_⟩
  rintro ⟨records, hrecords, hobjects⟩
  cases hrecords
  exact absurd (hobjects _ List.mem_cons_self) Bool.false_ne_true

end Unseal
