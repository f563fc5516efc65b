import Unseal.Proofs.Base64
import Unseal.Proofs.Utf8
import Unseal.Proofs.Chain.Event
import Unseal.Proofs.Record.Agreement
import Unseal.Proofs.Wrapping.Layer

/-!
# Unwrapping one layer

From the event of a node an envelope takes payloads that read as the children, in their order,
provided that what was written as text is legible.
-/

set_option autoImplicit false

namespace Unseal

open Json (Legible)

/-- The payloads that an envelope takes from an event read as `vs`. -/
def Envelope.Yields (e : Envelope) (p : Payload) (vs : List Json) : Prop :=
  ∃ r, e.extract p = .ok r ∧ List.Forall₂ (fun q v => q.toJson = .ok v) r.toList vs

/-- A payload that reads as the value: the value itself, or the text of one reread as it. -/
inductive Payload.Presents : Payload → Json → Prop
  | value (v : Json) : Presents (.value v) v
  | text {v : Json} : Legible Json.depthLimit v → Presents (.text v.compact) v.reread

theorem Payload.Presents.toJson {p : Payload} {v : Json} (h : p.Presents v) : p.toJson = .ok v := by
  cases h with
  | value => rfl
  | text hv => exact hv.read_compact

theorem Payload.Presents.unwrap {p : Payload} {v : Json} (h : p.Presents v) {s : Shape}
    {name : String} {x : s.Carrier} (hx : s.ofJson v = .ok x) : s.unwrap name p = .ok x := by
  cases h with
  | value => exact Shape.unwrap_value_ok_iff.mpr hx
  | text hv =>
    rw [Shape.unwrap_text_ok_iff, Shape.readText_ok_iff hv.spells hv.distinct, hv.normal_eq]
    exact hx

theorem eachRecord_map_ok {α β γ ε : Type} {f : Nat → α → Except ε β} {xs : List γ} {g : γ → α}
    {h : γ → β} (hf : ∀ i, ∀ x ∈ xs, f i (g x) = .ok (h x)) :
    eachRecord (xs.map g) f = .ok (xs.map h) := by
  rw [eachRecord]
  generalize 0 = i
  induction xs generalizing i with
  | nil => rfl
  | cons x xs ih =>
    have hx := hf i x List.mem_cons_self
    have hxs := ih (fun j y hy => hf j y (List.mem_cons_of_mem x hy)) (i + 1)
    rw [List.map_cons, eachFrom, hx, hxs]
    rfl

theorem checkSource_self (model path source : String) :
    checkSource model path source source = .ok () := if_pos rfl

theorem checkSources_ok {α γ : Type} {xs : List γ} {record : γ → α} {source : α → String}
    {model expected : String} {path : Nat → String}
    (h : ∀ x ∈ xs, source (record x) = expected) :
    (discard <| eachRecord (xs.map record) fun i r =>
      checkSource model (path i) (source r) expected) = (.ok () : Except ParseError Unit) := by
  rw [eachRecord_map_ok (h := fun _ => ()) fun i x hx => h x hx ▸ checkSource_self ..]
  rfl

theorem forall₂_texts {α : Type} {xs : List α} {text : α → String} {value : α → Json}
    (h : ∀ x ∈ xs, text x = (value x).compact ∧ Legible Json.depthLimit (value x)) :
    List.Forall₂ (fun q v => q.toJson = .ok v) (xs.map fun x => Payload.text (text x))
      ((xs.map value).map Json.reread) := by
  rw [List.map_map, List.forall₂_map_left_iff, List.forall₂_map_right_iff, List.forall₂_same]
  intro x hx
  obtain ⟨htext, hv⟩ := h x hx
  rw [htext]
  exact (Payload.Presents.text hv).toJson

variable {p : Payload}

theorem yields_sqs {b : Batch} {records : List (Message × Json)}
    (hp : p.Presents (Node.sqs b records).event)
    (h : ∀ v ∈ (Node.sqs b records).texts, Legible Json.depthLimit v) :
    Envelope.sqs.Yields p ((Node.sqs b records).children.map Json.reread) := by
  choose g hg using fun m : Message × Json => m.1.ofJson_message m.2.compact
  have hevent : Shape.sqsEvent.ofJson (Node.sqs b records).event = .ok (records.map g, ()) :=
    b.ofJson_batch fun m _ => (hg m).1
  have hsources : SqsEvent.checkSources (records.map g, ()) = .ok () :=
    checkSources_ok fun m _ => (hg m).2.2
  refine ⟨.many ((records.map g).map fun r => .text r.body),?_,?_⟩
  · change (Shape.sqsEvent.unwrap "SqsEvent" _ >>= _) = _
    rw [hp.unwrap hevent]
    change (SqsEvent.checkSources (records.map g, ()) >>= _) = _
    rw [hsources]
    rfl
  · rw [Parsed.toList, List.map_map]
    exact forall₂_texts fun m hm => ⟨(hg m).2.1,h m.2 (List.mem_map_of_mem hm)⟩

theorem yields_sns {b : Batch} {records : List (Delivery × Notice × Json)}
    (hp : p.Presents (Node.sns b records).event)
    (h : ∀ v ∈ (Node.sns b records).texts, Legible Json.depthLimit v) :
    Envelope.sns.Yields p ((Node.sns b records).children.map Json.reread) := by
  choose n hn using fun m : Delivery × Notice × Json => m.2.1.ofJson_notice m.2.2.compact
  choose g hg using fun m : Delivery × Notice × Json => m.1.ofJson_delivery (hn m).1
  have hevent : Shape.snsEvent.ofJson (Node.sns b records).event = .ok (records.map g, ()) :=
    b.ofJson_batch fun m _ => (hg m).1
  refine ⟨.many ((records.map g).map fun r => .text r.notification.message),?_,?_⟩
  · change (Shape.snsEvent.unwrap "SnsEvent" _ >>= _) = _
    rw [hp.unwrap hevent]
    change (discard (eachRecord (records.map g) _) >>= _) = _
    rw [checkSources_ok fun m _ => (hg m).2.2]
    rfl
  · rw [Parsed.toList, List.map_map]
    refine forall₂_texts fun m hm => ⟨?_,h m.2.2 (List.mem_map_of_mem hm)⟩
    simp [(hg m).2.1, (hn m).2]

theorem yields_snsSqs {b : Batch} {records : List (Message × Notice × Json)}
    (hp : p.Presents (Node.snsSqs b records).event)
    (h : ∀ v ∈ (Node.snsSqs b records).texts, Legible Json.depthLimit v) :
    Envelope.snsSqs.Yields p ((Node.snsSqs b records).children.map Json.reread) := by
  choose n hn using fun m : Message × Notice × Json =>
    (m.2.1.reread rfl).ofJson_notice m.2.2.compact
  choose g hg using fun m : Message × Notice × Json =>
    m.1.ofJson_message (m.2.1.notice m.2.2.compact).compact
  have htexts : ∀ m ∈ records, Legible Json.depthLimit m.2.2 ∧
      Legible Json.depthLimit (m.2.1.notice m.2.2.compact) := by
    intro m hm
    exact ⟨h _ (List.mem_flatMap.mpr ⟨m,hm,by simp⟩),h _ (List.mem_flatMap.mpr ⟨m,hm,by simp⟩)⟩
  have hevent : Shape.sqsEvent.ofJson (Node.snsSqs b records).event = .ok (records.map g, ()) :=
    b.ofJson_batch fun m _ => (hg m).1
  have hsources : SqsEvent.checkSources (records.map g, ()) = .ok () :=
    checkSources_ok fun m _ => (hg m).2.2
  have hmessages : (records.map g).mapM Envelope.snsMessage =
      .ok (records.map fun m => .text m.2.2.compact) := by
    apply Traversal.mapM_map_ok
    intro m hm
    change (Shape.snsNotification.unwrap "SnsNotification" (.text (g m).body) >>= _) = _
    have hnotice := Payload.Presents.text (htexts m hm).2
    rw [Metadata.reread_notice] at hnotice
    rw [(hg m).2.1, hnotice.unwrap (hn m).1]
    exact congrArg (fun t => Except.ok (Payload.text t)) (hn m).2
  refine ⟨.many (records.map fun m => .text m.2.2.compact),?_,?_⟩
  · change (Shape.sqsEvent.unwrap "SqsEvent" _ >>= _) = _
    rw [hp.unwrap hevent]
    change (SqsEvent.checkSources (records.map g, ()) >>= _) = _
    rw [hsources]
    change ((records.map g).mapM Envelope.snsMessage >>= _) = _
    rw [hmessages]
    rfl
  · exact forall₂_texts fun m hm => ⟨rfl,(htexts m hm).1⟩

theorem encode_base64Text (t : String) :
    Utf8.encode (base64Text t).toList = Base64.encode (Utf8.encode t.toList) := by
  rw [base64Text, String.toList_ofList, Utf8.encode_ascii (Base64.lt_of_mem_encode _)]

theorem decodeData_base64Text (t : String) : decodeData (base64Text t) = .ok t := by
  rw [decodeData, encode_base64Text, Base64.decode_encode]
  simp [Utf8.decode_encode]

theorem kinesisData_ok {r : KinesisRecord} {t : String} (i : Nat)
    (hsource : r.eventSource = "aws:kinesis") (hdata : r.payload.data = base64Text t) :
    Envelope.kinesisData i r = .ok (.text t) := by
  unfold Envelope.kinesisData
  rw [hsource, checkSource_self, hdata, decodeData_base64Text]
  rfl

theorem yields_kinesis {b : Batch} {records : List (Streamed × Chunk × Json)}
    (hp : p.Presents (Node.kinesis b records).event)
    (h : ∀ v ∈ (Node.kinesis b records).texts, Legible Json.depthLimit v) :
    Envelope.kinesis.Yields p ((Node.kinesis b records).children.map Json.reread) := by
  choose c hc using fun m : Streamed × Chunk × Json => m.2.1.ofJson_chunk (base64Text m.2.2.compact)
  choose g hg using fun m : Streamed × Chunk × Json => m.1.ofJson_streamed (hc m).1
  have hevent : Shape.kinesisEvent.ofJson (Node.kinesis b records).event =
      .ok (records.map g, ()) := b.ofJson_batch fun m _ => (hg m).1
  have hpayloads : eachRecord (records.map g) Envelope.kinesisData =
      .ok (records.map fun m => .text m.2.2.compact) := by
    refine eachRecord_map_ok fun i m _ => kinesisData_ok i (hg m).2.2 ?_
    rw [(hg m).2.1, (hc m).2]
  refine ⟨.many (records.map fun m => .text m.2.2.compact),?_,?_⟩
  · change (Shape.kinesisEvent.unwrap "KinesisDataStreamEvent" _ >>= _) = _
    rw [hp.unwrap hevent]
    change (eachRecord (records.map g) Envelope.kinesisData >>= _) = _
    rw [hpayloads]
    rfl
  · exact forall₂_texts fun m hm => ⟨rfl,h m.2.2 (List.mem_map_of_mem hm)⟩

theorem yields_eventBridge {d : Metadata Metadata.busEvent ["detail"]} {v : Json}
    (hp : p.Presents (d.busNews v)) : Envelope.eventBridge.Yields p [v] := by
  obtain ⟨e, he, hdetail⟩ := d.ofJson_busNews v
  have hsome : (d.busNews v).get? "detail" = some v :=
    d.find?_object rfl (by decide) (List.mem_singleton.mpr rfl)
  refine ⟨.single (.value v),?_,.cons rfl .nil⟩
  unfold Envelope.eventBridge
  simp only [hp.toJson, orInvalid, bind, Except.bind, hsome, Option.isNone_some, Bool.and_false,
    Bool.false_eq_true, if_false, (Payload.Presents.value _).unwrap he, hdetail]

theorem yields_apiGateway {d : Metadata Metadata.gatewayRequest ["body"]} {v : Json}
    (hp : p.Presents (d.request v.compact)) (h : Legible Json.depthLimit v) :
    Envelope.apiGateway.Yields p [v.reread] := by
  obtain ⟨r, hr, hbody⟩ := d.ofJson_request v.compact
  refine ⟨.single (.text v.compact),?_,.cons (Payload.Presents.text h).toJson .nil⟩
  unfold Envelope.apiGateway
  simp only [hp.unwrap hr, bind, Except.bind, hbody]

theorem toPayload_placed {f : Field} {v : Json} (h : f.serialized → Legible Json.depthLimit v) :
    (f.toPayload (placed f.serialized v)).toJson = .ok (if f.serialized then v.reread else v) := by
  cases hs : f.serialized with
  | true => simpa [placed, Field.toPayload, hs] using (Payload.Presents.text (h hs)).toJson
  | false => cases v <;> simp [placed, Field.toPayload, hs, Payload.toJson]

section Field

variable {key : String} {d : Metadata .nil [key]} {serialized : Bool}

theorem resolve_object (hkey : IsKey key) (x : Json) :
    Json.Pointer.resolve (Field.pointerOf key) (d.object [(key, x)]) = some x := by
  have hkeys : Members.keys [(key, x)] = [key] := rfl
  rw [Metadata.object, Json.mkObj, Field.resolve_pointerOf hkey]
  exact d.find?_object hkeys (List.pairwise_singleton _ key) (List.mem_singleton.mpr rfl)

theorem yields_one (name : String) (hkey : IsKey key) {v : Json}
    (hp : p.Presents (d.object [(key, placed serialized v)]))
    (h : serialized → Legible Json.depthLimit v) :
    (Field.ofPlace name key false serialized).envelope.Yields p
      [if serialized then v.reread else v] := by
  refine ⟨.single ((Field.ofPlace name key false serialized).toPayload (placed serialized v)),
    ?_,.cons (toPayload_placed h) .nil⟩
  simp [Field.envelope, Field.extract, hp.toJson, Field.ofPlace, resolve_object hkey]

theorem yields_each (name : String) (hkey : IsKey key) {vs : List Json}
    (hp : p.Presents (d.object [(key, .arr (vs.map (placed serialized)))]))
    (h : serialized → ∀ v ∈ vs, Legible Json.depthLimit v) :
    (Field.ofPlace name key true serialized).envelope.Yields p
      (vs.map fun v => if serialized then v.reread else v) := by
  refine ⟨.many ((vs.map (placed serialized)).map
    (Field.ofPlace name key true serialized).toPayload),?_,?_⟩
  · simp [Field.envelope, Field.extract, hp.toJson, Field.ofPlace, resolve_object hkey]
  · rw [Parsed.toList, List.map_map, List.forall₂_map_left_iff, List.forall₂_map_right_iff,
      List.forall₂_same]
    exact fun v hv => toPayload_placed fun hs => h hs v hv

end Field

theorem Node.yields {ℓ : Layer} (n : Node Json ℓ) (hp : p.Presents n.event)
    (h : ∀ v ∈ n.texts, Legible Json.depthLimit v) :
    ℓ.envelope.Yields p (if ℓ.writes then n.children.map Json.reread else n.children) := by
  cases n with
  | sqs => exact yields_sqs hp h
  | sns => exact yields_sns hp h
  | snsSqs => exact yields_snsSqs hp h
  | kinesis => exact yields_kinesis hp h
  | eventBridge => exact yields_eventBridge hp
  | apiGateway => exact yields_apiGateway hp (h _ (List.mem_singleton.mpr rfl))
  | @one name _ isKey serialized _ v =>
    have hone := yields_one name isKey hp fun hs => h v (by simp [texts, hs])
    cases serialized <;> exact hone
  | @each name _ isKey serialized _ vs =>
    have heach := yields_each name isKey hp fun hs v hv => h v (by simpa [texts, hs])
    cases serialized <;> simpa [Layer.envelope, Layer.writes, children] using heach

end Unseal
