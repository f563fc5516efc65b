import Unseal.Envelope.Named
import Unseal.Proofs.Record.Reread

/-!
# Metadata of records

What a source puts into a record besides the payload: members of its own choice, in any order
and with any further ones, as long as each field of the metadata finds a value of its type. The
fields are listed here as the sources document them, not taken from the shapes that are read.
-/

set_option autoImplicit false

namespace Unseal

namespace Metadata

def queueRecord : Fields :=
  .cons (.required "messageId") .text <|
  .cons (.required "receiptHandle") .text <|
  .cons (.defaulted "attributes") (.dictionary .text) <|
  .cons (.defaulted "messageAttributes") (.dictionary .any) <|
  .cons (.required "md5OfBody") .text <|
  .cons (.required "eventSourceARN") .text <|
  .cons (.required "awsRegion") .text .nil

def notification : Fields :=
  .cons (.required "Type") .text <|
  .cons (.required "MessageId") .text <|
  .cons (.required "TopicArn") .text <|
  .cons (.defaulted "Subject") (.optional .text) <|
  .cons (.required "Timestamp") .instant <|
  .cons (.defaulted "MessageAttributes") (.dictionary .any) <|
  .cons (.defaulted "SignatureVersion") (.optional .text) <|
  .cons (.defaulted "Signature") (.optional .text) <|
  .cons ⟨"SigningCertUrl", ["SigningCertURL"], .defaulted⟩ (.optional .text) <|
  .cons ⟨"UnsubscribeUrl", ["UnsubscribeURL"], .defaulted⟩ (.optional .text) .nil

def topicRecord : Fields :=
  .cons (.required "EventVersion") .text <|
  .cons (.required "EventSubscriptionArn") .text .nil

def streamPayload : Fields :=
  .cons (.required "kinesisSchemaVersion") .text <|
  .cons (.required "partitionKey") .text <|
  .cons (.required "sequenceNumber") .text <|
  .cons (.required "approximateArrivalTimestamp") .real .nil

def streamRecord : Fields :=
  .cons (.required "eventID") .text <|
  .cons (.required "eventName") .text <|
  .cons (.required "eventVersion") .text <|
  .cons (.required "eventSourceARN") .text <|
  .cons (.required "awsRegion") .text .nil

def busEvent : Fields :=
  .cons (.required "version") .text <|
  .cons (.required "id") .text <|
  .cons (.required "source") .text <|
  .cons (.required "account") .text <|
  .cons (.required "time") .instant <|
  .cons (.required "region") .text <|
  .cons (.required "resources") (.sequence .text) <|
  .cons (.required "detail-type") .text <|
  .cons ⟨"replay-name", [], .sparse⟩ (.optional .text) .nil

def gatewayRequest : Fields :=
  .cons (.defaulted "resource") (.optional .text) <|
  .cons (.required "path") .text <|
  .cons (.required "httpMethod") .text <|
  .cons (.defaulted "headers") (.optional (.dictionary .text)) <|
  .cons (.defaulted "queryStringParameters") (.optional (.dictionary .text)) <|
  .cons (.defaulted "pathParameters") (.optional (.dictionary .text)) <|
  .cons (.defaulted "requestContext") (.optional .any) <|
  .cons (.defaulted "isBase64Encoded") .flag .nil

end Metadata

/-- Members with a value of its type for every field of `fs`, and none under the keys that are
to be filled. -/
structure Metadata (fs : Fields) (filled : List String) where
  members : List (String × Json)
  nodup : (Members.keys members).Nodup
  typed : ∃ x, fs.Decodes members x
  free : ∀ key ∈ filled, key ∉ Members.keys members

namespace Metadata

variable {fs : Fields} {filled : List String}

/-- The object of the metadata and the members that are filled in. -/
def object (d : Metadata fs filled) (ms : List (String × Json)) : Json :=
  .mkObj (ms ++ d.members)

theorem keys_nodup (d : Metadata fs filled) {ms : List (String × Json)}
    (hkeys : Members.keys ms = filled) (hnodup : filled.Nodup) :
    (Members.keys (ms ++ d.members)).Nodup := by
  subst hkeys
  rw [Members.keys, List.map_append]
  refine List.nodup_append.mpr ⟨hnodup,d.nodup,?_⟩
  rintro a ha b hb rfl
  exact d.free a ha hb

theorem ofJson_object (d : Metadata fs filled) {ms : List (String × Json)}
    (hkeys : Members.keys ms = filled) (hnodup : filled.Nodup) {name : String} {record : Fields}
    (hsep : record.separate) {x : record.Carrier} (h : record.Decodes (ms ++ d.members) x) :
    (Shape.record name false record).ofJson (d.object ms) = .ok x := by
  have hperm := (Members.ofList_perm (d.keys_nodup hkeys hnodup)).symm
  exact (Shape.ofJson_object_iff hsep).mpr (h.perm hperm)

theorem finds (d : Metadata fs filled) {k : Key} (halias : k.aliases = []) (hk : k.name ∈ filled)
    {ms : List (String × Json)} {v : Json} {s : Shape} {x : s.Carrier}
    (hm : (ms.filter fun m => k.answers m.1) = [(k.name, v)]) (hv : s.ofJson v = .ok x) :
    k.Finds s (ms ++ d.members) x := by
  refine Key.finds_of_filter hm ?_ hv
  intro m hmem
  have hne : m.1 ≠ k.name := by
    rintro heq
    exact d.free k.name hk (heq ▸ List.mem_map_of_mem hmem)
  simp [Key.answers, halias, hne]

theorem find?_object (d : Metadata fs filled) {ms : List (String × Json)}
    (hkeys : Members.keys ms = filled) (hnodup : filled.Nodup) {key : String} {v : Json}
    (hm : (key, v) ∈ ms) : (d.object ms).get? key = some v :=
  Members.find?_ofList (d.keys_nodup hkeys hnodup) (List.mem_append_left _ hm)

def reread (d : Metadata fs filled) (h : fs.plain) : Metadata fs filled where
  members := Json.rereadMembers d.members
  nodup := Json.keys_rereadMembers d.members ▸ d.nodup
  typed := d.typed.elim fun _ hx => hx.reread h
  free := Json.keys_rereadMembers d.members ▸ d.free

theorem reread_object (d : Metadata fs filled) (h : fs.plain) (ms : List (String × Json)) :
    (d.object ms).reread = (d.reread h).object (Json.rereadMembers ms) := by
  have hmap : Json.rereadMembers ms ++ Json.rereadMembers d.members =
      (ms ++ d.members).map fun m => (m.1, m.2.reread) := by
    simp [Json.rereadMembers_eq_map]
  rw [object, object, reread, hmap, Json.mkObj, Json.mkObj, Members.ofList_map, Json.reread,
    Json.rereadMembers_eq_map]

/-! ## The records -/

/-- A field that nothing is filled in for keeps the value of the metadata. -/
theorem kept {k : Key} {s : Shape} {x : s.Carrier} {d : Metadata fs filled}
    (h : k.Finds s d.members x) {ms : List (String × Json)}
    (hm : ms.all fun m => !k.answers m.1) : k.Finds s (ms ++ d.members) x :=
  h.append (by simpa using hm)

def message (d : Metadata queueRecord ["body", "eventSource"]) (body : String) : Json :=
  d.object [("body", .str body), ("eventSource", .str "aws:sqs")]

theorem ofJson_message (d : Metadata queueRecord ["body", "eventSource"]) (body : String) :
    ∃ r : SqsRecord, Shape.sqsRecord.ofJson (d.message body) = .ok r ∧ r.body = body ∧
      r.eventSource = "aws:sqs" := by
  obtain ⟨⟨id, receipt, attributes, more, md5, arn, region, ⟨⟩⟩, h₁, h₂, h₃, h₄, h₅, h₆, h₇, -⟩ :=
    d.typed
  refine ⟨(id, receipt, body, attributes, more, md5, "aws:sqs", arn, region, ()),
    d.ofJson_object rfl (by decide) (by decide) ?_,rfl,rfl⟩
  exact ⟨kept h₁ rfl,kept h₂ rfl,d.finds rfl (by decide) rfl rfl,kept h₃ rfl,kept h₄ rfl,
    kept h₅ rfl,d.finds rfl (by decide) rfl rfl,kept h₆ rfl,kept h₇ rfl,trivial⟩

def notice (d : Metadata notification ["Message"]) (message : String) : Json :=
  d.object [("Message", .str message)]

theorem ofJson_notice (d : Metadata notification ["Message"]) (message : String) :
    ∃ n : SnsNotification, Shape.snsNotification.ofJson (d.notice message) = .ok n ∧
      n.message = message := by
  obtain ⟨⟨type, id, topic, subject, time, attributes, version, signature, cert, unsubscribe, ⟨⟩⟩,
    h₁, h₂, h₃, h₄, h₅, h₆, h₇, h₈, h₉, h₁₀, -⟩ := d.typed
  refine ⟨(type, id, topic, subject, message, time, attributes, version, signature, cert,
    unsubscribe, ()),d.ofJson_object rfl (by decide) (by decide) ?_,rfl⟩
  exact ⟨kept h₁ rfl,kept h₂ rfl,kept h₃ rfl,kept h₄ rfl,d.finds rfl (by decide) rfl rfl,
    kept h₅ rfl,kept h₆ rfl,kept h₇ rfl,kept h₈ rfl,kept h₉ rfl,kept h₁₀ rfl,trivial⟩

def delivery (d : Metadata topicRecord ["EventSource", "Sns"]) (notice : Json) : Json :=
  d.object [("EventSource", .str "aws:sns"), ("Sns", notice)]

theorem ofJson_delivery (d : Metadata topicRecord ["EventSource", "Sns"]) {notice : Json}
    {n : SnsNotification} (hn : Shape.snsNotification.ofJson notice = .ok n) :
    ∃ r : SnsRecord, Shape.snsRecord.ofJson (d.delivery notice) = .ok r ∧ r.notification = n ∧
      r.eventSource = "aws:sns" := by
  obtain ⟨⟨version, subscription, ⟨⟩⟩, h₁, h₂, -⟩ := d.typed
  refine ⟨("aws:sns", version, subscription, n, ()),
    d.ofJson_object rfl (by decide) (by decide) ?_,rfl,rfl⟩
  exact ⟨d.finds rfl (by decide) rfl rfl,kept h₁ rfl,kept h₂ rfl,d.finds rfl (by decide) rfl hn,
    trivial⟩

def chunk (d : Metadata streamPayload ["data"]) (data : String) : Json :=
  d.object [("data", .str data)]

theorem ofJson_chunk (d : Metadata streamPayload ["data"]) (data : String) :
    ∃ p : KinesisPayload, Shape.kinesisPayload.ofJson (d.chunk data) = .ok p ∧ p.data = data := by
  obtain ⟨⟨version, key, number, time, ⟨⟩⟩, h₁, h₂, h₃, h₄, -⟩ := d.typed
  refine ⟨(version, key, number, data, time, ()),
    d.ofJson_object rfl (by decide) (by decide) ?_,rfl⟩
  exact ⟨kept h₁ rfl,kept h₂ rfl,kept h₃ rfl,d.finds rfl (by decide) rfl rfl,kept h₄ rfl,trivial⟩

def streamed (d : Metadata streamRecord ["eventSource", "kinesis"]) (chunk : Json) : Json :=
  d.object [("eventSource", .str "aws:kinesis"), ("kinesis", chunk)]

theorem ofJson_streamed (d : Metadata streamRecord ["eventSource", "kinesis"]) {chunk : Json}
    {p : KinesisPayload} (hp : Shape.kinesisPayload.ofJson chunk = .ok p) :
    ∃ r : KinesisRecord, Shape.kinesisRecord.ofJson (d.streamed chunk) = .ok r ∧ r.payload = p ∧
      r.eventSource = "aws:kinesis" := by
  obtain ⟨⟨id, name, version, arn, region, ⟨⟩⟩, h₁, h₂, h₃, h₄, h₅, -⟩ := d.typed
  refine ⟨("aws:kinesis", id, name, version, arn, region, p, ()),
    d.ofJson_object rfl (by decide) (by decide) ?_,rfl,rfl⟩
  exact ⟨d.finds rfl (by decide) rfl rfl,kept h₁ rfl,kept h₂ rfl,kept h₃ rfl,kept h₄ rfl,
    kept h₅ rfl,d.finds rfl (by decide) rfl hp,trivial⟩

def busNews (d : Metadata busEvent ["detail"]) (detail : Json) : Json :=
  d.object [("detail", detail)]

theorem ofJson_busNews (d : Metadata busEvent ["detail"]) (detail : Json) :
    ∃ e : EventBridgeEvent, Shape.eventBridgeEvent.ofJson (d.busNews detail) = .ok e ∧
      e.detail = detail := by
  obtain ⟨⟨version, id, source, account, time, region, resources, type, replay, ⟨⟩⟩,
    h₁, h₂, h₃, h₄, h₅, h₆, h₇, h₈, h₉, -⟩ := d.typed
  refine ⟨(version, id, source, account, time, region, resources, type, detail, replay, ()),
    d.ofJson_object rfl (by decide) (by decide) ?_,rfl⟩
  exact ⟨kept h₁ rfl,kept h₂ rfl,kept h₃ rfl,kept h₄ rfl,kept h₅ rfl,kept h₆ rfl,kept h₇ rfl,
    kept h₈ rfl,d.finds rfl (by decide) rfl rfl,kept h₉ rfl,trivial⟩

def request (d : Metadata gatewayRequest ["body"]) (body : String) : Json :=
  d.object [("body", .str body)]

theorem ofJson_request (d : Metadata gatewayRequest ["body"]) (body : String) :
    ∃ r : GatewayRequest, Shape.gatewayRequest.ofJson (d.request body) = .ok r ∧
      r.body = some body := by
  obtain ⟨⟨resource, path, method, headers, query, parameters, context, encoded, ⟨⟩⟩,
    h₁, h₂, h₃, h₄, h₅, h₆, h₇, h₈, -⟩ := d.typed
  refine ⟨(resource, path, method, headers, query, parameters, context, some body, encoded, ()),
    d.ofJson_object rfl (by decide) (by decide) ?_,rfl⟩
  exact ⟨kept h₁ rfl,kept h₂ rfl,kept h₃ rfl,kept h₄ rfl,kept h₅ rfl,kept h₆ rfl,kept h₇ rfl,
    d.finds rfl (by decide) rfl rfl,kept h₈ rfl,trivial⟩

def batch (d : Metadata .nil ["Records"]) (records : List Json) : Json :=
  d.object [("Records", .arr records)]

theorem ofJson_batch (d : Metadata .nil ["Records"]) {name : String} {s : Shape} {α : Type}
    {records : List α} {f : α → Json} {g : α → s.Carrier}
    (h : ∀ r ∈ records, s.ofJson (f r) = .ok (g r)) :
    (Shape.record name false (.cons (.required "Records") (.sequence s) .nil)).ofJson
      (d.batch (records.map f)) = .ok (records.map g, ()) := by
  have hlist : (Shape.sequence s).ofJson (.arr (records.map f)) = .ok (records.map g) :=
    Traversal.mapM_map_ok h
  exact d.ofJson_object rfl (by decide) rfl ⟨d.finds rfl (by decide) rfl hlist,trivial⟩

/-! ## Records reread -/

theorem reread_message (d : Metadata queueRecord ["body", "eventSource"]) (body : String) :
    (d.message body).reread = (d.reread rfl).message body := d.reread_object rfl _

theorem reread_notice (d : Metadata notification ["Message"]) (message : String) :
    (d.notice message).reread = (d.reread rfl).notice message := d.reread_object rfl _

theorem reread_delivery (d : Metadata topicRecord ["EventSource", "Sns"]) (notice : Json) :
    (d.delivery notice).reread = (d.reread rfl).delivery notice.reread := d.reread_object rfl _

theorem reread_chunk (d : Metadata streamPayload ["data"]) (data : String) :
    (d.chunk data).reread = (d.reread rfl).chunk data := d.reread_object rfl _

theorem reread_streamed (d : Metadata streamRecord ["eventSource", "kinesis"]) (chunk : Json) :
    (d.streamed chunk).reread = (d.reread rfl).streamed chunk.reread := d.reread_object rfl _

theorem reread_busNews (d : Metadata busEvent ["detail"]) (detail : Json) :
    (d.busNews detail).reread = (d.reread rfl).busNews detail.reread := d.reread_object rfl _

theorem reread_request (d : Metadata gatewayRequest ["body"]) (body : String) :
    (d.request body).reread = (d.reread rfl).request body := d.reread_object rfl _

theorem reread_batch (d : Metadata .nil ["Records"]) (records : List Json) :
    (d.batch records).reread = (d.reread rfl).batch (records.map Json.reread) := by
  rw [← Json.rereadItems_eq_map]
  exact d.reread_object rfl _

end Metadata
end Unseal
