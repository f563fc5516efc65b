import Unseal.Envelope.Field
import Unseal.Envelope.Kinesis
import Unseal.Envelope.Sns
import Unseal.Proofs.Chain.Event
import Unseal.Proofs.Chain.Stages
import Unseal.Proofs.Json.Frame
import Unseal.Proofs.Record.Lookup

/-!
# Batches

An envelope that reads a batch takes one payload from every record, whatever the other records
are. So two batches in one event yield what they yield in an event each, and the rest of the
chain keeps that, since its stages are additive in the working set.
-/

set_option autoImplicit false

namespace Unseal

open Traversal

/-! ## Chains behind a batch -/

/-- What the payloads of an envelope come to in the rest of the chain. -/
def Opens {α : Type} (m : Model α) : List Envelope → List Payload → List α → Prop
  | [], qs, zs => List.Forall₂ (fun q z => m.checkPayload q = .ok z) qs zs
  | e :: es, qs, zs => ∃ values, List.Forall₂ (fun q v => q.toJson = .ok v) qs values ∧
      (∀ v ∈ values, v.isObject) ∧ Chain.run m (values.map .value) (e :: es) = .ok zs

section
variable {α : Type} {m : Model α}

theorem parseChain_ok_iff_opens {e : Envelope} {es : List Envelope} {p : Payload} {zs : List α} :
    parseChain m (e :: es) p = .ok zs ↔ ∃ r, e.extract p = .ok r ∧ Opens m es r.toList zs := by
  cases es with
  | nil =>
    rw [parseChain, Chain.run, Chain.lastStage_eq_collect, collect_singleton, parseWith_ok_iff]
    rfl
  | cons e' es =>
    rw [parseChain, Chain.run_cons_cons, Chain.stage_eq_collect, bind_ok_iff]
    simp only [collect_singleton, Chain.unwrapEvent_ok_iff, Opens]
    constructor
    · rintro ⟨_, ⟨r, values, hr, hv, ho, rfl⟩, h⟩
      exact ⟨r,hr,values,hv,ho,h⟩
    · rintro ⟨r, hr, values, hv, ho, h⟩
      exact ⟨_,⟨r,values,hr,hv,ho,rfl⟩,h⟩

theorem opens_append {es : List Envelope} {ps qs : List Payload} {zs : List α} :
    Opens m es (ps ++ qs) zs ↔
      ∃ xs ys, Opens m es ps xs ∧ Opens m es qs ys ∧ xs ++ ys = zs := by
  cases es with
  | nil => exact forall₂_append_iff
  | cons e es =>
    simp only [Opens, forall₂_append_iff]
    constructor
    · rintro ⟨_, ⟨us, vs, hu, hv, rfl⟩, ho, h⟩
      obtain ⟨hou, hov⟩ := List.forall_mem_append.mp ho
      rw [List.map_append, Chain.run_events_append] at h
      obtain ⟨xs, ys, hx, hy, rfl⟩ := h
      exact ⟨xs,ys,⟨us,hu,hou,hx⟩,⟨vs,hv,hov,hy⟩,rfl⟩
    · rintro ⟨xs, ys, ⟨us, hu, hou, hx⟩, ⟨vs, hv, hov, hy⟩, rfl⟩
      refine ⟨us ++ vs,⟨us,vs,hu,hv,rfl⟩,List.forall_mem_append.mpr ⟨hou,hov⟩,?_⟩
      rw [List.map_append, Chain.run_events_append]
      exact ⟨xs,ys,hx,hy,rfl⟩

end

/-- From an event around an array the envelope takes a payload for each element on its own,
unless what is around the array is unacceptable. -/
def Envelope.ReadsEach (e : Envelope) (event : List Json → Payload) : Prop :=
  ∃ (acceptable : Prop) (takes : Json → Payload → Prop), ∀ vs r, e.extract (event vs) = .ok r ↔
    acceptable ∧ ∃ qs, List.Forall₂ takes vs qs ∧ r = .many qs

theorem Envelope.ReadsEach.parseChain_append {α : Type} {m : Model α} {e : Envelope}
    {event : List Json → Payload} (h : e.ReadsEach event) (es : List Envelope) (as bs : List Json)
    (zs : List α) :
    parseChain m (e :: es) (event (as ++ bs)) = .ok zs ↔
      ∃ xs ys, parseChain m (e :: es) (event as) = .ok xs ∧
        parseChain m (e :: es) (event bs) = .ok ys ∧ xs ++ ys = zs := by
  obtain ⟨acceptable, takes, hextract⟩ := h
  simp only [parseChain_ok_iff_opens, hextract, forall₂_append_iff]
  constructor
  · rintro ⟨_, ⟨ha, _, ⟨ps, qs, hp, hq, rfl⟩, rfl⟩, h⟩
    obtain ⟨xs, ys, hx, hy, rfl⟩ := opens_append.mp h
    exact ⟨xs,ys,⟨_,⟨ha,ps,hp,rfl⟩,hx⟩,⟨_,⟨ha,qs,hq,rfl⟩,hy⟩,rfl⟩
  · rintro ⟨xs, ys, ⟨_, ⟨ha, ps, hp, rfl⟩, hx⟩, ⟨_, ⟨_, qs, hq, rfl⟩, hy⟩, rfl⟩
    exact ⟨_,⟨ha,_,⟨ps,qs,hp,hq,rfl⟩,rfl⟩,opens_append.mpr ⟨xs,ys,hx,hy,rfl⟩⟩

/-! ## Events of records -/

def Shape.batch (name : String) (s : Shape) : Shape :=
  .record name false (.cons (.required "Records") (.sequence s) .nil)

/-- Records are read one by one, provided that there is no second list of them. -/
theorem Shape.ofJson_batch_iff {name : String} {s : Shape} (frame : Json.Frame ["Records"]) :
    ∃ alone : Prop, ∀ (vs : List Json) (records : List s.Carrier),
      (Shape.batch name s).ofJson (frame.fill (.arr vs)) = .ok (records, ()) ↔
        alone ∧ List.Forall₂ (fun v r => s.ofJson v = .ok r) vs records := by
  cases frame with
  | item before token index inner after => cases index
  | member before key fresh inner after =>
    cases inner with
    | here =>
      have hbefore : (before.filter fun m => (Key.required "Records").answers m.1) = [] := by
        rw [List.filter_eq_nil_iff]
        intro m hm hanswers
        apply fresh
        have hkey : m.1 = "Records" := by simpa [Key.answers, Key.required] using hanswers
        exact hkey ▸ List.mem_map_of_mem hm
      refine ⟨(after.filter fun m => (Key.required "Records").answers m.1) = [],?_⟩
      intro vs records
      apply (@Shape.ofJson_object_iff name (.cons (.required "Records") (.sequence s) .nil) rfl
        _ (records, ())).trans
      show (Key.required "Records").Finds (.sequence s) (before ++ ("Records", .arr vs) :: after)
        records ∧ True ↔ _
      rw [and_true]
      unfold Key.Finds
      rw [List.filter_append, hbefore, List.nil_append, List.filter_cons_of_pos rfl]
      cases after.filter fun m => (Key.required "Records").answers m.1 with
      | nil => exact mapM_ok_iff.trans (and_iff_right rfl).symm
      | cons m ms => simp

theorem Envelope.readsEach_records {e : Envelope} {name : String} {s : Shape}
    {takes : s.Carrier → Payload → Prop}
    (h : ∀ v r, e.extract (.value v) = .ok r ↔ ∃ records,
      (Shape.batch name s).ofJson v = .ok (records, ()) ∧
        ∃ qs, List.Forall₂ takes records qs ∧ r = .many qs)
    (frame : Json.Frame ["Records"]) : e.ReadsEach fun vs => .value (frame.fill (.arr vs)) := by
  obtain ⟨alone, hrecords⟩ := @Shape.ofJson_batch_iff name s frame
  refine ⟨alone,fun v q => ∃ r, s.ofJson v = .ok r ∧ takes r q,?_⟩
  intro vs r
  rw [h]
  constructor
  · rintro ⟨records, hbatch, qs, hqs, rfl⟩
    obtain ⟨ha, hvs⟩ := (hrecords vs records).mp hbatch
    exact ⟨ha,qs,forall₂_comp_iff.mp ⟨records,hvs,hqs⟩,rfl⟩
  · rintro ⟨ha, qs, hqs, rfl⟩
    obtain ⟨records, hvs, hqs⟩ := forall₂_comp_iff.mpr hqs
    exact ⟨records,(hrecords vs records).mpr ⟨ha,hvs⟩,qs,hqs,rfl⟩

theorem checkSource_ok_iff {model path actual expected : String} :
    checkSource model path actual expected = .ok () ↔ actual = expected := by
  unfold checkSource
  split
  next h => simp [h]
  next h => simp [h]

theorem eachRecord_ok_iff {α β ε : Type} {f : Nat → α → Except ε β} {R : α → β → Prop}
    (h : ∀ i x y, f i x = .ok y ↔ R x y) {xs : List α} {ys : List β} :
    eachRecord xs f = .ok ys ↔ List.Forall₂ R xs ys := by
  rw [eachRecord]
  generalize 0 = i
  induction xs generalizing i ys with
  | nil => cases ys <;> simp [eachFrom]
  | cons x xs ih =>
    rw [eachFrom, bind_ok_iff]
    simp only [bind_ok_iff, h, ih]
    constructor
    · rintro ⟨y, hy, zs, hzs, ⟨⟩⟩
      exact .cons hy hzs
    · intro h
      cases h with
      | cons hy hys => exact ⟨_,hy,_,hys,rfl⟩

theorem discard_ok_iff {ε β : Type} {x : Except ε β} :
    (discard x : Except ε Unit) = .ok () ↔ ∃ y, x = .ok y := by
  cases x with
  | error e => exact iff_of_false nofun nofun
  | ok y => exact iff_of_true rfl ⟨y,rfl⟩

/-- The sources of all records are checked before anything is taken out. -/
theorem checkSources_ok_iff {α : Type} {records : List α} {source : α → String}
    {model expected : String} {path : Nat → String} :
    (discard <| eachRecord records fun i r =>
      checkSource model (path i) (source r) expected) = .ok () ↔
      ∀ r ∈ records, source r = expected := by
  have hcheck : ∀ i r y, checkSource model (path i) (source r) expected = .ok y ↔
      source r = expected ∧ y = (fun _ => ()) r :=
    fun i r y => checkSource_ok_iff.trans (and_iff_left rfl).symm
  rw [discard_ok_iff]
  constructor
  · rintro ⟨ys, hys⟩
    exact (forall₂_function_iff.mp ((eachRecord_ok_iff hcheck).mp hys)).1
  · intro hall
    exact ⟨_,(eachRecord_ok_iff hcheck).mpr (forall₂_function_iff.mpr ⟨hall,rfl⟩)⟩

/-! ## The batch envelopes -/

section
variable (frame : Json.Frame ["Records"])

theorem readsEach_checked {e : Envelope} {name expected : String} {s : Shape}
    {source body : s.Carrier → String} {path : Nat → String}
    (h : ∀ v, e.extract (.value v) = (Shape.batch name s).unwrap name (.value v) >>= fun event =>
      (discard <| eachRecord event.1 fun i r => checkSource name (path i) (source r) expected) >>=
        fun _ => .ok (.many (event.1.map fun r => .text (body r)))) :
    e.ReadsEach fun vs => .value (frame.fill (.arr vs)) := by
  refine @Envelope.readsEach_records e name s
    (fun r q => source r = expected ∧ q = .text (body r)) ?_ frame
  intro v r
  rw [h]
  simp only [bind_ok_iff, Shape.unwrap_value_ok_iff]
  constructor
  · rintro ⟨⟨records, ⟨⟩⟩, hevent, ⟨⟩, hsources, ⟨⟩⟩
    exact ⟨records,hevent,_,forall₂_function_iff.mpr ⟨checkSources_ok_iff.mp hsources,rfl⟩,rfl⟩
  · rintro ⟨records, hevent, qs, hqs, rfl⟩
    obtain ⟨hsources, rfl⟩ := forall₂_function_iff.mp hqs
    exact ⟨(records, ()),hevent,(),checkSources_ok_iff.mpr hsources,rfl⟩

theorem sqs_readsEach : Envelope.sqs.ReadsEach fun vs => .value (frame.fill (.arr vs)) :=
  readsEach_checked (s := .sqsRecord) frame fun _ => rfl

theorem sns_readsEach : Envelope.sns.ReadsEach fun vs => .value (frame.fill (.arr vs)) :=
  readsEach_checked (s := .snsRecord) frame fun _ => rfl

theorem snsSqs_readsEach : Envelope.snsSqs.ReadsEach fun vs => .value (frame.fill (.arr vs)) := by
  refine @Envelope.readsEach_records _ "SqsEvent" .sqsRecord
    (fun (r : SqsRecord) q => r.eventSource = "aws:sqs" ∧ Envelope.snsMessage r = .ok q) ?_ frame
  intro v r
  show (Shape.sqsEvent.unwrap "SqsEvent" (.value v) >>= fun event : SqsEvent =>
    event.checkSources >>= fun _ => event.records.mapM Envelope.snsMessage >>= fun messages =>
      Except.ok (.many messages)) = .ok r ↔ _
  simp only [bind_ok_iff, Shape.unwrap_value_ok_iff, mapM_ok_iff]
  constructor
  · rintro ⟨⟨records, ⟨⟩⟩, hevent, ⟨⟩, hsources, messages, hmessages, ⟨⟩⟩
    refine ⟨records,hevent,messages,?_,rfl⟩
    exact (List.forall₂_and_left ..).mpr ⟨checkSources_ok_iff.mp hsources,hmessages⟩
  · rintro ⟨records, hevent, messages, hqs, rfl⟩
    obtain ⟨hsources, hmessages⟩ := (List.forall₂_and_left ..).mp hqs
    exact ⟨(records, ()),hevent,(),checkSources_ok_iff.mpr hsources,messages,hmessages,rfl⟩

theorem kinesisData_ok_iff (i : Nat) (r : KinesisRecord) (q : Payload) :
    Envelope.kinesisData i r = .ok q ↔
      r.eventSource = "aws:kinesis" ∧ ∃ t, decodeData r.payload.data = .ok t ∧ q = .text t := by
  unfold Envelope.kinesisData
  rw [bind_ok_iff]
  cases hdata : decodeData r.payload.data with
  | error f => simp
  | ok t =>
    constructor
    · rintro ⟨⟨⟩, hsource, ⟨⟩⟩
      exact ⟨checkSource_ok_iff.mp hsource,t,rfl,rfl⟩
    · rintro ⟨hsource, _, ⟨⟩, rfl⟩
      exact ⟨(),checkSource_ok_iff.mpr hsource,rfl⟩

theorem kinesis_readsEach : Envelope.kinesis.ReadsEach fun vs => .value (frame.fill (.arr vs)) := by
  refine @Envelope.readsEach_records _ "KinesisDataStreamEvent" .kinesisRecord
    (fun (r : KinesisRecord) q =>
      r.eventSource = "aws:kinesis" ∧ ∃ t, decodeData r.payload.data = .ok t ∧ q = .text t) ?_ frame
  intro v r
  show (Shape.kinesisEvent.unwrap "KinesisDataStreamEvent" (.value v) >>=
    fun event : KinesisEvent => eachRecord event.records Envelope.kinesisData >>= fun payloads =>
      Except.ok (.many payloads)) = .ok r ↔ _
  simp only [bind_ok_iff, Shape.unwrap_value_ok_iff]
  constructor
  · rintro ⟨⟨records, ⟨⟩⟩, hevent, payloads, hpayloads, ⟨⟩⟩
    exact ⟨records,hevent,payloads,(eachRecord_ok_iff kinesisData_ok_iff).mp hpayloads,rfl⟩
  · rintro ⟨records, hevent, payloads, hpayloads, rfl⟩
    exact ⟨(records, ()),hevent,payloads,(eachRecord_ok_iff kinesisData_ok_iff).mpr hpayloads,rfl⟩

end

theorem Field.readsEach {f : Field} (heach : f.each = true) {path : List String}
    (hpath : Json.Pointer.tokens? f.pointer.toList = some path) (frame : Json.Frame path) :
    f.envelope.ReadsEach fun vs => .value (frame.fill (.arr vs)) := by
  refine ⟨True,fun v q => True ∧ q = f.toPayload v,?_⟩
  intro vs r
  have hresolve : Json.Pointer.resolve f.pointer (frame.fill (.arr vs)) = some (.arr vs) := by
    rw [Json.Pointer.resolve, hpath]
    exact frame.walk_fill _
  simp only [forall₂_function_iff]
  simp [Field.envelope, Field.extract, Payload.toJson, hresolve, heach, eq_comm]

inductive BatchReader where
  | sqs | sns | snsSqs | kinesis
  | field (f : Field) (each : f.each = true) (path : List String)
      (pointer : Json.Pointer.tokens? f.pointer.toList = some path)

namespace BatchReader

def envelope : BatchReader → Envelope
  | sqs => .sqs
  | sns => .sns
  | snsSqs => .snsSqs
  | kinesis => .kinesis
  | field f _ _ _ => f.envelope

def path : BatchReader → List String
  | field _ _ path _ => path
  | _ => ["Records"]

theorem readsEach : (b : BatchReader) → (event : Json.Frame b.path) →
    b.envelope.ReadsEach fun records => .value (event.fill (.arr records))
  | sqs, event => sqs_readsEach event
  | sns, event => sns_readsEach event
  | snsSqs, event => snsSqs_readsEach event
  | kinesis, event => kinesis_readsEach event
  | field _ each _ pointer, event => Field.readsEach each pointer event

/-- Two batches in one event yield what they yield in two events that are otherwise the same, and
fail if one of them does. -/
theorem parseChain_batch {α : Type} (m : Model α) (b : BatchReader) (es : List Envelope)
    (event : Json.Frame b.path) (as bs : List Json) :
    (∀ zs, parseChain m (b.envelope :: es) (.value (event.fill (.arr (as ++ bs)))) = .ok zs ↔
      ∃ xs ys, parseChain m (b.envelope :: es) (.value (event.fill (.arr as))) = .ok xs ∧
        parseChain m (b.envelope :: es) (.value (event.fill (.arr bs))) = .ok ys ∧
        zs = xs ++ ys) ∧
    ((∃ err, parseChain m (b.envelope :: es) (.value (event.fill (.arr (as ++ bs)))) =
        .error err) ↔
      (∃ err, parseChain m (b.envelope :: es) (.value (event.fill (.arr as))) = .error err) ∨
        ∃ err, parseChain m (b.envelope :: es) (.value (event.fill (.arr bs))) = .error err) := by
  have happend := (b.readsEach event).parseChain_append (m := m) es as bs
  constructor
  · intro zs
    simp only [happend, eq_comm]
  · simp only [exists_error_iff, happend]
    rw [← not_and_or, not_iff_not]
    constructor
    · rintro ⟨_, xs, ys, hxs, hys, _⟩
      exact ⟨⟨xs,hxs⟩,⟨ys,hys⟩⟩
    · rintro ⟨⟨xs, hxs⟩, ⟨ys, hys⟩⟩
      exact ⟨_,xs,ys,hxs,hys,rfl⟩

def message (source body : String) : Json :=
  .mkObj [("messageId", .str "m"), ("receiptHandle", .str "r"), ("body", .str body),
    ("md5OfBody", .str "d"), ("eventSource", .str source), ("eventSourceARN", .str "a"),
    ("awsRegion", .str "eu-west-1")]

def queue : Json.Frame sqs.path :=
  .member [("origin", .str "eu")] "Records" (by decide) .here [("sent", .bool true)]

def shelf : BatchReader :=
  .field (.ofPlace "shelf" "/shelves/1" true false) rfl ["shelves", "1"] rfl

def store : Json.Frame shelf.path :=
  .member [("town", .str "Bergen")] "shelves" (by decide)
    (.item [.arr []] "1" rfl .here [.null]) [("open", .bool false)]

def good (id : String) : Json := .mkObj [("id", .str id)]

def idField : Envelope := (Field.ofPlace "id" "id" false false).envelope

theorem halved_batches :
    (parseChain (Shape.any.model "Value") [sqs.envelope]
        (.value (queue.fill (.arr ([message "aws:sqs" "1"] ++ [message "aws:sqs" "true"])))) =
          .ok [.num (.int 1), .bool true] ∧
      ∃ err, parseChain (Shape.any.model "Value") [sqs.envelope]
        (.value (queue.fill (.arr ([message "aws:sqs" "1"] ++ [message "aws:s3" "true"])))) =
          .error err) ∧
    parseChain (Shape.any.model "Value") [shelf.envelope, idField]
        (.value (store.fill (.arr ([good "nut"] ++ [good "bolt"])))) =
          .ok [.str "nut", .str "bolt"] ∧
      ∃ err, parseChain (Shape.any.model "Value") [shelf.envelope, idField]
        (.value (store.fill (.arr ([.str "nut"] ++ [good "bolt"])))) = .error err := by
  have hqueue := parseChain_batch (Shape.any.model "Value") sqs [] queue
  have hshelf := parseChain_batch (Shape.any.model "Value") shelf [idField] store
  constructor
  · exact ⟨((hqueue _ _).1 _).mpr ⟨[.num (.int 1)],[.bool true],rfl,rfl,rfl⟩,
      (hqueue _ _).2.mpr (.inr ⟨_,rfl⟩)⟩
  · exact ⟨((hshelf _ _).1 _).mpr ⟨[.str "nut"],[.str "bolt"],rfl,rfl,rfl⟩,
      (hshelf _ _).2.mpr (.inl ⟨_,rfl⟩)⟩

end BatchReader
end Unseal
