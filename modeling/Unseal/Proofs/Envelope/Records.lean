import Unseal.Proofs.Chain.Batch

/-!
# Which record is blamed

An envelope of a batch yields one payload for every record, or the fault of the first record that
does not pass what the envelope asks. How much it asks of a record before it turns to the next
decides which record that is: of a stream's records the source and the data together, of a queue's
all sources before any body.
-/

set_option autoImplicit false

namespace Unseal

open Traversal

/-! ## The first failure of a loop -/

/-- The element at an index is the first of a list that fails a condition. -/
structure FirstFailure {ρ : Type} (passes : ρ → Prop) (records : List ρ) (i : Nat) (r : ρ) :
    Prop where
  found : records[i]? = some r
  fails : ¬passes r
  least : ∀ j s, j < i → records[j]? = some s → passes s

section
variable {ρ β ε : Type} {passes : ρ → Prop} {records : List ρ} {r x : ρ} {i : Nat}

theorem firstFailure_zero_iff :
    FirstFailure passes (x :: records) 0 r ↔ r = x ∧ ¬passes x := by
  constructor
  · rintro ⟨hfound, hfails, -⟩
    cases hfound
    exact ⟨rfl,hfails⟩
  · rintro ⟨rfl, hfails⟩
    exact ⟨rfl,hfails,nofun⟩

theorem firstFailure_succ_iff :
    FirstFailure passes (x :: records) (i + 1) r ↔ passes x ∧ FirstFailure passes records i r := by
  constructor
  · rintro ⟨hfound, hfails, hleast⟩
    refine ⟨hleast 0 x (Nat.succ_pos i) rfl,hfound,hfails,fun j s hj hs => ?_⟩
    exact hleast (j + 1) s (Nat.succ_lt_succ hj) hs
  · rintro ⟨hx, hfound, hfails, hleast⟩
    refine ⟨hfound,hfails,fun j s hj hs => ?_⟩
    cases j with
    | zero =>
      cases hs
      exact hx
    | succ j => exact hleast j s (Nat.lt_of_succ_lt_succ hj) hs

theorem firstFailure_congr {passes' : ρ → Prop} (h : ∀ r, passes r ↔ passes' r) :
    FirstFailure passes records i r ↔ FirstFailure passes' records i r :=
  iff_of_eq (congrArg (FirstFailure · records i r) (funext fun s => propext (h s)))

/-- A loop fails with the fault of the first element that fails, under the index it has there. -/
theorem eachFrom_error_iff {f : Nat → ρ → Except ε β} (h : ∀ i r, (∃ y, f i r = .ok y) ↔ passes r)
    {n : Nat} {e : ε} :
    eachFrom f n records = .error e ↔
      ∃ i r, FirstFailure passes records i r ∧ f (n + i) r = .error e := by
  induction records generalizing n with
  | nil =>
    constructor
    · intro h
      cases h
    · rintro ⟨i, r, ⟨hfound, -, -⟩, -⟩
      simp at hfound
  | cons x records ih =>
    rw [eachFrom, bind_error_iff]
    constructor
    · rintro (hx | ⟨y, hy, hrest⟩)
      · have hfails : ¬passes x := by
          rw [← h n x, hx]
          rintro ⟨y, hy⟩
          cases hy
        exact ⟨0,x,firstFailure_zero_iff.mpr ⟨rfl,hfails⟩,hx⟩
      · rcases bind_error_iff.mp hrest with hrest | ⟨ys, -, ⟨⟩⟩
        obtain ⟨i, r, hfirst, hr⟩ := ih.mp hrest
        refine ⟨i + 1,r,firstFailure_succ_iff.mpr ⟨(h n x).mp ⟨y,hy⟩,hfirst⟩,?_⟩
        rwa [← Nat.add_right_comm, Nat.add_assoc] at hr
    · rintro ⟨i, r, hfirst, hr⟩
      cases i with
      | zero =>
        obtain ⟨rfl, -⟩ := firstFailure_zero_iff.mp hfirst
        exact .inl hr
      | succ i =>
        obtain ⟨hx, hfirst⟩ := firstFailure_succ_iff.mp hfirst
        obtain ⟨y, hy⟩ := (h n x).mpr hx
        rw [← Nat.add_assoc, Nat.add_right_comm] at hr
        exact .inr ⟨y,hy,bind_error_iff.mpr (.inl (ih.mpr ⟨i,r,hfirst,hr⟩))⟩

theorem eachRecord_error_iff {f : Nat → ρ → Except ε β}
    (h : ∀ i r, (∃ y, f i r = .ok y) ↔ passes r) {e : ε} :
    eachRecord records f = .error e ↔
      ∃ i r, FirstFailure passes records i r ∧ f i r = .error e := by
  rw [eachRecord]
  simpa only [Nat.zero_add] using eachFrom_error_iff h (n := 0)

theorem mapM_eq_eachFrom (f : ρ → Except ε β) (n : Nat) :
    records.mapM f = eachFrom (fun _ => f) n records := by
  induction records generalizing n with
  | nil => rfl
  | cons x records ih =>
    rw [List.mapM_cons, eachFrom, ih (n + 1)]
    rfl

theorem mapM_error_iff_first {f : ρ → Except ε β} {e : ε} :
    records.mapM f = .error e ↔
      ∃ i r, FirstFailure (fun r => ∃ y, f r = .ok y) records i r ∧ f r = .error e := by
  rw [mapM_eq_eachFrom f 0]
  exact eachFrom_error_iff (f := fun _ => f) fun _ _ => Iff.rfl

end

/-! ## Sources -/

def wrongSource (model path actual expected : String) : ParseError :=
  .invalid (.single model path
    ("expected event source '" ++ expected ++ "', found '" ++ actual ++ "'"))

theorem checkSource_error_iff {model path actual expected : String} {err : ParseError} :
    checkSource model path actual expected = .error err ↔
      actual ≠ expected ∧ err = wrongSource model path actual expected := by
  unfold checkSource
  split
  next h => simp [h]
  next h => simp [h, wrongSource, eq_comm]

def SourceFault {ρ : Type} (model field expected : String) (source : ρ → String)
    (records : List ρ) (err : ParseError) : Prop :=
  ∃ i r, FirstFailure (fun r => source r = expected) records i r ∧
    err = wrongSource model (recordPath i field) (source r) expected

theorem discard_error_iff {ε β : Type} {x : Except ε β} {e : ε} :
    (discard x : Except ε Unit) = .error e ↔ x = .error e := by
  cases x with
  | error e' =>
    show (Except.error e' : Except ε Unit) = .error e ↔ _
    simp only [Except.error.injEq]
  | ok y => exact iff_of_false nofun nofun

theorem checkSources_error_iff {ρ : Type} {records : List ρ} {source : ρ → String}
    {model field expected : String} {err : ParseError} :
    (discard <| eachRecord records fun i r =>
      checkSource model (recordPath i field) (source r) expected) = .error err ↔
      SourceFault model field expected source records err := by
  have hcheck : ∀ i r, (∃ y, checkSource model (recordPath i field) (source r) expected = .ok y) ↔
      source r = expected :=
    fun i r => ⟨fun ⟨_, h⟩ => checkSource_ok_iff.mp h,fun h => ⟨(),checkSource_ok_iff.mpr h⟩⟩
  rw [discard_error_iff, eachRecord_error_iff hcheck]
  refine exists_congr fun i => exists_congr fun r => and_congr_right fun hfirst => ?_
  rw [checkSource_error_iff]
  exact and_iff_right hfirst.fails

/-! ## Batches whose sources are checked first -/

section
variable {ρ : Type} {records : List ρ} {source : ρ → String} {model field expected : String}

theorem checked_ok_iff {next : Except ParseError (Parsed Payload)} {q : Parsed Payload} :
    ((discard <| eachRecord records fun i r =>
      checkSource model (recordPath i field) (source r) expected) >>= fun _ => next) = .ok q ↔
      (∀ r ∈ records, source r = expected) ∧ next = .ok q := by
  rw [bind_ok_iff]
  constructor
  · rintro ⟨⟨⟩, hsources, hnext⟩
    exact ⟨checkSources_ok_iff.mp hsources,hnext⟩
  · rintro ⟨hsources, hnext⟩
    exact ⟨(),checkSources_ok_iff.mpr hsources,hnext⟩

theorem checked_error_iff {next : Except ParseError (Parsed Payload)} {err : ParseError} :
    ((discard <| eachRecord records fun i r =>
      checkSource model (recordPath i field) (source r) expected) >>= fun _ => next) = .error err ↔
      SourceFault model field expected source records err ∨
        (∀ r ∈ records, source r = expected) ∧ next = .error err := by
  rw [bind_error_iff, checkSources_error_iff]
  refine or_congr_right ?_
  constructor
  · rintro ⟨⟨⟩, hsources, hnext⟩
    exact ⟨checkSources_ok_iff.mp hsources,hnext⟩
  · rintro ⟨hsources, hnext⟩
    exact ⟨(),checkSources_ok_iff.mpr hsources,hnext⟩

end

/-! ## Bodies and data -/

def SqsRecord.notification (r : SqsRecord) : Except ValidationError SnsNotification :=
  (Shape.snsNotification.model "SnsNotification").checkText r.body

def KinesisRecord.Decodes (r : KinesisRecord) : Prop :=
  r.eventSource = "aws:kinesis" ∧ ∃ t, decodeData r.payload.data = .ok t

inductive KinesisFault (records : List KinesisRecord) : ParseError → Prop
  | source {i : Nat} {r : KinesisRecord} :
      FirstFailure KinesisRecord.Decodes records i r → r.eventSource ≠ "aws:kinesis" →
      KinesisFault records (wrongSource "KinesisDataStreamEvent" (recordPath i "/eventSource")
        r.eventSource "aws:kinesis")
  | data {i : Nat} {r : KinesisRecord} {f : DataFault} :
      FirstFailure KinesisRecord.Decodes records i r → r.eventSource = "aws:kinesis" →
      decodeData r.payload.data = .error f →
      KinesisFault records (.invalid (.single "KinesisDataStreamEvent"
        (recordPath i "/kinesis/data") f.message))

/-- Why a batch of notifications in a queue is refused. No body counts while a source is wrong. -/
inductive SnsSqsFault (records : List SqsRecord) : ParseError → Prop
  | source {err : ParseError} :
      SourceFault "SqsEvent" "/eventSource" "aws:sqs" SqsRecord.eventSource records err →
      SnsSqsFault records err
  | body {i : Nat} {r : SqsRecord} {v : ValidationError} :
      (∀ s ∈ records, s.eventSource = "aws:sqs") →
      FirstFailure (fun s : SqsRecord => ∃ n, s.notification = .ok n) records i r →
      r.notification = .error v → SnsSqsFault records (.invalid v)

namespace Envelope

theorem snsMessage_eq (r : SqsRecord) :
    snsMessage r = orInvalid r.notification >>= fun n => .ok (.text n.message) := rfl

theorem snsMessage_ok_iff {r : SqsRecord} {q : Payload} :
    snsMessage r = .ok q ↔ ∃ n, r.notification = .ok n ∧ q = .text n.message := by
  simp only [snsMessage_eq, bind_ok_iff, orInvalid_ok_iff, Except.ok.injEq, @eq_comm _ q]

theorem exists_snsMessage_iff (r : SqsRecord) :
    (∃ q, snsMessage r = .ok q) ↔ ∃ n, r.notification = .ok n := by
  simp only [snsMessage_ok_iff]
  exact ⟨fun ⟨_, n, hn, _⟩ => ⟨n,hn⟩,fun ⟨n, hn⟩ => ⟨_,n,hn,rfl⟩⟩

theorem snsMessage_error_iff {r : SqsRecord} {err : ParseError} :
    snsMessage r = .error err ↔ ∃ v, r.notification = .error v ∧ err = .invalid v := by
  simp [snsMessage_eq, bind_error_iff, orInvalid_error_iff]

theorem kinesisData_error_iff {i : Nat} {r : KinesisRecord} {err : ParseError} :
    kinesisData i r = .error err ↔
      r.eventSource ≠ "aws:kinesis" ∧
        err = wrongSource "KinesisDataStreamEvent" (recordPath i "/eventSource") r.eventSource
          "aws:kinesis" ∨
      r.eventSource = "aws:kinesis" ∧ ∃ f, decodeData r.payload.data = .error f ∧
        err = .invalid (.single "KinesisDataStreamEvent" (recordPath i "/kinesis/data")
          f.message) := by
  unfold kinesisData
  rw [bind_error_iff, checkSource_error_iff]
  refine or_congr_right ?_
  cases decodeData r.payload.data with
  | error f =>
    constructor
    · rintro ⟨⟨⟩, hsource, ⟨⟩⟩
      exact ⟨checkSource_ok_iff.mp hsource,f,rfl,rfl⟩
    · rintro ⟨hsource, _, ⟨⟩, rfl⟩
      exact ⟨(),checkSource_ok_iff.mpr hsource,rfl⟩
  | ok t => simp

theorem exists_kinesisData_iff (i : Nat) (r : KinesisRecord) :
    (∃ q, kinesisData i r = .ok q) ↔ r.Decodes := by
  simp only [kinesisData_ok_iff, exists_and_left, KinesisRecord.Decodes]
  refine and_congr_right fun _ => ?_
  exact ⟨fun ⟨_, t, ht, _⟩ => ⟨t,ht⟩,fun ⟨t, ht⟩ => ⟨_,t,ht,rfl⟩⟩

variable {p : Payload} {q : Parsed Payload} {err : ParseError}

section
variable {event : SqsEvent} (h : Shape.sqsEvent.unwrap "SqsEvent" p = .ok event)
include h

theorem sqs_extract_ok_iff : sqs.extract p = .ok q ↔
    (∀ r ∈ event.records, r.eventSource = "aws:sqs") ∧
      q = .many (event.records.map fun r => .text r.body) := by
  show (Shape.sqsEvent.unwrap "SqsEvent" p >>= _) = _ ↔ _
  rw [h]
  exact checked_ok_iff.trans (and_congr_right fun _ => by rw [Except.ok.injEq, eq_comm])

theorem sqs_extract_error_iff : sqs.extract p = .error err ↔
    SourceFault "SqsEvent" "/eventSource" "aws:sqs" SqsRecord.eventSource event.records err := by
  show (Shape.sqsEvent.unwrap "SqsEvent" p >>= _) = _ ↔ _
  rw [h]
  exact checked_error_iff.trans (or_iff_left nofun)

theorem snsSqs_extract_ok_iff : snsSqs.extract p = .ok q ↔
    (∀ r ∈ event.records, r.eventSource = "aws:sqs") ∧
      ∃ ns, List.Forall₂ (fun r n => r.notification = .ok n) event.records ns ∧
        q = .many (ns.map fun n => .text n.message) := by
  show (Shape.sqsEvent.unwrap "SqsEvent" p >>= _) = _ ↔ _
  rw [h]
  refine checked_ok_iff.trans (and_congr_right fun _ => ?_)
  rw [bind_ok_iff]
  simp only [mapM_ok_iff, snsMessage_ok_iff, forall₂_exists_map_iff]
  constructor
  · rintro ⟨_, ⟨ns, hns, rfl⟩, ⟨⟩⟩
    exact ⟨ns,hns,rfl⟩
  · rintro ⟨ns, hns, rfl⟩
    exact ⟨_,⟨ns,hns,rfl⟩,rfl⟩

theorem snsSqs_extract_error_iff : snsSqs.extract p = .error err ↔
    SnsSqsFault event.records err := by
  show (Shape.sqsEvent.unwrap "SqsEvent" p >>= _) = _ ↔ _
  rw [h]
  refine checked_error_iff.trans ?_
  rw [bind_error_iff, mapM_error_iff_first]
  constructor
  · rintro (hsource | ⟨hsources, ⟨i, r, hfirst, hr⟩ | ⟨_, _, ⟨⟩⟩⟩)
    · exact .source hsource
    · obtain ⟨v, hv, rfl⟩ := snsMessage_error_iff.mp hr
      exact .body hsources ((firstFailure_congr exists_snsMessage_iff).mp hfirst) hv
  · rintro (hsource | ⟨hsources, hfirst, hv⟩)
    · exact .inl hsource
    · have hmessage := (firstFailure_congr exists_snsMessage_iff).mpr hfirst
      exact .inr ⟨hsources,.inl ⟨_,_,hmessage,snsMessage_error_iff.mpr ⟨_,hv,rfl⟩⟩⟩

end

section
variable {event : SnsEvent} (h : Shape.snsEvent.unwrap "SnsEvent" p = .ok event)
include h

theorem sns_extract_ok_iff : sns.extract p = .ok q ↔
    (∀ r ∈ event.records, r.eventSource = "aws:sns") ∧
      q = .many (event.records.map fun r => .text r.notification.message) := by
  show (Shape.snsEvent.unwrap "SnsEvent" p >>= _) = _ ↔ _
  rw [h]
  exact checked_ok_iff.trans (and_congr_right fun _ => by rw [Except.ok.injEq, eq_comm])

theorem sns_extract_error_iff : sns.extract p = .error err ↔
    SourceFault "SnsEvent" "/EventSource" "aws:sns" SnsRecord.eventSource event.records err := by
  show (Shape.snsEvent.unwrap "SnsEvent" p >>= _) = _ ↔ _
  rw [h]
  exact checked_error_iff.trans (or_iff_left nofun)

end

section
variable {event : KinesisEvent}
  (h : Shape.kinesisEvent.unwrap "KinesisDataStreamEvent" p = .ok event)
include h

theorem kinesis_extract_eq :
    kinesis.extract p = eachRecord event.records kinesisData >>= fun qs => .ok (.many qs) := by
  show (Shape.kinesisEvent.unwrap "KinesisDataStreamEvent" p >>= _) = _
  rw [h]
  rfl

theorem kinesis_extract_ok_iff : kinesis.extract p = .ok q ↔
    (∀ r ∈ event.records, r.eventSource = "aws:kinesis") ∧
      ∃ texts, List.Forall₂ (fun r t => decodeData r.payload.data = .ok t) event.records texts ∧
        q = .many (texts.map .text) := by
  rw [kinesis_extract_eq h, bind_ok_iff]
  simp only [eachRecord_ok_iff kinesisData_ok_iff, List.forall₂_and_left, forall₂_exists_map_iff]
  constructor
  · rintro ⟨_, ⟨hsources, texts, htexts, rfl⟩, ⟨⟩⟩
    exact ⟨hsources,texts,htexts,rfl⟩
  · rintro ⟨hsources, texts, htexts, rfl⟩
    exact ⟨_,⟨hsources,texts,htexts,rfl⟩,rfl⟩

theorem kinesis_extract_error_iff : kinesis.extract p = .error err ↔
    KinesisFault event.records err := by
  rw [kinesis_extract_eq h, bind_error_iff, eachRecord_error_iff exists_kinesisData_iff]
  simp only [kinesisData_error_iff]
  constructor
  · rintro (⟨i, r, hfirst, ⟨hsource, rfl⟩ | ⟨hsource, f, hf, rfl⟩⟩ | ⟨_, _, ⟨⟩⟩)
    · exact .source hfirst hsource
    · exact .data hfirst hsource hf
  · rintro (⟨hfirst, hsource⟩ | ⟨hfirst, hsource, hf⟩)
    · exact .inl ⟨_,_,hfirst,.inl ⟨hsource,rfl⟩⟩
    · exact .inl ⟨_,_,hfirst,.inr ⟨hsource,_,hf,rfl⟩⟩

end

/-- A batch whose event has its records yields one text for each of them, in their order, exactly
if every record passes. Otherwise the first record that fails is named: in a queue and in a topic
the first from elsewhere, in a stream the first from elsewhere or with data that cannot be decoded,
and among notifications in a queue the first from elsewhere, or if there is none the first whose
body is no notification. -/
theorem extract_batch (p : Payload) :
    (∀ event : SqsEvent, Shape.sqsEvent.unwrap "SqsEvent" p = .ok event →
      ((∀ q, sqs.extract p = .ok q ↔ (∀ r ∈ event.records, r.eventSource = "aws:sqs") ∧
          q = .many (event.records.map fun r => .text r.body)) ∧
        ∀ err, sqs.extract p = .error err ↔
          SourceFault "SqsEvent" "/eventSource" "aws:sqs" SqsRecord.eventSource
            event.records err) ∧
      (∀ q, snsSqs.extract p = .ok q ↔ (∀ r ∈ event.records, r.eventSource = "aws:sqs") ∧
          ∃ ns, List.Forall₂ (fun r n => r.notification = .ok n) event.records ns ∧
            q = .many (ns.map fun n => .text n.message)) ∧
        ∀ err, snsSqs.extract p = .error err ↔ SnsSqsFault event.records err) ∧
    (∀ event : SnsEvent, Shape.snsEvent.unwrap "SnsEvent" p = .ok event →
      (∀ q, sns.extract p = .ok q ↔ (∀ r ∈ event.records, r.eventSource = "aws:sns") ∧
          q = .many (event.records.map fun r => .text r.notification.message)) ∧
        ∀ err, sns.extract p = .error err ↔
          SourceFault "SnsEvent" "/EventSource" "aws:sns" SnsRecord.eventSource
            event.records err) ∧
    ∀ event : KinesisEvent, Shape.kinesisEvent.unwrap "KinesisDataStreamEvent" p = .ok event →
      (∀ q, kinesis.extract p = .ok q ↔ (∀ r ∈ event.records, r.eventSource = "aws:kinesis") ∧
          ∃ texts, List.Forall₂ (fun r t => decodeData r.payload.data = .ok t)
            event.records texts ∧ q = .many (texts.map .text)) ∧
        ∀ err, kinesis.extract p = .error err ↔ KinesisFault event.records err := by
  refine ⟨fun event h => ?_,fun event h => ?_,fun event h => ?_⟩
  · exact ⟨⟨fun q => sqs_extract_ok_iff h,fun err => sqs_extract_error_iff h⟩,
      fun q => snsSqs_extract_ok_iff h,fun err => snsSqs_extract_error_iff h⟩
  · exact ⟨fun q => sns_extract_ok_iff h,fun err => sns_extract_error_iff h⟩
  · exact ⟨fun q => kinesis_extract_ok_iff h,fun err => kinesis_extract_error_iff h⟩

def mixedQueue : Json :=
  .mkObj [("Records", .arr [message "\x7b" "aws:sqs", message "1" "aws:s3"])]
where
  message (body source : String) : Json :=
    .mkObj [("messageId", .str "m"), ("receiptHandle", .str "r"), ("body", .str body),
      ("md5OfBody", .str "d"), ("eventSource", .str source), ("eventSourceARN", .str "a"),
      ("awsRegion", .str "eu-west-1")]

def mixedMessages : List SqsRecord :=
  [message "\x7b" "aws:sqs", message "1" "aws:s3"]
where
  message (body source : String) : SqsRecord :=
    ("m", "r", body, [], [], "d", source, "a", "eu-west-1", ())

/-- Sound data, then data in no base64, then a record from elsewhere. -/
def mixedStream : Json :=
  .mkObj [("Records", .arr [record "MQ==" "aws:kinesis", record "%" "aws:kinesis",
    record "MQ==" "aws:s3"])]
where
  record (data source : String) : Json :=
    .mkObj [("eventSource", .str source), ("eventID", .str "i"), ("eventName", .str "n"),
      ("eventVersion", .str "1.0"), ("eventSourceARN", .str "a"), ("awsRegion", .str "eu-west-1"),
      ("kinesis", .mkObj [("kinesisSchemaVersion", .str "1.0"), ("partitionKey", .str "k"),
        ("sequenceNumber", .str "1"), ("data", .str data),
        ("approximateArrivalTimestamp", .num (.int 0))])]

def mixedRecords : List KinesisRecord :=
  [record "MQ==" "aws:kinesis", record "%" "aws:kinesis", record "MQ==" "aws:s3"]
where
  record (data source : String) : KinesisRecord :=
    (source, "i", "n", "1.0", "a", "eu-west-1", ("1.0", "k", "1", data, .ofInt 0, ()), ())

theorem mixed_extract :
    Shape.sqsEvent.unwrap "SqsEvent" (.value mixedQueue) = .ok (mixedMessages, ()) ∧
    snsSqs.extract (.value mixedQueue) =
      .error (wrongSource "SqsEvent" "/Records/1/eventSource" "aws:s3" "aws:sqs") ∧
    Shape.kinesisEvent.unwrap "KinesisDataStreamEvent" (.value mixedStream) =
      .ok (mixedRecords, ()) ∧
    kinesis.extract (.value mixedStream) =
      .error (.invalid (.single "KinesisDataStreamEvent" "/Records/1/kinesis/data"
        "record data is not valid base64: Invalid symbol 37, offset 0.")) := by
  have hqueue : Shape.sqsEvent.unwrap "SqsEvent" (.value mixedQueue) = .ok (mixedMessages, ()) :=
    rfl
  have hstream : Shape.kinesisEvent.unwrap "KinesisDataStreamEvent" (.value mixedStream) =
      .ok (mixedRecords, ()) := rfl
  refine ⟨hqueue,?_,hstream,?_⟩
  · have hfirst : FirstFailure (fun r : SqsRecord => r.eventSource = "aws:sqs") mixedMessages 1
        (mixedMessages.message "1" "aws:s3") :=
      firstFailure_succ_iff.mpr ⟨rfl,firstFailure_zero_iff.mpr ⟨rfl,by decide⟩⟩
    exact (((extract_batch _).1 _ hqueue).2.2 _).mpr (.source ⟨_,_,hfirst,rfl⟩)
  · have hsound : decodeData "MQ==" = .ok "1" := by decide +kernel
    have hbroken : decodeData "%" = .error (.base64 (.symbol 37 0)) := by decide +kernel
    have hmessage : (DataFault.base64 (.symbol 37 0)).message =
        "record data is not valid base64: Invalid symbol 37, offset 0." := by decide +kernel
    have hfirst : FirstFailure KinesisRecord.Decodes mixedRecords 1
        (mixedRecords.record "%" "aws:kinesis") := by
      refine firstFailure_succ_iff.mpr ⟨⟨rfl,_,hsound⟩,firstFailure_zero_iff.mpr ⟨rfl,?_⟩⟩
      rintro ⟨-, t, ht⟩
      cases hbroken.symm.trans ht
    rw [← hmessage]
    exact (((extract_batch _).2.2 _ hstream).2 _).mpr (.data hfirst rfl hbroken)

end Envelope
end Unseal
