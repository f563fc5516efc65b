import Unseal.Proofs.Chain.Event
import Unseal.Proofs.Chain.Stages
import Unseal.Proofs.Json.Pointer
import Unseal.Proofs.Record.Agreement
import Unseal.Proofs.Record.Lookup

/-!
# Two envelopes in one

Notifications that come through a queue are opened at once, or in two steps: the bodies of the
queue's messages are taken out first, and then the member `Message` of what each of them reads
as. The first way reads a body in one pass as a notification; the second reads any object and
follows a pointer. Over bodies without repeated keys both find the same texts.
-/

set_option autoImplicit false

namespace Unseal

open Traversal

variable {α : Type}

/-! ## The fused envelope, step by step -/

def Envelope.bodyMessage (body : Payload) : Except ParseError Payload := do
  let notification : SnsNotification ← Shape.snsNotification.unwrap "SnsNotification" body
  .ok (.text notification.message)

theorem Envelope.sqs_bodies {p : Payload} {bodies : Parsed Payload}
    (h : sqs.extract p = .ok bodies) {body : Payload} (hb : body ∈ bodies.toList) :
    ∃ text, body = .text text := by
  obtain ⟨event, -, h⟩ := bind_ok_iff.mp h
  obtain ⟨-, -, h⟩ := bind_ok_iff.mp h
  cases h
  obtain ⟨r, -, rfl⟩ := List.mem_map.mp hb
  exact ⟨r.body,rfl⟩

/-- The fused envelope first does all that the queue's own does. -/
theorem Envelope.snsSqs_extract (p : Payload) :
    snsSqs.extract p = sqs.extract p >>= fun bodies =>
      bodies.toList.mapM bodyMessage >>= fun messages => .ok (.many messages) := by
  have hrecords : ∀ event : SqsEvent, event.records.mapM snsMessage =
      (event.records.map fun r => Payload.text r.body).mapM bodyMessage := by
    intro event
    rw [List.mapM_map]
    rfl
  simp only [snsSqs, sqs, bind_assoc, hrecords]
  rfl

theorem Envelope.snsSqs_ok_iff {p : Payload} {bodies messages : Parsed Payload}
    (h : sqs.extract p = .ok bodies) : snsSqs.extract p = .ok messages ↔ ∃ qs,
      List.Forall₂ (fun body q => bodyMessage body = .ok q) bodies.toList qs ∧
        messages = .many qs := by
  rw [snsSqs_extract]
  simp only [bind_ok_iff, h, mapM_ok_iff]
  constructor
  · rintro ⟨_, ⟨⟩, qs, hqs, ⟨⟩⟩
    exact ⟨qs,hqs,rfl⟩
  · rintro ⟨qs, hqs, rfl⟩
    exact ⟨bodies,rfl,qs,hqs,rfl⟩

/-! ## One body -/

theorem SnsNotification.find?_message {text : String} {ms : List (String × Json)}
    {n : SnsNotification} (hd : KeysDistinct text)
    (hv : (Payload.text text).toJson = .ok (.obj ms))
    (hn : Shape.snsNotification.readText text = .ok n) :
    Members.find? "Message" ms = some (.str n.message) := by
  obtain ⟨t, hspells, hdistinct⟩ := hd
  have hread := (Json.read_ok_iff_spells text t.normal).mpr ⟨t,hspells,rfl⟩
  have hnormal : t.normal = .obj ms := Except.ok.inj (hread.symm.trans hv)
  have hobject := (Shape.readText_ok_iff hspells hdistinct n).mp hn
  rw [hnormal] at hobject
  -- the fifth field of the record
  obtain ⟨_, _, _, _, hmessage, _⟩ := (Shape.ofJson_object_iff rfl).mp hobject
  exact hmessage.find?_text

theorem Envelope.bodyMessage_text_ok_iff {text : String} {q : Payload} :
    bodyMessage (.text text) = .ok q ↔ ∃ n : SnsNotification,
      Shape.snsNotification.readText text = .ok n ∧ q = .text n.message := by
  apply bind_ok_iff.trans
  simp only [Shape.unwrap_text_ok_iff, Except.ok.injEq, @eq_comm _ q]

theorem Field.extract_serialized {name key text : String} {ms : List (String × Json)}
    (hkey : IsKey key) (h : Members.find? key ms = some (.str text)) :
    (ofPlace name key false true).envelope.extract (.value (.obj ms)) =
      .ok (.single (.text text)) := by
  simp [envelope, extract, Payload.toJson, ofPlace, resolve_pointerOf hkey, h, toPayload]

/-- What the fused envelope takes from a body is what the second step finds in its object. -/
theorem Envelope.bodyMessage_eq_field {name text : String} {ms : List (String × Json)}
    {q : Payload} (hd : KeysDistinct text) (hv : (Payload.text text).toJson = .ok (.obj ms))
    (hq : bodyMessage (.text text) = .ok q) :
    (Field.ofPlace name "Message" false true).envelope.extract (.value (.obj ms)) =
      .ok (.single q) := by
  obtain ⟨n, hn, rfl⟩ := bodyMessage_text_ok_iff.mp hq
  have hkey : IsKey "Message" := ⟨_,_,rfl,by decide⟩
  exact Field.extract_serialized hkey (SnsNotification.find?_message hd hv hn)

/-! ## The two steps -/

theorem Chain.lastStage_single {m : Model α} {e : Envelope} {events qs : List Payload}
    (h : List.Forall₂ (fun p q => e.extract p = .ok (.single q)) events qs) :
    lastStage m e events = qs.mapM fun q => orInvalid (m.checkPayload q) := by
  have heach : events.mapM (fun p => (parseWith m e p).map Parsed.toList) =
      qs.mapM fun q => (orInvalid (m.checkPayload q)).map fun x => [x] := by
    induction h with
    | nil => rfl
    | @cons p q _ _ hp _ ih =>
      have hone : (parseWith m e p).map Parsed.toList =
          (orInvalid (m.checkPayload q)).map fun x => [x] := by
        rw [parseWith_toList, hp]
        show [q].mapM (fun q => orInvalid (m.checkPayload q)) = _
        rw [List.mapM_cons, List.mapM_nil]
        cases orInvalid (m.checkPayload q) <;> rfl
      rw [List.mapM_cons, List.mapM_cons, ih, hone]
  rw [lastStage_eq_collect, collect, heach, mapM_map_eq]
  cases qs.mapM fun q => orInvalid (m.checkPayload q) with
  | error err => rfl
  | ok xs => exact congrArg Except.ok (List.flatMap_singleton' xs)

theorem parseChain_pair {m : Model α} {outer inner : Envelope} {p : Payload}
    {r : Parsed Payload} {qs : List Payload} (hr : outer.extract p = .ok r)
    (h : List.Forall₂ (fun body q => ∃ v, body.toJson = .ok v ∧ v.isObject ∧
      inner.extract (.value v) = .ok (.single q)) r.toList qs) :
    parseChain m [outer, inner] p = qs.mapM fun q => orInvalid (m.checkPayload q) := by
  obtain ⟨values, hvalues, hinner⟩ := forall₂_comp_iff.mpr h
  obtain ⟨hobjects, hinner⟩ := (List.forall₂_and_left ..).mp hinner
  have hstage : Chain.stage outer [p] = .ok (values.map .value) := by
    rw [Chain.stage_eq_collect, collect_singleton, Chain.unwrapEvent_ok_iff]
    exact ⟨r,values,hr,hvalues,hobjects,rfl⟩
  rw [parseChain, Chain.run_cons_cons, hstage]
  exact Chain.lastStage_single (List.forall₂_map_left_iff.mpr hinner)

/-- The fused envelope fails where the queue's own does, with the same error. -/
theorem Envelope.snsSqs_two_steps (m : Model α) (name : String) (p : Payload) :
    (∀ err, sqs.extract p = .error err → snsSqs.extract p = .error err) ∧
    ∀ bodies messages, sqs.extract p = .ok bodies →
      (∀ text, .text text ∈ bodies.toList →
        KeysDistinct text ∧ ∃ ms, (Payload.text text).toJson = .ok (.obj ms)) →
      snsSqs.extract p = .ok messages →
      (parseWith m snsSqs p).map Parsed.toList =
        parseChain m [sqs, (Field.ofPlace name "Message" false true).envelope] p := by
  constructor
  · intro err h
    rw [snsSqs_extract, h]
    rfl
  · intro bodies messages hbodies hread hmessages
    obtain ⟨qs, hqs, rfl⟩ := (snsSqs_ok_iff hbodies).mp hmessages
    have hbody : ∀ body ∈ bodies.toList, ∃ text ms, body = .text text ∧ KeysDistinct text ∧
        body.toJson = .ok (.obj ms) := by
      intro body hmem
      obtain ⟨text, rfl⟩ := sqs_bodies hbodies hmem
      obtain ⟨hdistinct, ms, hms⟩ := hread text hmem
      exact ⟨text,ms,rfl,hdistinct,hms⟩
    have hchain : parseChain m [sqs, (Field.ofPlace name "Message" false true).envelope] p =
        qs.mapM fun q => orInvalid (m.checkPayload q) := by
      apply parseChain_pair hbodies
      apply ((List.forall₂_and_left ..).mpr ⟨hbody,hqs⟩).imp
      rintro _ q ⟨⟨text, ms, rfl, hdistinct, hms⟩, hq⟩
      exact ⟨.obj ms,hms,rfl,bodyMessage_eq_field hdistinct hms hq⟩
    rw [parseWith_toList, hmessages, hchain]
    rfl

/-! ## A notification in a queue -/

def queuedNotice : Json :=
  .mkObj [("Records", .arr [.mkObj [("messageId", .str "m"), ("receiptHandle", .str "r"),
    ("body", .str noticeText), ("md5OfBody", .str "d"), ("eventSource", .str "aws:sqs"),
    ("eventSourceARN", .str "arn:aws:sqs:eu-west-1:1:orders"), ("awsRegion", .str "eu-west-1")]])]

theorem queuedNotice_bodies :
    Envelope.sqs.extract (.value queuedNotice) = .ok (.many [.text noticeText]) := rfl

theorem queuedNotice_messages :
    Envelope.snsSqs.extract (.value queuedNotice) = .ok (.many [.text "hi\n"]) := by
  apply (Envelope.snsSqs_ok_iff queuedNotice_bodies).mpr
  have hread := (Shape.readText_ok_iff (s := .snsNotification) notice_spells
    noticeTree_distinct _).mpr rfl
  exact ⟨_,.cons (Envelope.bodyMessage_text_ok_iff.mpr ⟨_,hread,rfl⟩) .nil,rfl⟩

theorem queuedNotice_two_steps :
    (∀ text, .text text ∈ [Payload.text noticeText] →
      KeysDistinct text ∧ ∃ ms, (Payload.text text).toJson = .ok (.obj ms)) ∧
    Envelope.sqs.extract (.value queuedNotice) = .ok (.many [.text noticeText]) ∧
    Envelope.snsSqs.extract (.value queuedNotice) = .ok (.many [.text "hi\n"]) ∧
    (parseWith (Shape.any.model "Value") .snsSqs (.value queuedNotice)).map Parsed.toList =
      parseChain (Shape.any.model "Value")
        [.sqs, (Field.ofPlace "FieldEnvelope" "Message" false true).envelope]
        (.value queuedNotice) := by
  have hread : ∀ text, .text text ∈ [Payload.text noticeText] →
      KeysDistinct text ∧ ∃ ms, (Payload.text text).toJson = .ok (.obj ms) := by
    intro text hmem
    obtain rfl : text = noticeText := by simpa using hmem
    exact ⟨notice_keysDistinct,_,notice_toJson⟩
  exact ⟨hread,queuedNotice_bodies,queuedNotice_messages,
    (Envelope.snsSqs_two_steps _ _ _).2 _ _ queuedNotice_bodies hread queuedNotice_messages⟩

end Unseal
