import Unseal.Envelope.Sqs

/-!
# Topic notifications

A notification reaches a handler in a batch of records of its own, or as the body of a queue
message. The payloads are the notifications' messages.
-/

set_option autoImplicit false

namespace Unseal

namespace Shape

def snsNotification : Shape :=
  .record "SnsNotification" false <|
    .cons (.required "Type") .text <|
    .cons (.required "MessageId") .text <|
    .cons (.required "TopicArn") .text <|
    .cons (.defaulted "Subject") (.optional .text) <|
    .cons (.required "Message") .text <|
    .cons (.required "Timestamp") .instant <|
    .cons (.defaulted "MessageAttributes") (.dictionary .any) <|
    .cons (.defaulted "SignatureVersion") (.optional .text) <|
    .cons (.defaulted "Signature") (.optional .text) <|
    .cons ⟨"SigningCertUrl", ["SigningCertURL"], .defaulted⟩ (.optional .text) <|
    .cons ⟨"UnsubscribeUrl", ["UnsubscribeURL"], .defaulted⟩ (.optional .text) .nil

def snsRecord : Shape :=
  .record "SnsRecord" false <|
    .cons (.required "EventSource") .text <|
    .cons (.required "EventVersion") .text <|
    .cons (.required "EventSubscriptionArn") .text <|
    .cons (.required "Sns") snsNotification .nil

def snsEvent : Shape :=
  .record "SnsEvent" false <| .cons (.required "Records") (.sequence snsRecord) .nil

end Shape

abbrev SnsNotification := Shape.snsNotification.Carrier

abbrev SnsRecord := Shape.snsRecord.Carrier

abbrev SnsEvent := Shape.snsEvent.Carrier

def SnsNotification.message : SnsNotification → String
  | (_, _, _, _, message, _) => message

namespace SnsRecord

def eventSource : SnsRecord → String
  | (source, _) => source

def notification : SnsRecord → SnsNotification
  | (_, _, _, notification, _) => notification

end SnsRecord

def SnsEvent.records : SnsEvent → List SnsRecord
  | (records, _) => records

namespace Envelope

def sns : Envelope where
  name := "sns"
  extract := fun p => do
    let event : SnsEvent ← Shape.snsEvent.unwrap "SnsEvent" p
    discard <| eachRecord event.records fun i r =>
      checkSource "SnsEvent" (recordPath i "/EventSource") r.eventSource "aws:sns"
    .ok (.many (event.records.map fun r => .text r.notification.message))

def snsMessage (r : SqsRecord) : Except ParseError Payload := do
  let notification : SnsNotification ←
    Shape.snsNotification.unwrap "SnsNotification" (.text r.body)
  .ok (.text notification.message)

def snsSqs : Envelope where
  name := "sns-sqs"
  extract := fun p => do
    let event : SqsEvent ← Shape.sqsEvent.unwrap "SqsEvent" p
    event.checkSources
    let messages ← event.records.mapM snsMessage
    .ok (.many messages)

end Envelope
end Unseal
