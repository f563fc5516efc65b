import Unseal.Envelope.Basic

/-!
# Queue events

A batch of messages from a queue. The payloads are the message bodies.
-/

set_option autoImplicit false

namespace Unseal

namespace Shape

def sqsRecord : Shape :=
  .record "SqsRecord" false <|
    .cons (.required "messageId") .text <|
    .cons (.required "receiptHandle") .text <|
    .cons (.required "body") .text <|
    .cons (.defaulted "attributes") (.dictionary .text) <|
    .cons (.defaulted "messageAttributes") (.dictionary .any) <|
    .cons (.required "md5OfBody") .text <|
    .cons (.required "eventSource") .text <|
    .cons (.required "eventSourceARN") .text <|
    .cons (.required "awsRegion") .text .nil

def sqsEvent : Shape :=
  .record "SqsEvent" false <| .cons (.required "Records") (.sequence sqsRecord) .nil

end Shape

abbrev SqsRecord := Shape.sqsRecord.Carrier

abbrev SqsEvent := Shape.sqsEvent.Carrier

namespace SqsRecord

def body : SqsRecord → String
  | (_, _, body, _) => body

def eventSource : SqsRecord → String
  | (_, _, _, _, _, _, source, _) => source

end SqsRecord

namespace SqsEvent

def records : SqsEvent → List SqsRecord
  | (records, _) => records

end SqsEvent

def SqsEvent.checkSources (event : SqsEvent) : Except ParseError Unit := do
  discard <| eachRecord event.records fun i r =>
    checkSource "SqsEvent" (recordPath i "/eventSource") r.eventSource "aws:sqs"

namespace Envelope

def sqs : Envelope where
  name := "sqs"
  extract := fun p => do
    let event : SqsEvent ← Shape.sqsEvent.unwrap "SqsEvent" p
    event.checkSources
    .ok (.many (event.records.map fun r => .text r.body))

end Envelope
end Unseal
