import Unseal.Envelope.Basic
import Unseal.Base64
import Unseal.Text.Utf8

/-!
# Stream events

A batch of records from a data stream. The payloads are the records' data, which is text in
base64.
-/

set_option autoImplicit false

namespace Unseal

namespace Shape

def kinesisPayload : Shape :=
  .record "KinesisRecordPayload" false <|
    .cons (.required "kinesisSchemaVersion") .text <|
    .cons (.required "partitionKey") .text <|
    .cons (.required "sequenceNumber") .text <|
    .cons (.required "data") .text <|
    .cons (.required "approximateArrivalTimestamp") .real .nil

def kinesisRecord : Shape :=
  .record "KinesisDataStreamRecord" false <|
    .cons (.required "eventSource") .text <|
    .cons (.required "eventID") .text <|
    .cons (.required "eventName") .text <|
    .cons (.required "eventVersion") .text <|
    .cons (.required "eventSourceARN") .text <|
    .cons (.required "awsRegion") .text <|
    .cons (.required "kinesis") kinesisPayload .nil

def kinesisEvent : Shape :=
  .record "KinesisDataStreamEvent" false <|
    .cons (.required "Records") (.sequence kinesisRecord) .nil

end Shape

abbrev KinesisPayload := Shape.kinesisPayload.Carrier

abbrev KinesisRecord := Shape.kinesisRecord.Carrier

abbrev KinesisEvent := Shape.kinesisEvent.Carrier

def KinesisPayload.data : KinesisPayload → String
  | (_, _, _, data, _) => data

namespace KinesisRecord

def eventSource : KinesisRecord → String
  | (source, _) => source

def payload : KinesisRecord → KinesisPayload
  | (_, _, _, _, _, _, payload, _) => payload

end KinesisRecord

def KinesisEvent.records : KinesisEvent → List KinesisRecord
  | (records, _) => records

inductive DataFault where
  | base64 (fault : Base64.Fault)
  | utf8 (fault : Utf8.Fault)
deriving DecidableEq, Repr

def DataFault.message : DataFault → String
  | base64 f => "record data is not valid base64: " ++ f.message
  | utf8 f => "record data is not valid UTF-8: " ++ f.message

def decodeData (data : String) : Except DataFault String :=
  match Base64.decode (Utf8.encode data.toList) with
  | .error f => .error (.base64 f)
  | .ok bytes =>
    match Utf8.decode bytes with
    | .error f => .error (.utf8 f)
    | .ok text => .ok text

namespace Envelope

/-- The decoded data of the record at index `i`, whose source is checked first. -/
def kinesisData (i : Nat) (r : KinesisRecord) : Except ParseError Payload := do
  checkSource "KinesisDataStreamEvent" (recordPath i "/eventSource") r.eventSource "aws:kinesis"
  match decodeData r.payload.data with
  | .ok text => .ok (.text text)
  | .error f =>
    .error (.invalid (.single "KinesisDataStreamEvent" (recordPath i "/kinesis/data") f.message))

def kinesis : Envelope where
  name := "kinesis"
  extract := fun p => do
    let event : KinesisEvent ← Shape.kinesisEvent.unwrap "KinesisDataStreamEvent" p
    let payloads ← eachRecord event.records kinesisData
    .ok (.many payloads)

end Envelope
end Unseal
