import Unseal.Envelope.Basic

/-!
# Bus events

A single event from an event bus. The payload is its detail.
-/

set_option autoImplicit false

namespace Unseal

namespace Shape

def eventBridgeEvent : Shape :=
  .record "EventBridgeEvent" false <|
    .cons (.required "version") .text <|
    .cons (.required "id") .text <|
    .cons (.required "source") .text <|
    .cons (.required "account") .text <|
    .cons (.required "time") .instant <|
    .cons (.required "region") .text <|
    .cons (.required "resources") (.sequence .text) <|
    .cons (.required "detail-type") .text <|
    .cons (.required "detail") .any <|
    .cons ⟨"replay-name", [], .sparse⟩ (.optional .text) .nil

end Shape

abbrev EventBridgeEvent := Shape.eventBridgeEvent.Carrier

def EventBridgeEvent.detail : EventBridgeEvent → Json
  | (_, _, _, _, _, _, _, _, detail, _) => detail

namespace Envelope

/-- An object that has no detail at all is refused before its other fields are looked at. -/
def eventBridge : Envelope where
  name := "eventbridge"
  extract := fun p => do
    let v ← orInvalid (match p.toJson with
      | .ok v => .ok v
      | .error f => .error (.ofReading "EventBridgeEvent" f.message))
    if v.isObject && (v.get? "detail").isNone then
      .error (.invalid (.missing "EventBridgeEvent" "detail"))
    else
      let event : EventBridgeEvent ← Shape.eventBridgeEvent.unwrap "EventBridgeEvent" (.value v)
      .ok (.single (.value (event.detail)))

end Envelope
end Unseal
