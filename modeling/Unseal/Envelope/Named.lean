import Unseal.Envelope.Sns
import Unseal.Envelope.Kinesis
import Unseal.Envelope.EventBridge
import Unseal.Envelope.ApiGateway
import Unseal.Text.Blank

/-!
# Envelopes by name

The built-in envelopes and the names that configurations give them. A name is read without
regard to surrounding white space and to the case of ASCII letters.
-/

set_option autoImplicit false

namespace Unseal

inductive Source where
  | eventBridge | sqs | sns | snsSqs | kinesis | apiGateway
deriving DecidableEq, Repr

namespace Source

def all : List Source := [eventBridge, sqs, sns, snsSqs, kinesis, apiGateway]

def name : Source → String
  | eventBridge => "eventbridge"
  | sqs => "sqs"
  | sns => "sns"
  | snsSqs => "sns-sqs"
  | kinesis => "kinesis"
  | apiGateway => "apigw"

def envelope : Source → Envelope
  | eventBridge => .eventBridge
  | sqs => .sqs
  | sns => .sns
  | snsSqs => .snsSqs
  | kinesis => .kinesis
  | apiGateway => .apiGateway

/-- The form in which names are compared. -/
def normal (name : String) : String := Text.lower (Text.trimmed name)

def ofName? (name : String) : Option Source := all.find? fun s => s.name == normal name

end Source

namespace Envelope

def ofName (name : String) : Except ParseError Envelope :=
  match Source.ofName? name with
  | some s => .ok s.envelope
  | none => .error (.unknownEnvelope name)

def ofNames (names : List String) : Except ParseError (List Envelope) := names.mapM ofName

end Envelope
end Unseal
