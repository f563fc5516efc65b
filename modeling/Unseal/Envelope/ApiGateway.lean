import Unseal.Envelope.Basic

/-!
# Gateway requests

A request passed on by an API gateway. The payload is its body.
-/

set_option autoImplicit false

namespace Unseal

namespace Shape

def gatewayRequest : Shape :=
  .record "ApiGatewayProxyEvent" false <|
    .cons (.defaulted "resource") (.optional .text) <|
    .cons (.required "path") .text <|
    .cons (.required "httpMethod") .text <|
    .cons (.defaulted "headers") (.optional (.dictionary .text)) <|
    .cons (.defaulted "queryStringParameters") (.optional (.dictionary .text)) <|
    .cons (.defaulted "pathParameters") (.optional (.dictionary .text)) <|
    .cons (.defaulted "requestContext") (.optional .any) <|
    .cons (.defaulted "body") (.optional .text) <|
    .cons (.defaulted "isBase64Encoded") .flag .nil

end Shape

abbrev GatewayRequest := Shape.gatewayRequest.Carrier

def GatewayRequest.body : GatewayRequest → Option String
  | (_, _, _, _, _, _, _, body, _) => body

namespace Envelope

def apiGateway : Envelope where
  name := "apigw"
  extract := fun p => do
    let request : GatewayRequest ← Shape.gatewayRequest.unwrap "ApiGatewayProxyEvent" p
    match request.body with
    | some body => .ok (.single (.text body))
    | none => .error (.invalid (.missing "ApiGatewayProxyEvent" "body"))

end Envelope
end Unseal
