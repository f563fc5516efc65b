import Unseal.Proofs.Wrapping.Metadata
import Unseal.Proofs.Json.Legible
import Unseal.Proofs.Json.Pointer

/-!
# Layers

An event is built from the inside out. A node is the metadata that one event of a layer carries
and what is wrapped in it: any number of children in a batch, exactly one elsewhere.
-/

set_option autoImplicit false

namespace Unseal

inductive Layer where
  | sqs | sns | snsSqs | kinesis | eventBridge | apiGateway
  /-- A field of a literal key, whose children stand as values or, `serialized`, as text. -/
  | field (name key : String) (isKey : IsKey key) (each serialized : Bool)

def Layer.envelope : Layer → Envelope
  | sqs => .sqs
  | sns => .sns
  | snsSqs => .snsSqs
  | kinesis => .kinesis
  | eventBridge => .eventBridge
  | apiGateway => .apiGateway
  | field name key _ each serialized => (Field.ofPlace name key each serialized).envelope

def Layer.writes : Layer → Bool
  | eventBridge => false
  | field _ _ _ _ serialized => serialized
  | _ => true

abbrev Batch := Metadata .nil ["Records"]

abbrev Message := Metadata Metadata.queueRecord ["body", "eventSource"]

abbrev Notice := Metadata Metadata.notification ["Message"]

abbrev Delivery := Metadata Metadata.topicRecord ["EventSource", "Sns"]

abbrev Chunk := Metadata Metadata.streamPayload ["data"]

abbrev Streamed := Metadata Metadata.streamRecord ["eventSource", "kinesis"]

inductive Node (α : Type) : Layer → Type where
  | sqs (batch : Batch) (records : List (Message × α)) : Node α .sqs
  | sns (batch : Batch) (records : List (Delivery × Notice × α)) : Node α .sns
  | snsSqs (batch : Batch) (records : List (Message × Notice × α)) : Node α .snsSqs
  | kinesis (batch : Batch) (records : List (Streamed × Chunk × α)) : Node α .kinesis
  | eventBridge (news : Metadata Metadata.busEvent ["detail"]) (child : α) : Node α .eventBridge
  | apiGateway (request : Metadata Metadata.gatewayRequest ["body"]) (child : α) :
      Node α .apiGateway
  | one {name key : String} {isKey : IsKey key} {serialized : Bool}
      (around : Metadata .nil [key]) (child : α) : Node α (.field name key isKey false serialized)
  | each {name key : String} {isKey : IsKey key} {serialized : Bool}
      (around : Metadata .nil [key]) (children : List α) :
      Node α (.field name key isKey true serialized)

def base64Text (t : String) : String :=
  .ofList ((Base64.encode (Utf8.encode t.toList)).map fun b => Char.ofNat b.toNat)

def placed (serialized : Bool) (v : Json) : Json := if serialized then .str v.compact else v

namespace Node

variable {α β : Type} {ℓ : Layer}

def children : Node α ℓ → List α
  | sqs _ records => records.map fun (_, x) => x
  | sns _ records => records.map fun (_, _, x) => x
  | snsSqs _ records => records.map fun (_, _, x) => x
  | kinesis _ records => records.map fun (_, _, x) => x
  | eventBridge _ x => [x]
  | apiGateway _ x => [x]
  | one _ x => [x]
  | each _ xs => xs

def map (f : α → β) : Node α ℓ → Node β ℓ
  | sqs b records => sqs b (records.map fun (m, x) => (m, f x))
  | sns b records => sns b (records.map fun (d, n, x) => (d, n, f x))
  | snsSqs b records => snsSqs b (records.map fun (m, n, x) => (m, n, f x))
  | kinesis b records => kinesis b (records.map fun (r, c, x) => (r, c, f x))
  | eventBridge d x => eventBridge d (f x)
  | apiGateway d x => apiGateway d (f x)
  | one d x => one d (f x)
  | each d xs => each d (xs.map f)

theorem children_map (f : α → β) (n : Node α ℓ) : (n.map f).children = n.children.map f := by
  cases n <;> simp [map, children]

/-- The event of a node of values. -/
def event {ℓ : Layer} : Node Json ℓ → Json
  | sqs b records => b.batch (records.map fun (m, v) => m.message v.compact)
  | sns b records => b.batch (records.map fun (d, n, v) => d.delivery (n.notice v.compact))
  | snsSqs b records =>
    b.batch (records.map fun (m, n, v) => m.message (n.notice v.compact).compact)
  | kinesis b records =>
    b.batch (records.map fun (r, c, v) => r.streamed (c.chunk (base64Text v.compact)))
  | eventBridge d v => d.busNews v
  | apiGateway d v => d.request v.compact
  | @one _ _ key _ serialized d v => d.object [(key, placed serialized v)]
  | @each _ _ key _ serialized d vs =>
    d.object [(key, .arr (vs.map (placed serialized)))]

/-- The values that are written as text in the event. -/
def texts {ℓ : Layer} : Node Json ℓ → List Json
  | sqs _ records => records.map fun (_, v) => v
  | sns _ records => records.map fun (_, _, v) => v
  | snsSqs _ records => records.flatMap fun (_, n, v) => [v, n.notice v.compact]
  | kinesis _ records => records.map fun (_, _, v) => v
  | eventBridge _ _ => []
  | apiGateway _ v => [v]
  | @one _ _ _ _ serialized _ v => if serialized then [v] else []
  | @each _ _ _ _ serialized _ vs => if serialized then vs else []

theorem event_isObject (n : Node Json ℓ) : n.event.isObject := by
  cases n <;> rfl

/-! ## Reread nodes -/

/-- The node as it comes back from text: children inside text of their own are as they were. -/
def reread (f : α → α) : Node α ℓ → Node α ℓ
  | sqs b records => sqs (b.reread rfl) (records.map fun (m, x) => (m.reread rfl, x))
  | sns b records =>
    sns (b.reread rfl) (records.map fun (d, n, x) => (d.reread rfl, n.reread rfl, x))
  | snsSqs b records => snsSqs (b.reread rfl) (records.map fun (m, n, x) => (m.reread rfl, n, x))
  | kinesis b records =>
    kinesis (b.reread rfl) (records.map fun (r, c, x) => (r.reread rfl, c.reread rfl, x))
  | eventBridge d x => eventBridge (d.reread rfl) (f x)
  | apiGateway d x => apiGateway (d.reread rfl) x
  | @one _ _ _ _ serialized d x => one (d.reread rfl) (if serialized then x else f x)
  | @each _ _ _ _ serialized d xs =>
    each (d.reread rfl) (if serialized then xs else xs.map f)

theorem children_reread (f : α → α) (n : Node α ℓ) :
    (n.reread f).children = if ℓ.writes then n.children else n.children.map f := by
  cases n with
  | @one _ _ _ serialized _ _ => cases serialized <;> rfl
  | @each _ _ _ serialized _ _ => cases serialized <;> rfl
  | _ => simp [reread, children, Layer.writes]

theorem map_reread {f : α → α} {f' : β → β} {g : α → β} (h : ∀ x, g (f x) = f' (g x))
    (n : Node α ℓ) : (n.reread f).map g = (n.map g).reread f' := by
  cases n with
  | @one _ _ _ serialized _ _ => cases serialized <;> simp [reread, map, h]
  | @each _ _ _ serialized _ _ => cases serialized <;> simp [reread, map, h]
  | _ => simp [reread, map, h]

theorem texts_reread (f : Json → Json) (n : Node Json ℓ) : (n.reread f).texts = n.texts := by
  cases n with
  | @one _ _ _ serialized _ _ => cases serialized <;> rfl
  | @each _ _ _ serialized _ _ => cases serialized <;> rfl
  | _ => simp [reread, texts, List.flatMap_map]

theorem reread_placed (serialized : Bool) (v : Json) :
    (placed serialized v).reread = placed serialized (if serialized then v else v.reread) := by
  cases serialized <;> rfl

theorem event_reread (n : Node Json ℓ) : (n.reread Json.reread).event = n.event.reread := by
  cases n with
  | sqs b records =>
    simp [event, reread, Function.comp_def, Metadata.reread_batch, Metadata.reread_message]
  | sns b records =>
    simp [event, reread, Function.comp_def, Metadata.reread_batch, Metadata.reread_delivery,
      Metadata.reread_notice]
  | snsSqs b records =>
    simp [event, reread, Function.comp_def, Metadata.reread_batch, Metadata.reread_message]
  | kinesis b records =>
    simp [event, reread, Function.comp_def, Metadata.reread_batch, Metadata.reread_streamed,
      Metadata.reread_chunk]
  | eventBridge d v => exact (d.reread_busNews v).symm
  | apiGateway d v => exact (d.reread_request v.compact).symm
  | @one _ key _ serialized d v =>
    rw [event, d.reread_object rfl, Json.rereadMembers, Json.rereadMembers, reread_placed]
    rfl
  | @each _ key _ serialized d vs =>
    have hvs : Json.rereadItems (vs.map (placed serialized)) =
        (if serialized then vs else vs.map Json.reread).map (placed serialized) := by
      rw [Json.rereadItems_eq_map]
      cases serialized <;> simp [placed, Json.reread]
    rw [event, d.reread_object rfl, Json.rereadMembers, Json.rereadMembers, Json.reread, hvs]
    rfl

end Node
end Unseal
