import Unseal.Proofs.Chain.DepthFirst
import Unseal.Proofs.Json.Sound
import Unseal.Proofs.Wrapping.Extraction

/-!
# Unwrapping undoes wrapping

A tree has a node for every event of a chain and its leaves at the end of the chain. The chain
takes the leaves out again, in their order. A leaf that comes back from text comes back as what
it is reread as, once, however many texts it is wrapped in.
-/

set_option autoImplicit false

namespace Unseal

open Json (Legible)

def Tree : List Layer → Type
  | [] => Json
  | ℓ :: ℓs => Node (Tree ℓs) ℓ

namespace Tree

/-- The event of the whole tree, built from the inside out. -/
def event : {ℓs : List Layer} → Tree ℓs → Json
  | [], v => v
  | _ :: _, (n : Node _ _) => (n.map event).event

def leaves : {ℓs : List Layer} → Tree ℓs → List Json
  | [], v => [v]
  | _ :: _, (n : Node _ _) => n.children.flatMap leaves

/-- Every value in the tree that is written as text. -/
def written : {ℓs : List Layer} → Tree ℓs → List Json
  | [], _ => []
  | _ :: _, (n : Node _ _) => (n.map event).texts ++ n.children.flatMap written

def reread : {ℓs : List Layer} → Tree ℓs → Tree ℓs
  | [], v => Json.reread v
  | _ :: _, (n : Node _ _) => n.reread reread

theorem event_reread : {ℓs : List Layer} → (t : Tree ℓs) → t.reread.event = t.event.reread
  | [], _ => rfl
  | ℓ :: ℓs, (n : Node (Tree ℓs) ℓ) => by
    show ((n.reread reread).map event).event = (n.map event).event.reread
    rw [Node.map_reread event_reread, Node.event_reread]

theorem written_reread : {ℓs : List Layer} → (t : Tree ℓs) → t.reread.written = t.written
  | [], _ => rfl
  | ℓ :: ℓs, (n : Node (Tree ℓs) ℓ) => by
    show ((n.reread reread).map event).texts ++ (n.reread reread).children.flatMap written =
      (n.map event).texts ++ n.children.flatMap written
    rw [Node.map_reread event_reread, Node.texts_reread, Node.children_reread]
    split
    · rfl
    · simp only [List.flatMap_map, written_reread]

theorem leaves_reread : {ℓs : List Layer} → (t : Tree ℓs) →
    t.reread.leaves = if ℓs.any Layer.writes then t.leaves else t.leaves.map Json.reread
  | [], _ => rfl
  | ℓ :: ℓs, (n : Node (Tree ℓs) ℓ) => by
    show (n.reread reread).children.flatMap leaves = if (ℓ :: ℓs).any Layer.writes then
      n.children.flatMap leaves else (n.children.flatMap leaves).map Json.reread
    rw [Node.children_reread, List.any_cons]
    cases hℓ : ℓ.writes with
    | true => simp
    | false =>
      cases hℓs : ℓs.any Layer.writes with
      | true =>
        have ih : ∀ t : Tree ℓs, t.reread.leaves = t.leaves :=
          fun _ => by rw [leaves_reread, if_pos hℓs]
        simp [List.flatMap_map, ih]
      | false =>
        have ih : ∀ t : Tree ℓs, t.reread.leaves = t.leaves.map Json.reread :=
          fun _ => by rw [leaves_reread, if_neg (by simp [hℓs])]
        simp [List.flatMap_map, ih, List.map_flatMap]

/-- The leaves as the chain takes them out of the event. -/
def outcome {ℓs : List Layer} (t : Tree ℓs) : List Json :=
  if ℓs.any Layer.writes then t.leaves.map Json.reread else t.leaves

theorem outcome_reread {ℓs : List Layer} (t : Tree ℓs) :
    t.reread.outcome = t.leaves.map Json.reread := by
  rw [outcome, leaves_reread]
  split <;> rfl

def received {ℓ : Layer} {ℓs : List Layer} (n : Node (Tree ℓs) ℓ) : List (Tree ℓs) :=
  if ℓ.writes then n.children.map reread else n.children

theorem outcome_received {ℓ : Layer} {ℓs : List Layer} (n : Node (Tree ℓs) ℓ) :
    @outcome (ℓ :: ℓs) n = (received n).flatMap outcome := by
  show (if (ℓ :: ℓs).any Layer.writes then (n.children.flatMap leaves).map Json.reread
    else n.children.flatMap leaves) = _
  rw [List.any_cons, received]
  cases hℓ : ℓ.writes with
  | true => simp [List.flatMap_map, outcome_reread, List.map_flatMap]
  | false =>
    cases hℓs : ℓs.any Layer.writes with
    | true =>
      have hall : @outcome ℓs = fun t => t.leaves.map Json.reread := funext fun _ => if_pos hℓs
      simp [hall, List.map_flatMap]
    | false =>
      have hall : @outcome ℓs = leaves := funext fun _ => if_neg (by simp [hℓs])
      simp [hall]

theorem written_received {ℓ : Layer} {ℓs : List Layer} {n : Node (Tree ℓs) ℓ} {t : Tree ℓs}
    (ht : t ∈ received n) {v : Json} (hv : v ∈ t.written) : v ∈ @written (ℓ :: ℓs) n := by
  refine List.mem_append_right _ (List.mem_flatMap.mpr ?_)
  rw [received] at ht
  split at ht
  · obtain ⟨t, hmem, rfl⟩ := List.mem_map.mp ht
    exact ⟨t,hmem,t.written_reread ▸ hv⟩
  · exact ⟨t,ht,hv⟩

theorem yields_received {ℓ : Layer} {ℓs : List Layer} (n : Node (Tree ℓs) ℓ) {p : Payload}
    (hp : p.Presents (n.map event).event)
    (h : ∀ v ∈ (n.map event).texts, Legible Json.depthLimit v) :
    ℓ.envelope.Yields p ((received n).map event) := by
  have hnode := Node.yields _ hp h
  rw [Node.children_map, List.map_map] at hnode
  rw [received]
  cases hℓ : ℓ.writes with
  | true =>
    have hcomp : event ∘ reread = Json.reread ∘ @event ℓs := funext event_reread
    simpa [hℓ, hcomp] using hnode
  | false => simpa [hℓ] using hnode

theorem event_isObject {ℓ : Layer} {ℓs : List Layer} (t : Tree (ℓ :: ℓs)) : t.event.isObject :=
  @Node.event_isObject ℓ (Node.map event t)

/-- By induction on the layers. The children of an event are trees of the remaining layers, as
values and possibly reread, and all that is written in them was written in the tree. -/
theorem openDeep_event (name : String) (ℓ : Layer) (ℓs : List Layer) (t : Tree (ℓ :: ℓs))
    {p : Payload} (hp : p.Presents t.event) (h : ∀ v ∈ t.written, Legible Json.depthLimit v) :
    openDeep (Shape.any.model name) p ℓ.envelope (ℓs.map Layer.envelope) = .ok t.outcome := by
  induction ℓs generalizing ℓ p with
  | nil =>
    obtain ⟨r, hr, hvalues⟩ := yields_received t hp fun v hv => h v (List.mem_append_left _ hv)
    have hleaves : t.outcome = (received t).map event :=
      (outcome_received t).trans List.map_eq_flatMap.symm
    rw [← hleaves] at hvalues
    exact (parseWith_ok_iff ..).mpr ⟨r,hr,hvalues.imp fun _ _ => Shape.any_ok_iff.mpr⟩
  | cons ℓ' ℓs ih =>
    obtain ⟨r, hr, hvalues⟩ := yields_received t hp fun v hv => h v (List.mem_append_left _ hv)
    have hobjects : ∀ v ∈ (received t).map event, v.isObject :=
      List.forall_mem_map.mpr fun u _ => u.event_isObject
    have hstage := (Chain.unwrapEvent_ok_iff ..).mpr ⟨r,_,hr,hvalues,hobjects,rfl⟩
    have hchildren : ∀ u ∈ received t, openDeep (Shape.any.model name) (.value u.event)
        ℓ'.envelope (ℓs.map Layer.envelope) = .ok u.outcome :=
      fun u hu => ih ℓ' u (.value _) fun v hv => h v (written_received hu hv)
    rw [List.map_map] at hstage
    refine (openDeep_cons_ok_iff ..).mpr ⟨_,hstage,?_⟩
    exact (Traversal.collect_map_ok hchildren).trans (congrArg _ (outcome_received t).symm)

/-- A chain takes the leaves out of the event that was built around them, in their order, as long
as no text nests deeper than the reader goes. The leaves are reread once if a layer wrote its
children as text, or if the event is given as text. -/
theorem parseChain_event (name : String) {ℓ : Layer} {ℓs : List Layer} (t : Tree (ℓ :: ℓs))
    (hsound : ∀ v ∈ t.written, v.Sound) (hdepth : ∀ v ∈ t.written, v.nesting ≤ 127) :
    parseChain (Shape.any.model name) ((ℓ :: ℓs).map Layer.envelope) (.value t.event) =
      .ok (if (ℓ :: ℓs).any Layer.writes then t.leaves.map Json.reread else t.leaves) ∧
    (t.event.Sound → t.event.nesting ≤ 127 →
      parseChain (Shape.any.model name) ((ℓ :: ℓs).map Layer.envelope) (.text t.event.compact) =
        .ok (t.leaves.map Json.reread)) := by
  have hlegible : ∀ v ∈ t.written, Legible Json.depthLimit v :=
    fun v hv => (hsound v hv).legible (Nat.lt_succ_of_le (hdepth v hv))
  constructor
  · exact (openDeep_ok_iff ..).mpr (t.openDeep_event name ℓ ℓs (.value _) hlegible)
  · intro hevent hnesting
    -- As a text the event reads as that of the tree reread once.
    have hp : (Payload.text t.event.compact).Presents t.reread.event :=
      t.event_reread ▸ .text (hevent.legible (Nat.lt_succ_of_le hnesting))
    have hopen := t.reread.openDeep_event name ℓ ℓs hp
      fun v hv => hlegible v (t.written_reread ▸ hv)
    rw [outcome_reread] at hopen
    exact (openDeep_ok_iff ..).mpr hopen

/-! ## Messages in a queue -/

def queued : Message where
  members := [("messageId", .str "m"), ("receiptHandle", .str "r"), ("md5OfBody", .str "d"),
    ("eventSourceARN", .str "arn:aws:sqs:eu-west-1:1:orders"), ("awsRegion", .str "eu-west-1")]
  nodup := by decide
  typed := ⟨(_, _, [], [], _, _, _, ()),rfl,rfl,⟨nofun,rfl⟩,⟨nofun,rfl⟩,rfl,rfl,rfl,trivial⟩
  free := by decide

def news : Metadata Metadata.busEvent ["detail"] where
  members := [("version", .str "0"), ("id", .str "i"), ("source", .str "orders"),
    ("account", .str "1"), ("time", .str "2024-01-01T00:00:00Z"), ("region", .str "eu-west-1"),
    ("resources", .arr []), ("detail-type", .str "placed")]
  nodup := by decide
  typed := ⟨(_, _, _, _, _, _, [], _, none, ()),rfl,rfl,rfl,rfl,rfl,rfl,rfl,rfl,⟨nofun,rfl⟩,trivial⟩
  free := by decide

def queue {ℓs : List Layer} (children : List (Tree ℓs)) : Tree (.sqs :: ℓs) :=
  Node.sqs ⟨[],by decide,⟨(),trivial⟩,by decide⟩ (children.map fun t => (queued, t))

def order (n : Int) : Json := .mkObj [("order", .num (.int n))]

def orders : Tree [.sqs, .eventBridge] :=
  queue [.eventBridge news (order 1), .eventBridge news (order 2)]

theorem orders_parseChain : (∀ v ∈ orders.written, v.Sound) ∧
    (∀ v ∈ orders.written, v.nesting ≤ 127) ∧
    orders.event.Sound ∧ orders.event.nesting = 3 ∧
    parseChain (Shape.any.model "Value") [.sqs, .eventBridge] (.value orders.event) =
      .ok [order 1, order 2] ∧
    parseChain (Shape.any.model "Value") [.sqs, .eventBridge] (.text orders.event.compact) =
      .ok [order 1, order 2] := by
  have hsound : ∀ v ∈ orders.written, v.Sound := by decide
  have hdepth : ∀ v ∈ orders.written, v.nesting ≤ 127 := by decide
  have hevent : orders.event.Sound := by decide
  have hnesting : orders.event.nesting = 3 := by decide
  exact ⟨hsound,hdepth,hevent,hnesting,(parseChain_event "Value" orders hsound hdepth).1,
    (parseChain_event "Value" orders hsound hdepth).2 hevent (by rw [hnesting]; decide)⟩

/-- `1e-23`, whose digits are read as its neighbour `1.0000000000000001e-23`. -/
def tiny : Binary64 := ⟨false, 6805647338418769, 945⟩

def tinyQueue : Tree [.sqs] := @queue [] [.num (.float tiny)]

def nestedQueue : Tree [.sqs] := @queue [] [Nat.repeat (fun v => .arr [v]) 128 .null]

/-- Not every leaf comes back: some floats are reread as others, and 128 arrays are too many. -/
theorem queue_parseChain_ne_leaves :
    parseChain (Shape.any.model "Value") [.sqs] (.value tinyQueue.event) ≠
      .ok tinyQueue.leaves ∧
    parseChain (Shape.any.model "Value") [.sqs] (.value nestedQueue.event) ≠
      .ok nestedQueue.leaves := by
  constructor
  · intro h
    have hopen := tinyQueue.openDeep_event "Value" .sqs [] (.value _) (by decide +kernel)
    have hleaf : [Json.num (.float (Json.rereadFloat tiny))] = [Json.num (.float tiny)] :=
      Except.ok.inj (hopen.symm.trans ((openDeep_ok_iff ..).mp h))
    have hne : Json.rereadFloat tiny ≠ tiny := by decide +kernel
    simp [hne] at hleaf
  · intro h
    have hfails : (parseChain (Shape.any.model "Value") [.sqs]
        (.value nestedQueue.event)).isOk = false := by decide +kernel
    rw [h] at hfails
    cases hfails

end Tree
end Unseal
