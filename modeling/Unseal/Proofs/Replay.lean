import Unseal.Envelope.Named
import Unseal.Proofs.Record.Restoring
import Unseal.Replay

/-!
# Stored records replay

Whatever an event was read from, its record is stored as an object and restored as the same
record. What is stored is a normal form: a restored record is stored as the same object again.
-/

set_option autoImplicit false

namespace Unseal

def Shape.events : List Shape :=
  [eventBridgeEvent, sqsEvent, snsEvent, snsNotification, kinesisEvent, gatewayRequest]

theorem Shape.check_ok_iff {s : Shape} {name : String} {v : Json} {x : s.Carrier} :
    (s.model name).check v = .ok x ↔ s.ofJson v = .ok x := by
  cases h : s.ofJson v <;> simp [model, h]

theorem Shape.restore_ok_iff {s : Shape} {name : String} {ms : Members Json} {x : s.Carrier} :
    (s.serializer name).restore ms = .ok x ↔ s.ofJson (.obj ms) = .ok x := by
  rw [← @check_ok_iff s name]
  unfold serializer Serializer.ofModel
  dsimp only
  generalize (s.model name).check (.obj ms) = r
  cases r <;> simp

theorem Shape.replays_record {record : String} {strict : Bool} {fs : Fields}
    (hs : (Shape.record record strict fs).storable) {name : String} {v : Json} {x : fs.Carrier}
    (h : ((Shape.record record strict fs).model name).check v = .ok x) :
    ∃ d, ((Shape.record record strict fs).serializer name).store x = .ok d ∧
      ((Shape.record record strict fs).serializer name).restore d = .ok x := by
  have hx := (Shape.record record strict fs).restores hs (check_ok_iff.mp h)
  exact ⟨Members.ofList (fs.members x),rfl,restore_ok_iff.mpr hx.1⟩

/-- Every event record that a model reads from a value, in whatever spelling, is stored, restored
as it was, and stored as the same object again. -/
theorem Shape.replays {s : Shape} (hs : s ∈ Shape.events) {name : String} {v : Json}
    {x : s.Carrier} (h : (s.model name).check v = .ok x) :
    ∃ d, (s.serializer name).store x = .ok d ∧ (s.serializer name).restore d = .ok x ∧
      ((s.serializer name).restore d >>= (s.serializer name).store) = .ok d := by
  obtain ⟨d, hstore, hrestore⟩ : ∃ d, (s.serializer name).store x = .ok d ∧
      (s.serializer name).restore d = .ok x := by
    simp only [events, List.mem_cons, List.not_mem_nil, or_false] at hs
    rcases hs with rfl | rfl | rfl | rfl | rfl | rfl
    all_goals exact replays_record (by decide) h
  exact ⟨d,hstore,hrestore,Traversal.bind_ok_iff.mpr ⟨x,hrestore,hstore⟩⟩

def leapSecond : Instant :=
  ⟨⟨2016, 12, 31, by decide, by decide, by decide⟩, 86399, 1500000000, by decide, by decide⟩

/-- A notification under an alias, on a clock ahead, with a null subject and no attributes. -/
def leapNotice : Json :=
  .obj [("Message", .str "hi"), ("MessageId", .str "m"), ("SigningCertURL", .str "u"),
    ("Subject", .null), ("Timestamp", .str "2017-01-01 01:29:60.500+01:30"),
    ("TopicArn", .str "t"), ("Type", .str "Notification")]

def leapRecord : SnsNotification :=
  ("Notification", "m", "t", none, "hi", leapSecond, [], none, none, some "u", none, ())

theorem leapNotice_replays :
    Shape.snsNotification ∈ Shape.events ∧
    (Shape.snsNotification.model "SnsNotification").check leapNotice = .ok leapRecord ∧
    ∃ d, (Shape.snsNotification.serializer "SnsNotification").store leapRecord = .ok d ∧
      (Shape.snsNotification.serializer "SnsNotification").restore d = .ok leapRecord ∧
      ((Shape.snsNotification.serializer "SnsNotification").restore d >>=
        (Shape.snsNotification.serializer "SnsNotification").store) = .ok d := by
  have hmem : Shape.snsNotification ∈ Shape.events := by simp [Shape.events]
  have hcheck : (Shape.snsNotification.model "SnsNotification").check leapNotice =
      .ok leapRecord := rfl
  exact ⟨hmem,hcheck,Shape.replays hmem hcheck⟩

end Unseal
