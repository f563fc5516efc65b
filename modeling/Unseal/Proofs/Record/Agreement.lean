import Unseal.Envelope.Sns
import Unseal.Proofs.Record.Normal
import Unseal.Proofs.Record.Standing

/-!
# One pass or two

A text that spells a tree without repeated keys is read in one pass exactly as the value of the
tree is: members come in text order instead of key order, and what no field wants is skipped. Any
other text must also be readable as its tree stands.
-/

set_option autoImplicit false

namespace Unseal

variable {t : Json}

theorem Shape.readText_ok_iff_stands {s : Shape} {text : String} (h : Json.Spells text t)
    (x : s.Carrier) :
    s.readText text = .ok x ↔ (∃ y, s.ofJson t = .ok y) ∧ s.ofJson t.normal = .ok x := by
  obtain ⟨c, ht, hc⟩ := h
  have hread := s.stands t _ _ c ht
  have hone : s.readText text = .ok x ↔ (s.ofJson t).map s.tidy = .ok x := by
    unfold readText
    generalize s.readFrom _ _ = r, (s.ofJson t).map s.tidy = v at hread
    cases hread with
    | @done y =>
      show (TextReader.lift (Json.finish c) >>= _) = _ ↔ _
      rw [hc]
      simp [TextReader.lift, bind, Except.bind]
    | failed => simp [bind, Except.bind]
  rw [hone, Traversal.map_ok_iff]
  constructor
  · rintro ⟨y, hy, rfl⟩
    exact ⟨⟨y,hy⟩,s.ofJson_normal hy⟩
  · rintro ⟨⟨y, hy⟩, hx⟩
    exact ⟨y,hy,Except.ok.inj ((s.ofJson_normal hy).symm.trans hx)⟩

theorem Shape.readText_ok_iff {s : Shape} {text : String} (h : Json.Spells text t)
    (hd : t.Distinct) (x : s.Carrier) :
    s.readText text = .ok x ↔ s.ofJson t.normal = .ok x := by
  rw [readText_ok_iff_stands h]
  exact and_iff_right_of_imp fun hx => s.ofJson_of_normal hd hx

/-- No object in the text repeats a key, whatever escapes the keys are written with. -/
def KeysDistinct (text : String) : Prop :=
  ∃ t, Json.Spells text t ∧ t.Distinct

/-- Over a text in which no object repeats a key, a model of records accepts the text exactly if
it accepts the value that the text reads as, and yields the same. -/
theorem Shape.checkText_ok_iff {s : Shape} {name text : String} {v : Json}
    (hv : (Payload.text text).toJson = .ok v) (hd : KeysDistinct text) (x : s.Carrier) :
    (s.model name).checkText text = .ok x ↔ (s.model name).check v = .ok x := by
  obtain ⟨t, ht, hdt⟩ := hd
  have hnormal : v = t.normal := by
    have hread := (Json.read_ok_iff_spells text t.normal).mpr ⟨t,ht,rfl⟩
    exact Except.ok.inj (hv.symm.trans hread)
  have hsame := readText_ok_iff (s := s) ht hdt x
  subst hnormal
  simp only [model]
  generalize s.readText text = r, s.ofJson t.normal = w at hsame
  cases r <;> cases w
  · simp
  all_goals simpa using hsame

/-- A notification with its members out of order, an escape in a key, an alias, a key that no
field answers to and no subject. -/
def noticeText : String :=
  "\x7b \"Message\" : \"hi\\n\",\n\"T\\u0079pe\":\"Notification\", \"extra\": [12, \x7b\x7d]," ++
  "\"TopicArn\":\"t\", \"MessageId\":\"m\",\t" ++
  "\"SigningCertURL\":\"u\",\"Timestamp\":\"1970-01-01T00:00:00Z\"\x7d"

def noticeTree : Json :=
  .obj [("Message", .str "hi\n"), ("Type", .str "Notification"),
    ("extra", .arr [.num (.int 12), .obj []]), ("TopicArn", .str "t"),
    ("MessageId", .str "m"), ("SigningCertURL", .str "u"),
    ("Timestamp", .str "1970-01-01T00:00:00Z")]

set_option maxRecDepth 4000 in
theorem notice_spells : Json.Spells noticeText noticeTree :=
  ⟨_,.obj rfl (by decide)
    (.part rfl rfl (.str rfl rfl) <| .part rfl rfl (.str rfl rfl) <|
      .part rfl rfl (.arr rfl (by decide) (.part rfl (.number rfl rfl rfl) <|
        .part rfl (.obj rfl (by decide) (.stop rfl) rfl) (.stop rfl)) rfl) <|
      .part rfl rfl (.str rfl rfl) <| .part rfl rfl (.str rfl rfl) <|
      .part rfl rfl (.str rfl rfl) <| .part rfl rfl (.str rfl rfl) (.stop rfl)) rfl,rfl⟩

theorem noticeTree_distinct : noticeTree.Distinct := by
  simp [noticeTree, Json.Distinct, Json.DistinctMembers, Json.DistinctItems]

theorem notice_keysDistinct : KeysDistinct noticeText :=
  ⟨noticeTree,notice_spells,noticeTree_distinct⟩

theorem notice_toJson : (Payload.text noticeText).toJson = .ok noticeTree.normal :=
  (Json.read_ok_iff_spells _ _).mpr ⟨noticeTree,notice_spells,rfl⟩

theorem notice_checkText :
    (Payload.text noticeText).toJson = .ok noticeTree.normal ∧ KeysDistinct noticeText ∧
      (Shape.snsNotification.model "SnsNotification").checkText noticeText =
        .ok ("Notification", "m", "t", none, "hi\n", Instant.epoch, [], none, none, some "u",
          none, ()) :=
  ⟨notice_toJson,notice_keysDistinct,
    (Shape.checkText_ok_iff notice_toJson notice_keysDistinct _).mpr rfl⟩

end Unseal
