import Unseal.Proofs.Chain.Batch
import Unseal.Proofs.Record.Agreement
import Unseal.Proofs.Rendering

/-!
# Standard input and event files

The standard input reaches the parser as a text, the event in a file as the value of its text. Most
envelopes read the record of an event from a text in one pass, and then keys that are repeated in
the text matter, and what the record has no field for does not.
-/

set_option autoImplicit false

namespace Unseal

open Traversal

variable {t : Json} {text : String}

namespace Source

/-- The record that a source reads from a text in one pass. Bus events are first read as values. -/
def shape? : Source → Option Shape
  | eventBridge => none
  | sqs => some .sqsEvent
  | sns => some .snsEvent
  | snsSqs => some .sqsEvent
  | kinesis => some .kinesisEvent
  | apiGateway => some .gatewayRequest

def firstShape? : List String → Option Shape
  | [] => none
  | name :: _ => (ofName? name).bind shape?

theorem firstShape?_cons {name : String} {names : List String} {source : Source}
    (h : ofName? name = some source) : firstShape? (name :: names) = source.shape? := by
  rw [firstShape?, h]
  rfl

/-- The first of the named sources, if it reads in one pass, finds its record in the tree as it
stands. -/
def Admits (names : List String) (t : Json) : Prop :=
  ∀ s, firstShape? names = some s → ∃ x, s.ofJson t = .ok x

end Source

/-! ## One envelope -/

namespace Source

variable {source : Source} {q : Parsed Payload}

theorem extract_eq_unwrap {s : Shape} (h : source.shape? = some s) :
    ∃ (name : String) (k : s.Carrier → Except ParseError (Parsed Payload)),
      ∀ p, source.envelope.extract p = s.unwrap name p >>= k := by
  cases source with
  | eventBridge => cases h
  | _ =>
    cases h
    exact ⟨_,_,fun _ => rfl⟩

theorem extract_record_ok_iff {s : Shape} (hs : source.shape? = some s)
    (ht : Json.Spells text t) : source.envelope.extract (.text text) = .ok q ↔
      (∃ x, s.ofJson t = .ok x) ∧ source.envelope.extract (.value t.normal) = .ok q := by
  obtain ⟨name, k, hextract⟩ := extract_eq_unwrap hs
  simp only [hextract, bind_ok_iff, Shape.unwrap_text_ok_iff, Shape.unwrap_value_ok_iff,
    Shape.readText_ok_iff_stands ht]
  simp only [and_assoc, exists_and_left]

theorem extract_value_ok_iff (hs : source.shape? = none) :
    source.envelope.extract (.text text) = .ok q ↔
      ∃ v, Json.read text = .ok v ∧ source.envelope.extract (.value v) = .ok q := by
  cases source with
  | eventBridge =>
    simp only [envelope, Envelope.eventBridge, Payload.toJson]
    cases Json.read text with
    | error f => simp [orInvalid, bind, Except.bind]
    | ok v => simp
  | _ => cases hs

end Source

/-! ## One event -/

theorem Envelope.ofNames_cons {name : String} {names : List String} {envelopes : List Envelope}
    (h : ofNames (name :: names) = .ok envelopes) :
    ∃ source rest, Source.ofName? name = some source ∧ envelopes = source.envelope :: rest := by
  rw [ofNames, List.mapM_cons] at h
  obtain ⟨e, he, h⟩ := bind_ok_iff.mp h
  obtain ⟨rest, -, ⟨⟩⟩ := bind_ok_iff.mp h
  unfold ofName at he
  split at he
  next source hsource =>
    cases he
    exact ⟨source,rest,hsource,rfl⟩
  next => cases he

namespace EventParser

theorem parse_cons {α : Type} (m : Model α) (e : Envelope) (es : List Envelope) :
    ∃ k : Parsed Payload → Except ParseError (Parsed α),
      ∀ p, (EventParser.mk m (e :: es)).parse p = e.extract p >>= k := by
  cases es with
  | nil => exact ⟨_,fun _ => rfl⟩
  | cons e' es =>
    refine ⟨fun q => (do
      let values ← q.mapM fun q => orInvalid (Chain.anyModel.checkPayload q)
      let next ← values.toList.mapM (Chain.asEvent e)
      Chain.run m ([next].flatten) (e' :: es)).map .many,fun p => ?_⟩
    rw [parse_several, parseChain, Chain.run_cons_cons, Chain.stage, List.mapM_cons, List.mapM_nil,
      Chain.unwrapEvent, parseWith]
    cases e.extract p with
    | error err => rfl
    | ok q =>
      simp only [bind_assoc, pure_bind]
      rfl

variable {schema : SchemaModel} {names : List String} {envelopes : List Envelope} {r : Parsed Json}

theorem parse_record_ok_iff {s : Shape} (hnames : Envelope.ofNames names = .ok envelopes)
    (hs : Source.firstShape? names = some s) (ht : Json.Spells text t) :
    (EventParser.mk schema.model envelopes).parse (.text text) = .ok r ↔
      (∃ x, s.ofJson t = .ok x) ∧
        (EventParser.mk schema.model envelopes).parse (.value t.normal) = .ok r := by
  cases names with
  | nil => cases hs
  | cons name names =>
    obtain ⟨source, rest, hsource, rfl⟩ := Envelope.ofNames_cons hnames
    rw [Source.firstShape?_cons hsource] at hs
    obtain ⟨k, hparse⟩ := parse_cons schema.model source.envelope rest
    simp only [hparse, bind_ok_iff, Source.extract_record_ok_iff hs ht]
    simp only [and_assoc, exists_and_left]

theorem parse_value_ok_iff (hnames : Envelope.ofNames names = .ok envelopes)
    (hs : Source.firstShape? names = none) :
    (EventParser.mk schema.model envelopes).parse (.text text) = .ok r ↔
      ∃ v, Json.read text = .ok v ∧
        (EventParser.mk schema.model envelopes).parse (.value v) = .ok r := by
  cases names with
  | nil =>
    obtain rfl : [] = envelopes := Except.ok.inj hnames
    simp only [parse_none, map_ok_iff, schema.parse_ok_iff, Payload.toJson]
    constructor
    · rintro ⟨v, ⟨hv, hvalid⟩, rfl⟩
      exact ⟨v,hv,v,⟨rfl,hvalid⟩,rfl⟩
    · rintro ⟨v, hv, _, ⟨⟨⟩, hvalid⟩, rfl⟩
      exact ⟨v,⟨hv,hvalid⟩,rfl⟩
  | cons name names =>
    obtain ⟨source, rest, hsource, rfl⟩ := Envelope.ofNames_cons hnames
    rw [Source.firstShape?_cons hsource] at hs
    obtain ⟨k, hparse⟩ := parse_cons schema.model source.envelope rest
    simp only [hparse, bind_ok_iff, Source.extract_value_ok_iff hs]
    constructor
    · rintro ⟨q, ⟨v, hv, hq⟩, hr⟩
      exact ⟨v,hv,q,hq,hr⟩
    · rintro ⟨v, hv, q, hq, hr⟩
      exact ⟨q,⟨v,hv,hq⟩,hr⟩

theorem parse_text_ok_iff (hnames : Envelope.ofNames names = .ok envelopes)
    (ht : Json.Spells text t) :
    (EventParser.mk schema.model envelopes).parse (.text text) = .ok r ↔
      (EventParser.mk schema.model envelopes).parse (.value t.normal) = .ok r ∧
        Source.Admits names t := by
  have hread : Json.read text = .ok t.normal := (Json.read_ok_iff_spells _ _).mpr ⟨t,ht,rfl⟩
  cases hs : Source.firstShape? names with
  | some s => simp [parse_record_ok_iff hnames hs ht, Source.Admits, hs, and_comm]
  | none => simp [parse_value_ok_iff hnames hs, hread, Source.Admits, hs]

theorem admits_of_parse (hnames : Envelope.ofNames names = .ok envelopes) (hd : t.Distinct)
    (h : (EventParser.mk schema.model envelopes).parse (.value t.normal) = .ok r) :
    Source.Admits names t := by
  intro s hs
  cases names with
  | nil => cases hs
  | cons name names =>
    obtain ⟨source, rest, hsource, rfl⟩ := Envelope.ofNames_cons hnames
    rw [Source.firstShape?_cons hsource] at hs
    obtain ⟨k, hparse⟩ := parse_cons schema.model source.envelope rest
    obtain ⟨_, k', hextract⟩ := Source.extract_eq_unwrap hs
    rw [hparse, hextract] at h
    obtain ⟨_, h, -⟩ := bind_ok_iff.mp h
    obtain ⟨x, hx, -⟩ := bind_ok_iff.mp h
    exact s.ofJson_of_normal hd (Shape.unwrap_value_ok_iff.mp hx)

end EventParser

/-! ## Runs -/

section Runs

variable (files : FileAccess Id) (o : Options) {path : String} {w : Json}

theorem Options.run_input_ok_iff (hinput : files.readInput = .ok text) :
    ({ o with event := "-" }.run files).run = .ok w ↔
      ∃ parser, (o.settle files).run = .ok parser ∧
        ∃ r, parser.parse (.text text) = .ok r ∧ r.toJson = w := by
  rw [run_ok_iff]
  refine exists_congr fun parser => and_congr .rfl ?_
  change (∃ p, (readEvent files "-").run = .ok p ∧ _) ↔ _
  constructor
  · rintro ⟨p, hp, h⟩
    cases (readEvent_input hinput).symm.trans hp
    exact h
  · exact fun h => ⟨_,readEvent_input hinput,h⟩

theorem Options.run_file_ok_iff (hpath : isInputPath path = false)
    (hyaml : isYamlPath path = false) (hfile : files.readText path = .ok text) :
    ({ o with event := path }.run files).run = .ok w ↔
      ∃ parser, (o.settle files).run = .ok parser ∧
        ∃ v, Json.read text = .ok v ∧ ∃ r, parser.parse (.value v) = .ok r ∧ r.toJson = w := by
  rw [run_ok_iff]
  refine exists_congr fun parser => and_congr .rfl ?_
  change (∃ p, (readEvent files path).run = .ok p ∧ _) ↔ _
  simp only [readEvent_file hpath hyaml hfile]
  constructor
  · rintro ⟨_, ⟨v, hv, rfl⟩, h⟩
    exact ⟨v,hv,h⟩
  · rintro ⟨v, hv, h⟩
    exact ⟨_,⟨v,hv,rfl⟩,h⟩

theorem Options.run_input_iff_of_spells (hpath : isInputPath path = false)
    (hyaml : isYamlPath path = false) (hfile : files.readText path = .ok text)
    (hinput : files.readInput = .ok text) (ht : Json.Spells text t) :
    ({ o with event := "-" }.run files).run = .ok w ↔
      ({ o with event := path }.run files).run = .ok w ∧
        ∀ config, (o.resolve files).run = .ok config → Source.Admits config.envelopes t := by
  rw [o.run_input_ok_iff files hinput, o.run_file_ok_iff files hpath hyaml hfile]
  have hread : Json.read text = .ok t.normal := (Json.read_ok_iff_spells _ _).mpr ⟨t,ht,rfl⟩
  constructor
  · rintro ⟨parser, hsettle, r, hr, hw⟩
    obtain ⟨config, hconfig, schema, -, envelopes, hnames, rfl⟩ := settle_ok_iff.mp hsettle
    obtain ⟨hvalue, hadmits⟩ := (EventParser.parse_text_ok_iff hnames ht).mp hr
    refine ⟨⟨_,hsettle,_,hread,r,hvalue,hw⟩,fun config' hconfig' => ?_⟩
    cases hconfig.symm.trans hconfig'
    exact hadmits
  · rintro ⟨⟨parser, hsettle, v, hv, r, hr, hw⟩, hadmits⟩
    obtain ⟨config, hconfig, schema, -, envelopes, hnames, rfl⟩ := settle_ok_iff.mp hsettle
    cases hread.symm.trans hv
    exact ⟨_,hsettle,r,(EventParser.parse_text_ok_iff hnames ht).mpr
      ⟨hr,hadmits config hconfig⟩,hw⟩

theorem Options.run_input_iff_of_distinct (hpath : isInputPath path = false)
    (hyaml : isYamlPath path = false) (hfile : files.readText path = .ok text)
    (hinput : files.readInput = .ok text) (hd : KeysDistinct text) :
    ({ o with event := "-" }.run files).run = .ok w ↔
      ({ o with event := path }.run files).run = .ok w := by
  obtain ⟨t, ht, hdt⟩ := hd
  rw [o.run_input_iff_of_spells files hpath hyaml hfile hinput ht]
  refine and_iff_left_of_imp fun hrun config hconfig => ?_
  obtain ⟨parser, hsettle, v, hv, r, hr, -⟩ := (o.run_file_ok_iff files hpath hyaml hfile).mp hrun
  obtain ⟨config', hconfig', schema, -, envelopes, hnames, rfl⟩ := settle_ok_iff.mp hsettle
  cases hconfig.symm.trans hconfig'
  cases hv.symm.trans ((Json.read_ok_iff_spells _ _).mpr ⟨t,ht,rfl⟩)
  exact EventParser.admits_of_parse hnames hdt hr

theorem Options.run_input_iff_of_values (hpath : isInputPath path = false)
    (hyaml : isYamlPath path = false) (hfile : files.readText path = .ok text)
    (hinput : files.readInput = .ok text)
    (hs : ∀ config, (o.resolve files).run = .ok config →
      Source.firstShape? config.envelopes = none) :
    ({ o with event := "-" }.run files).run = .ok w ↔
      ({ o with event := path }.run files).run = .ok w := by
  rw [o.run_input_ok_iff files hinput, o.run_file_ok_iff files hpath hyaml hfile]
  refine exists_congr fun parser => and_congr_right fun hsettle => ?_
  obtain ⟨config, hconfig, schema, -, envelopes, hnames, rfl⟩ := settle_ok_iff.mp hsettle
  simp only [EventParser.parse_value_ok_iff hnames (hs config hconfig)]
  constructor
  · rintro ⟨r, ⟨v, hv, hr⟩, hw⟩
    exact ⟨v,hv,r,hr,hw⟩
  · rintro ⟨v, hv, r, hr, hw⟩
    exact ⟨r,⟨v,hv,hr⟩,hw⟩

end Runs

/-- A run on a text from the standard input succeeds exactly if a run on a file with the text does
with the same result, and the first envelope, if it reads the text in one pass, also finds its
record there with all keys as they are repeated. So the two agree when no object repeats a key, and
over all texts when the first envelope takes values. No run succeeds on a file whose text cannot be
read. -/
theorem Options.run_input_iff_run_file (files : FileAccess Id) (o : Options) {path text : String}
    (hpath : isInputPath path = false) (hyaml : isYamlPath path = false)
    (hfile : files.readText path = .ok text) (hinput : files.readInput = .ok text) (w : Json) :
    (∀ t, Json.Spells text t →
      (({ o with event := "-" }.run files).run = .ok w ↔
        ({ o with event := path }.run files).run = .ok w ∧
          ∀ config, (o.resolve files).run = .ok config → Source.Admits config.envelopes t)) ∧
    (KeysDistinct text ∨ (∀ config, (o.resolve files).run = .ok config →
        Source.firstShape? config.envelopes = none) →
      (({ o with event := "-" }.run files).run = .ok w ↔
        ({ o with event := path }.run files).run = .ok w)) ∧
    (({ o with event := path }.run files).run = .ok w → ∃ t, Json.Spells text t) := by
  refine ⟨fun t ht => o.run_input_iff_of_spells files hpath hyaml hfile hinput ht,?_,?_⟩
  · intro h
    rcases h with hd | hs
    · exact o.run_input_iff_of_distinct files hpath hyaml hfile hinput hd
    · exact o.run_input_iff_of_values files hpath hyaml hfile hinput hs
  · intro h
    obtain ⟨parser, -, v, hv, -⟩ := (o.run_file_ok_iff files hpath hyaml hfile).mp h
    obtain ⟨t, ht, -⟩ := (Json.read_ok_iff_spells _ _).mp hv
    exact ⟨t,ht⟩

/-! ## Batches of no records -/

section Batches

theorem plainEvent_isInput : isInputPath "event.json" = false := by decide

theorem plainEvent_isYaml : isYamlPath "event.json" = false := by decide

theorem parse_empty_batch (schema : SchemaModel) {p : Payload}
    (h : Envelope.sqs.extract p = .ok (.many [])) :
    (EventParser.mk schema.model [.sqs]).parse p = .ok (.many []) := by
  rw [EventParser.parse_one, parseWith, h]
  rfl

theorem run_input_empty_batch (h : Envelope.sqs.extract (.text text) = .ok (.many [])) :
    ((plainOptions "-" ["sqs"]).run (plainFiles text text)).run = .ok (.arr []) := by
  obtain ⟨schema, -, hsettle⟩ := settle_plain "-" text text
    (rfl : Envelope.ofNames ["sqs"] = .ok [.sqs])
  exact ((plainOptions "-" ["sqs"]).run_input_ok_iff (plainFiles text text) rfl).mpr
    ⟨_,hsettle,.many [],parse_empty_batch schema h,rfl⟩

theorem run_file_empty_batch (ht : Json.Spells text t)
    (h : Envelope.sqs.extract (.value t.normal) = .ok (.many [])) :
    ((plainOptions "event.json" ["sqs"]).run (plainFiles text text)).run = .ok (.arr []) := by
  obtain ⟨schema, -, hsettle⟩ := settle_plain "event.json" text text
    (rfl : Envelope.ofNames ["sqs"] = .ok [.sqs])
  have hread := (Json.read_ok_iff_spells text t.normal).mpr ⟨t,ht,rfl⟩
  exact ((plainOptions "event.json" ["sqs"]).run_file_ok_iff (plainFiles text text)
    plainEvent_isInput plainEvent_isYaml rfl).mpr
      ⟨_,hsettle,t.normal,hread,.many [],parse_empty_batch schema h,rfl⟩

/-- A batch that repeats a key no field answers to. -/
def spareText : String := "\x7b\"Records\":[],\"extra\":[\x7b\x7d],\"extra\":0\x7d"

def spareTree : Json :=
  .obj [("Records", .arr []), ("extra", .arr [.obj []]), ("extra", .num (.int 0))]

theorem spare_spells : Json.Spells spareText spareTree :=
  ⟨_,.obj rfl (by decide) (.part rfl rfl (.arr rfl (by decide) (.stop rfl) rfl) <|
    .part rfl rfl (.arr rfl (by decide) (.part rfl (.obj rfl (by decide) (.stop rfl) rfl)
      (.stop rfl)) rfl) <|
    .part rfl rfl (.number rfl rfl rfl) (.stop rfl)) rfl,rfl⟩

theorem spare_admitted : Source.Admits ["sqs"] spareTree := by
  intro s hs
  cases hs
  exact ⟨_,rfl⟩

theorem spare_runs :
    isInputPath "event.json" = false ∧ isYamlPath "event.json" = false ∧
    (plainFiles spareText spareText).readText "event.json" = .ok spareText ∧
    (plainFiles spareText spareText).readInput = .ok spareText ∧
    Json.Spells spareText spareTree ∧
    ((plainOptions "event.json" ["sqs"]).run (plainFiles spareText spareText)).run =
      .ok (.arr []) ∧
    ((plainOptions "-" ["sqs"]).run (plainFiles spareText spareText)).run = .ok (.arr []) := by
  have hfile := run_file_empty_batch spare_spells rfl
  have hboth := (plainOptions "event.json" ["sqs"]).run_input_iff_run_file
    (plainFiles spareText spareText) plainEvent_isInput plainEvent_isYaml rfl rfl (.arr [])
  refine ⟨plainEvent_isInput,plainEvent_isYaml,rfl,rfl,spare_spells,hfile,?_⟩
  refine (hboth.1 spareTree spare_spells).mpr ⟨hfile,fun config hconfig => ?_⟩
  cases hconfig
  exact spare_admitted

def twiceText : String := "\x7b\"Records\":[],\"Records\":[]\x7d"

def twiceTree : Json := .obj [("Records", .arr []), ("Records", .arr [])]

theorem twice_spells : Json.Spells twiceText twiceTree :=
  ⟨_,.obj rfl (by decide) (.part rfl rfl (.arr rfl (by decide) (.stop rfl) rfl) <|
    .part rfl rfl (.arr rfl (by decide) (.stop rfl) rfl) (.stop rfl)) rfl,rfl⟩

theorem twice_refused : ¬Source.Admits ["sqs"] twiceTree := by
  intro h
  obtain ⟨x, hx⟩ := h .sqsEvent rfl
  cases hx

def halfText : String := "\x7b\"Records\":[],\"extra\":\"\\ud800\"\x7d"

theorem half_unreadable : (Json.read halfText).isOk = false := by decide +kernel

/-- From a file the last list of records counts, and from the standard input there must be one; but
there a text is accepted that cannot be read as a value. -/
theorem empty_batches_differ :
    isInputPath "event.json" = false ∧ isYamlPath "event.json" = false ∧
    (∀ text, (plainFiles text text).readText "event.json" = .ok text ∧
      (plainFiles text text).readInput = .ok text) ∧
    ((plainOptions "event.json" ["sqs"]).run (plainFiles twiceText twiceText)).run =
      .ok (.arr []) ∧
    ((plainOptions "-" ["sqs"]).run (plainFiles twiceText twiceText)).run ≠ .ok (.arr []) ∧
    ((plainOptions "-" ["sqs"]).run (plainFiles halfText halfText)).run = .ok (.arr []) ∧
    ((plainOptions "event.json" ["sqs"]).run (plainFiles halfText halfText)).run ≠
      .ok (.arr []) := by
  refine ⟨plainEvent_isInput,plainEvent_isYaml,fun text => ⟨rfl,rfl⟩,
    run_file_empty_batch twice_spells rfl,?_,run_input_empty_batch rfl,?_⟩
  · intro hinput
    have hboth := ((plainOptions "event.json" ["sqs"]).run_input_iff_of_spells
      (plainFiles twiceText twiceText) plainEvent_isInput plainEvent_isYaml rfl rfl
        twice_spells).mp hinput
    exact twice_refused (hboth.2 _ rfl)
  · intro hfile
    obtain ⟨_, -, v, hv, -⟩ := ((plainOptions "event.json" ["sqs"]).run_file_ok_iff
      (plainFiles halfText halfText) plainEvent_isInput plainEvent_isYaml rfl).mp hfile
    have hread := half_unreadable
    rw [hv] at hread
    cases hread

end Batches

end Unseal
