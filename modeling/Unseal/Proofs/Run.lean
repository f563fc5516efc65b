import Unseal.Proofs.Schema.Compiled
import Unseal.Run

/-!
# Runs taken apart

A run settles its model and its envelopes first, whatever its event is, and then parses the event.
Here the files stay as they are while it runs.
-/

set_option autoImplicit false

namespace Unseal

theorem bind_run_ok_iff {ε α β : Type} {x : ExceptT ε Id α} {f : α → ExceptT ε Id β} {b : β} :
    (x >>= f).run = .ok b ↔ ∃ a, x.run = .ok a ∧ (f a).run = .ok b := by
  rw [ExceptT.run_bind]
  match x.run with
  | .ok a => exact ⟨fun h => ⟨a,rfl,h⟩,fun ⟨_, ha, h⟩ => by cases ha; exact h⟩
  | .error e => exact ⟨nofun,fun ⟨_, ha, _⟩ => nomatch ha⟩

theorem pure_run_ok_iff {ε α : Type} {a b : α} :
    (pure a : ExceptT ε Id α).run = .ok b ↔ a = b := by
  rw [ExceptT.run_pure]
  exact Except.ok.injEq a b ▸ Iff.rfl

variable {files : FileAccess Id} {o : Options}

def Options.settle (o : Options) (files : FileAccess Id) :
    ExceptT Failure Id (EventParser Json) := do
  let config ← o.resolve files
  let schema ← config.buildModel files
  match Envelope.ofNames config.envelopes with
  | .error e => throw (.ofParse e)
  | .ok envelopes => pure ⟨schema.model, envelopes⟩

theorem Options.settle_ok_iff {parser : EventParser Json} :
    (o.settle files).run = .ok parser ↔ ∃ config, (o.resolve files).run = .ok config ∧
      ∃ schema, (config.buildModel files).run = .ok schema ∧
        ∃ envelopes, Envelope.ofNames config.envelopes = .ok envelopes ∧
          parser = ⟨schema.model, envelopes⟩ := by
  simp only [settle, bind_run_ok_iff]
  refine exists_congr fun config => and_congr_right fun _ => exists_congr fun schema =>
    and_congr_right fun _ => ?_
  cases Envelope.ofNames config.envelopes with
  | error e => exact ⟨nofun,nofun⟩
  | ok envelopes => exact pure_run_ok_iff.trans (by simp [eq_comm])

/-- Neither the event nor the standard input has a part in what is settled. -/
theorem Options.settle_event (event : String) (input : Except FileFault String) :
    { o with event := event }.settle { files with readInput := input } = o.settle files := rfl

theorem Options.run_ok_iff {w : Json} :
    (o.run files).run = .ok w ↔ ∃ parser, (o.settle files).run = .ok parser ∧
      ∃ p, (readEvent files o.event).run = .ok p ∧ ∃ r, parser.parse p = .ok r ∧ r.toJson = w := by
  simp only [run, settle_ok_iff, bind_run_ok_iff]
  constructor
  · rintro ⟨config, hconfig, schema, hschema, h⟩
    cases hnames : Envelope.ofNames config.envelopes with
    | error e =>
      rw [hnames] at h
      cases h
    | ok envelopes =>
      simp only [hnames, bind_run_ok_iff] at h
      obtain ⟨p, hp, h⟩ := h
      refine ⟨_,⟨config,hconfig,schema,hschema,envelopes,hnames,rfl⟩,p,hp,?_⟩
      split at h
      next => cases h
      next r hr => exact ⟨r,hr,pure_run_ok_iff.mp h⟩
  · rintro ⟨_, ⟨config, hconfig, schema, hschema, envelopes, hnames, rfl⟩, p, hp, r, hr, rfl⟩
    refine ⟨config,hconfig,schema,hschema,?_⟩
    simp only [hnames, bind_run_ok_iff]
    refine ⟨p,hp,?_⟩
    change EventParser.parse ((EventParser.ofModel schema.model).withEnvelopes envelopes) p = _
      at hr
    rw [hr]
    exact pure_run_ok_iff.mpr rfl

theorem readEvent_input {t : String} (h : files.readInput = .ok t) :
    (readEvent files "-").run = .ok (.text t) := by
  have hread : (readEvent files "-").run = match files.readInput with
      | .ok text => .ok (.text text)
      | .error f => .error ((Failure.plain f.message).within "cannot read event from stdin") := rfl
  rw [hread, h]

theorem readDocument_ok_iff {t : String} {v : Json} :
    readDocument t false = .ok v ↔ Json.read t = .ok v := by
  rw [readDocument, if_neg Bool.false_ne_true]
  cases Json.read t <;> simp

theorem loadDocument_ok_iff {path t : String} {v : Json} (hyaml : isYamlPath path = false)
    (h : files.readText path = .ok t) :
    (loadDocument files path).run = .ok v ↔ Json.read t = .ok v := by
  unfold loadDocument
  rw [h, hyaml, ← readDocument_ok_iff, bind_run_ok_iff]
  constructor
  · rintro ⟨text, htext, hv⟩
    obtain rfl : .ok t = text := Except.ok.inj htext
    cases hr : readDocument t false with
    | error f =>
      simp only [hr] at hv
      cases hv
    | ok w =>
      simp only [hr] at hv
      exact congrArg _ (pure_run_ok_iff.mp hv)
  · intro hr
    exact ⟨.ok t,rfl,by simp only [hr]; rfl⟩

theorem readEvent_file {path t : String} {p : Payload} (hinput : isInputPath path = false)
    (hyaml : isYamlPath path = false) (h : files.readText path = .ok t) :
    (readEvent files path).run = .ok p ↔ ∃ v, Json.read t = .ok v ∧ p = .value v := by
  have hread : (readEvent files path).run = match (loadDocument files path).run with
      | .ok v => .ok (.value v)
      | .error e => .error (.ofFiles e) := by
    unfold readEvent
    rw [hinput, if_neg Bool.false_ne_true]
    rfl
  rw [hread]
  simp only [← loadDocument_ok_iff hyaml h]
  cases (loadDocument files path).run with
  | error e => exact ⟨nofun,nofun⟩
  | ok v =>
    refine pure_run_ok_iff.trans ?_
    constructor
    · rintro rfl
      exact ⟨v,rfl,rfl⟩
    · rintro ⟨_, hv, rfl⟩
      cases hv
      rfl

/-! ## A schema in a file -/

theorem Config.buildModel_file {c : Config} {path : String}
    (hsource : c.source = .ok (.file path)) {document : Json}
    (hload : (loadDocument files path).run = .ok document) {schema : SchemaModel}
    (hcompile : SchemaModel.compile .empty ((Path.fileName? path).getD "schema") document
      c.unknownFields = .ok schema) : (c.buildModel files).run = .ok schema := by
  have hschema : (loadSchema files path c.unknownFields).run = .ok schema := by
    refine bind_run_ok_iff.mpr ⟨document,hload,?_⟩
    rw [hcompile]
    rfl
  have hbuild : (c.buildModel files).run =
      match (loadSchema files path c.unknownFields).run with
      | .ok s => .ok s
      | .error e => .error ((Failure.ofFiles e).within ("cannot build model from " ++ path)) := by
    unfold buildModel
    rw [hsource]
    rfl
  rw [hbuild, hschema]

def Options.ofSchema (event path : String) (envelopes : List String) : Options :=
  { event := event, schema := some path, envelopes := envelopes }

theorem Options.settle_ofSchema {event path : String} {names : List String}
    {envelopes : List Envelope} (hnames : Envelope.ofNames names = .ok envelopes) {document : Json}
    (hload : (loadDocument files path).run = .ok document) {schema : SchemaModel}
    (hcompile : SchemaModel.compile .empty ((Path.fileName? path).getD "schema") document .inherit =
      .ok schema) :
    ((ofSchema event path names).settle files).run = .ok ⟨schema.model, envelopes⟩ := by
  have hlist : ((ofSchema event path names).override .empty).envelopes = names := by
    cases names <;> rfl
  exact settle_ok_iff.mpr ⟨_,rfl,schema,Config.buildModel_file rfl hload hcompile,envelopes,
    by rw [hlist, hnames],rfl⟩

def plainFiles (event input : String) : FileAccess Id where
  readText := fun path =>
    if path = "any.json" then .ok "true"
    else if path = "event.json" then .ok event
    else .error .notFound
  list := fun _ => .error .notFound
  readInput := .ok input

def plainOptions (event : String) (envelopes : List String) : Options :=
  .ofSchema event "any.json" envelopes

theorem settle_plain (path event input : String) {names : List String} {envelopes : List Envelope}
    (hnames : Envelope.ofNames names = .ok envelopes) :
    ∃ schema : SchemaModel, (∀ v, schema.isValid v = true) ∧
      ((plainOptions path names).settle (plainFiles event input)).run =
        .ok ⟨schema.model, envelopes⟩ := by
  have hname : (Path.fileName? "any.json").getD "schema" = "any.json" := by decide
  have hload : (loadDocument (plainFiles event input) "any.json").run = .ok (.bool true) :=
    (loadDocument_ok_iff (by decide) rfl).mpr rfl
  obtain ⟨schema, hcompile, hvalid⟩ := SchemaModel.compile_true .empty "any.json"
  exact ⟨schema,hvalid,Options.settle_ofSchema hnames hload (by rwa [hname])⟩

end Unseal
