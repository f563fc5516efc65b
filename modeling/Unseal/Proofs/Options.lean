import Unseal.Proofs.Run

/-!
# Options over a configuration

Three options say where the schema is. They are laid over a configuration one after another, and
each empties the fields that it takes the place of, those of an option before it included. Whether
what is left names one source is asked only afterwards. So an option may be lost without a trace:
with all three of them given the schema file is, and the run goes on with the directory.
-/

set_option autoImplicit false

namespace Unseal

/-- The options that say where the schema is. Each has a field of the configuration to itself. -/
inductive Origin where
  | schema | schemaDirectory | model
deriving DecidableEq, Repr

def Options.given (o : Options) : Origin → Option String
  | .schema => o.schema
  | .schemaDirectory => o.schemaDirectory
  | .model => o.model

def Config.held (c : Config) : Origin → Option String
  | .schema => c.schema
  | .schemaDirectory => c.schemaDirectory
  | .model => c.model

/-! ## Sources -/

section
variable {c : Config}

theorem Config.source_ok_iff {s : Config.Source} :
    c.source = .ok s ↔
      (∃ path, s = .file path ∧ c.schema = some path ∧ c.schemaDirectory = none ∧ c.model = none) ∨
      (∃ directory name, s = .named directory name ∧
        c.schema = none ∧ c.schemaDirectory = some directory ∧ c.model = some name) := by
  obtain ⟨schema, directory, model, envelopes, policy⟩ := c
  cases schema <;> cases directory <;> cases model <;> simp [source, eq_comm]

theorem Config.source_combined (hschema : c.schema.isSome = true)
    (hother : c.schemaDirectory.isSome = true ∨ c.model.isSome = true) :
    c.source = .error "schema cannot be combined with schema_dir or model" := by
  obtain ⟨schema, directory, model, envelopes, policy⟩ := c
  obtain ⟨path, rfl⟩ := Option.isSome_iff_exists.mp hschema
  cases directory with
  | some directory => cases model <;> rfl
  | none =>
    cases model with
    | some name => rfl
    | none => simp at hother

theorem Config.buildModel_of_source_error {m : Type → Type} [Monad m] {files : FileAccess m}
    {reason : String} (h : c.source = .error reason) :
    c.buildModel files = throw (.plain reason) := by
  unfold buildModel
  rw [h]

theorem Config.buildModel_named {files : FileAccess Id} {path name : String}
    (hsource : c.source = .ok (.named path name)) {d : SchemaDirectory}
    (hload : (SchemaDirectory.load files path).run = .ok d) {document : Json}
    (hfind : d.find? name = some document) {schema : SchemaModel}
    (hcompile : SchemaModel.compile d.index name document c.unknownFields = .ok schema) :
    (c.buildModel files).run = .ok schema := by
  have hmodel : d.model name c.unknownFields = .ok schema := by
    unfold SchemaDirectory.model
    simp only [hfind, hcompile]
  unfold buildModel
  rw [hsource]
  refine bind_run_ok_iff.mpr ⟨.ok d,congrArg Except.ok hload,?_⟩
  simp only [hmodel]
  rfl

end

def Config.Refused (files : FileAccess Id) (c : Config) : Prop :=
  ∃ failure, (c.buildModel files).run = .error failure

theorem Config.refused_or_source (files : FileAccess Id) (c : Config) :
    c.Refused files ∨ ∃ s, c.source = .ok s := by
  cases hsource : c.source with
  | ok s => exact .inr ⟨s,rfl⟩
  | error reason => exact .inl ⟨.plain reason,by rw [buildModel_of_source_error hsource]; rfl⟩

/-! ## What the options leave -/

namespace Options

variable (o : Options) (c : Config)

theorem override_schema :
    (o.override c).schema =
      if o.schemaDirectory.isSome || o.model.isSome then none else o.schema.or c.schema := by
  obtain ⟨event, config, schema, directory, model, envelopes, policy, compact⟩ := o
  cases schema <;> cases directory <;> cases model <;> rfl

theorem override_schemaDirectory :
    (o.override c).schemaDirectory =
      o.schemaDirectory.or (if o.schema.isSome then none else c.schemaDirectory) := by
  obtain ⟨event, config, schema, directory, model, envelopes, policy, compact⟩ := o
  cases schema <;> cases directory <;> cases model <;> rfl

theorem override_model :
    (o.override c).model = o.model.or (if o.schema.isSome then none else c.model) := by
  obtain ⟨event, config, schema, directory, model, envelopes, policy, compact⟩ := o
  cases schema <;> cases directory <;> cases model <;> rfl

/-- Nothing comes after the directory and the name that could empty their fields. -/
theorem override_held {s : Origin} (hs : s ≠ .schema) {value : String}
    (h : o.given s = some value) : (o.override c).held s = some value := by
  cases s with
  | schema => exact absurd rfl hs
  | schemaDirectory =>
    have hdirectory : o.schemaDirectory = some value := h
    exact (o.override_schemaDirectory c).trans (by rw [hdirectory]; rfl)
  | model =>
    have hname : o.model = some value := h
    exact (o.override_model c).trans (by rw [hname]; rfl)

def Overloaded : Prop := ∀ s, (o.given s).isSome = true

variable {o c}

theorem overloaded_iff :
    o.Overloaded ↔ ∃ path directory name,
      o.schema = some path ∧ o.schemaDirectory = some directory ∧ o.model = some name := by
  constructor
  · intro h
    obtain ⟨path, hpath⟩ := Option.isSome_iff_exists.mp (h .schema)
    obtain ⟨directory, hdirectory⟩ := Option.isSome_iff_exists.mp (h .schemaDirectory)
    obtain ⟨name, hname⟩ := Option.isSome_iff_exists.mp (h .model)
    exact ⟨path,directory,name,hpath,hdirectory,hname⟩
  · rintro ⟨path, directory, name, hpath, hdirectory, hname⟩ s
    cases s <;> simp [given, hpath, hdirectory, hname]

/-- The schema file is held where a source is named, unless it is a directory's: then both of the
other options are there too, as the schema file has emptied what the configuration had. -/
theorem override_schema_held {path : String} (h : o.schema = some path) {s : Config.Source}
    (hsource : (o.override c).source = .ok s) :
    (o.override c).schema = some path ∨ o.Overloaded := by
  rcases Config.source_ok_iff.mp hsource with
    ⟨_, -, hschema, -, -⟩ | ⟨directory, name, -, -, hdirectory, hname⟩
  · left
    rw [override_schema, h] at hschema
    rw [override_schema, h]
    split at hschema
    next => cases hschema
    next hother => exact if_neg hother
  · right
    rw [override_schemaDirectory, h] at hdirectory
    rw [override_model, h] at hname
    exact overloaded_iff.mpr ⟨path,directory,name,h,by simpa using hdirectory,by simpa using hname⟩

theorem override_of_overloaded (h : o.Overloaded) (c : Config) :
    (o.override c).schema = none ∧ ∃ directory name, o.schemaDirectory = some directory ∧
      o.model = some name ∧ (o.override c).source = .ok (.named directory name) := by
  obtain ⟨path, directory, name, hpath, hdirectory, hname⟩ := overloaded_iff.mp h
  have hschema : (o.override c).schema = none := by
    rw [override_schema, hdirectory]
    rfl
  refine ⟨hschema,directory,name,hdirectory,hname,Config.source_ok_iff.mpr (.inr ?_)⟩
  exact ⟨directory,name,rfl,hschema,by rw [override_schemaDirectory, hdirectory]; rfl,
    by rw [override_model, hname]; rfl⟩

theorem override_without_schema (h : o.Overloaded) :
    { o with schema := none }.override = o.override := by
  obtain ⟨path, directory, name, hpath, hdirectory, hname⟩ := overloaded_iff.mp h
  obtain ⟨event, config, schema, _, _, envelopes, policy, compact⟩ := o
  subst hpath hdirectory hname
  rfl

/-! ## Options resolved -/

section
variable {m : Type → Type} [Monad m]

def base (o : Options) (files : FileAccess m) : ExceptT Failure m Config :=
  match o.config with
  | none => pure .empty
  | some path => Config.load files path

variable [LawfulMonad m] (files : FileAccess m)

theorem resolve_eq (o : Options) : o.resolve files = o.override <$> o.base files := by
  unfold resolve base
  cases o.config with
  | none => exact (map_pure _ _).symm
  | some path => exact bind_pure_comp _ _

theorem resolve_without_schema (h : o.Overloaded) :
    { o with schema := none }.resolve files = o.resolve files := by
  rw [resolve_eq, resolve_eq, override_without_schema h]
  rfl

theorem run_without_schema (h : o.Overloaded) :
    { o with schema := none }.run files = o.run files := by
  unfold run
  rw [resolve_without_schema files h]

end

variable {files : FileAccess Id}

theorem resolve_ok_iff :
    (o.resolve files).run = .ok c ↔ ∃ b, (o.base files).run = .ok b ∧ o.override b = c := by
  rw [resolve_eq, map_eq_pure_bind, bind_run_ok_iff]
  exact exists_congr fun b => and_congr_right fun _ => pure_run_ok_iff

/-- An option for the schema is held by what the options resolve to, or no model is made of it,
except that the schema file is lost where all three are given and the directory has such a model.
A configuration that holds all three itself is refused. -/
theorem resolve_given (h : (o.resolve files).run = .ok c) :
    (∀ s value, o.given s = some value →
      ((c.held s = some value ∨ c.Refused files) ↔
        (s = .schema → o.Overloaded → c.Refused files))) ∧
    (o.Overloaded → c.schema = none ∧
      (∃ directory name, o.schemaDirectory = some directory ∧ o.model = some name ∧
        c.source = .ok (.named directory name)) ∧
      { o with schema := none }.resolve files = o.resolve files ∧
      ({ c with schema := o.schema }.buildModel files).run =
        .error (.plain "schema cannot be combined with schema_dir or model")) := by
  obtain ⟨b, -, rfl⟩ := resolve_ok_iff.mp h
  constructor
  · intro s value hgiven
    constructor
    · rintro (hheld | hrefused) rfl hover
      · cases (override_of_overloaded hover b).1.symm.trans hheld
      · exact hrefused
    · intro hcase
      -- Only the schema file can be lost, to an option that is laid over it later.
      by_cases hs : s = .schema
      · subst hs
        rcases Config.refused_or_source files (o.override b) with hrefused | ⟨source, hsource⟩
        · exact .inr hrefused
        · exact (override_schema_held hgiven hsource).imp_right (hcase rfl)
      · exact .inl (override_held o b hs hgiven)
  · intro hover
    obtain ⟨hnone, directory, name, hdirectory, hname, hsource⟩ := override_of_overloaded hover b
    have hcombined : { o.override b with schema := o.schema }.source =
        .error "schema cannot be combined with schema_dir or model" :=
      Config.source_combined (hover .schema)
        (.inl (by simp [override_schemaDirectory, hdirectory]))
    refine ⟨hnone,⟨directory,name,hdirectory,hname,hsource⟩,resolve_without_schema files hover,?_⟩
    rw [Config.buildModel_of_source_error hcombined]
    rfl

def orderFiles : FileAccess Id where
  readText := fun path =>
    if path = "schemas/order.schema.json" then .ok "true"
    else if path = "strict.schema.json" then .ok "false"
    else .error .notFound
  list := fun path => if path = "schemas" then .ok ["order.schema.json"] else .error .notFound
  readInput := .ok ""

def orderDirectory : SchemaDirectory := ⟨"schemas", [("order.schema.json", .bool true)]⟩

def orderOptions (model : Option String) : Options :=
  { event := "event.json", schema := some "strict.schema.json"
    schemaDirectory := some "schemas", model := model }

def orderConfig (schema model : Option String) : Config :=
  ⟨schema, some "schemas", model, [], .inherit⟩

theorem order_resolve_given :
    ((orderOptions none).resolve orderFiles).run = .ok (orderConfig none none) ∧
      Config.Refused orderFiles (orderConfig none none) := by
  have hresolve : ((orderOptions none).resolve orderFiles).run =
      .ok (orderConfig none none) := rfl
  refine ⟨hresolve,?_⟩
  have hgiven := ((resolve_given hresolve).1 .schema "strict.schema.json" rfl).mpr
    fun _ hover => absurd (hover .model) (by decide)
  exact hgiven.resolve_left nofun

theorem orderFiles_load : (SchemaDirectory.load orderFiles "schemas").run = .ok orderDirectory := by
  have hending : "order.schema.json".endsWith SchemaDirectory.ending = true := by decide +kernel
  have hnames : ["order.schema.json"].filter (fun n => n.endsWith SchemaDirectory.ending) =
      ["order.schema.json"] := List.filter_eq_self.mpr (by simpa using hending)
  change ((["order.schema.json"].filter fun n => n.endsWith SchemaDirectory.ending).foldlM
    (SchemaDirectory.loadOne orderFiles "schemas") ⟨"schemas", []⟩).run = _
  rw [hnames]
  rfl

/-- With a name the run goes on with the schema of the directory, though a configuration with the
same three fields is refused. -/
theorem order_schema_dropped :
    ((orderOptions (some "order.schema.json")).resolve orderFiles).run =
        .ok (orderConfig none (some "order.schema.json")) ∧
      (orderOptions (some "order.schema.json")).given .schema = some "strict.schema.json" ∧
      (orderConfig none (some "order.schema.json")).held .schema ≠ some "strict.schema.json" ∧
      ¬(orderConfig none (some "order.schema.json")).Refused orderFiles ∧
      (orderConfig (some "strict.schema.json") (some "order.schema.json")).Refused orderFiles := by
  obtain ⟨schema, hcompile, -⟩ :=
    SchemaModel.compile_true orderDirectory.index "order.schema.json"
  refine ⟨rfl,rfl,nofun,?_,_,rfl⟩
  rintro ⟨failure, hfailure⟩
  cases hfailure.symm.trans (Config.buildModel_named rfl orderFiles_load rfl hcompile)

end Options
end Unseal
