import Mathlib.Data.List.Nodup
import Unseal.Proofs.Members
import Unseal.Schema.Directory

/-!
# The order in which files are indexed

A file goes by its own name and by the identifier in its document, and of the files that go by one
key the last that is visited is the one that is found. So the order in which the files of a
directory are visited matters exactly if two of them go by one key with different documents, and a
file can lose its own name to the identifier of another.
-/

set_option autoImplicit false

namespace Unseal

namespace Index

def goesBy (key : String) (file : String × Json) : Bool :=
  file.1 == key || identifier? file.2 == some key

theorem goesBy_iff {key : String} {file : String × Json} :
    goesBy key file = true ↔ file.1 = key ∨ identifier? file.2 = some key := by
  simp [goesBy]

theorem find?_add (index : Index) (file : String × Json) (key : String) :
    (index.add file).entries.find? key =
      if goesBy key file then some file.2 else index.entries.find? key := by
  obtain ⟨name, document⟩ := file
  simp only [add, goesBy_iff]
  by_cases hname : name = key
  · subst hname
    rw [Members.find?_insert_self, if_pos (.inl rfl)]
  · rw [Members.find?_insert_of_ne hname]
    cases identifier? document with
    | none => rw [if_neg (by simp [hname])]
    | some id =>
      by_cases hid : id = key
      · subst hid
        rw [if_pos (.inr rfl)]
        exact Members.find?_insert_self ..
      · rw [if_neg (by simp [hname, hid])]
        exact Members.find?_insert_of_ne hid ..

theorem find?_foldl_add (files : List (String × Json)) (index : Index) (key : String) :
    (files.foldl add index).entries.find? key =
      ((files.reverse.find? (goesBy key)).map (·.2)).or (index.entries.find? key) := by
  induction files generalizing index with
  | nil => rfl
  | cons f files ih =>
    -- The files visited after `f` are looked at first, and `f` itself before the old entries.
    rw [List.foldl_cons, ih, find?_add, List.reverse_cons, List.find?_append]
    cases files.reverse.find? (goesBy key) with
    | some g => rfl
    | none => cases hf : goesBy key f <;> simp [hf]

theorem find?_ofFiles (files : List (String × Json)) (key : String) :
    (ofFiles files).entries.find? key = (files.reverse.find? (goesBy key)).map (·.2) :=
  (find?_foldl_add files empty key).trans (Option.or_none ..)

section Orders

variable {files visited : List (String × Json)} {file : String × Json} {key : String}

theorem exists_of_find? {document : Json} (h : (ofFiles files).entries.find? key = some document) :
    ∃ f ∈ files, goesBy key f = true ∧ f.2 = document := by
  rw [find?_ofFiles, Option.map_eq_some_iff] at h
  obtain ⟨f, hf, hdocument⟩ := h
  exact ⟨f,List.mem_reverse.mp (List.mem_of_find?_eq_some hf),List.find?_some hf,hdocument⟩

theorem entries_isSome_perm (hp : visited.Perm files) (key : String) :
    ((ofFiles visited).entries.find? key).isSome = ((ofFiles files).entries.find? key).isSome := by
  rw [Bool.eq_iff_iff]
  simp [find?_ofFiles, hp.mem_iff]

theorem find?_of_entries {index : Index} {document : Json}
    (h : index.entries.find? key = some document) : index.find? key = some document := by
  rw [find?, h]
  rfl

/-- Every file that goes by a key is found by it if it is visited last. -/
theorem exists_perm_find? (hf : file ∈ files) (hkey : goesBy key file = true) :
    ∃ visited, visited.Perm files ∧ (ofFiles visited).find? key = some file.2 := by
  obtain ⟨before, after, rfl⟩ := List.append_of_mem hf
  have hlast : (ofFiles (before ++ after ++ [file])).entries.find? key = some file.2 := by
    rw [ofFiles, List.foldl_append]
    exact (find?_add ..).trans (if_pos hkey)
  exact ⟨before ++ after ++ [file],
    (List.perm_append_singleton ..).trans List.perm_middle.symm,find?_of_entries hlast⟩

theorem entries_perm (hp : visited.Perm files)
    (h : ∀ f ∈ files, ∀ g ∈ files, goesBy key f = true → goesBy key g = true → f.2 = g.2) :
    (ofFiles visited).entries.find? key = (ofFiles files).entries.find? key := by
  have hsome := entries_isSome_perm hp key
  cases hv : (ofFiles visited).entries.find? key with
  | none =>
    rw [hv] at hsome
    exact (Option.isNone_iff_eq_none.mp (by simpa using hsome.symm)).symm
  | some document =>
    rw [hv] at hsome
    obtain ⟨document', hf⟩ := Option.isSome_iff_exists.mp hsome.symm
    obtain ⟨f, hfv, hfkey, rfl⟩ := exists_of_find? hv
    obtain ⟨g, hgf, hgkey, rfl⟩ := exists_of_find? hf
    rw [hf, h f (hp.mem_iff.mp hfv) g hgf hfkey hgkey]

/-- No key is claimed for two documents. -/
def Unambiguous (files : List (String × Json)) : Prop :=
  ∀ f ∈ files, ∀ g ∈ files, ∀ key, goesBy key f = true → goesBy key g = true → f.2 = g.2

theorem find?_perm (hp : visited.Perm files) (h : Unambiguous files) :
    (ofFiles visited).find? = (ofFiles files).find? := by
  have hkey : ∀ key, (ofFiles visited).entries.find? key = (ofFiles files).entries.find? key :=
    fun key => entries_perm hp fun f hf g hg => h f hf g hg key
  funext uri
  rw [find?, hkey, hkey, find?]

theorem find?_isSome_perm (hp : visited.Perm files) (uri : String) :
    ((ofFiles visited).find? uri).isSome = ((ofFiles files).find? uri).isSome := by
  rw [find?, find?, Option.isSome_or, Option.isSome_or, entries_isSome_perm hp,
    entries_isSome_perm hp]

theorem orders_agree_iff :
    (∀ visited visited' : List (String × Json), visited.Perm files → visited'.Perm files →
      ∀ uri, (ofFiles visited).find? uri = (ofFiles visited').find? uri) ↔ Unambiguous files := by
  constructor
  · intro h f hf g hg key hfkey hgkey
    obtain ⟨visited, hp, hfound⟩ := exists_perm_find? hf hfkey
    obtain ⟨visited', hp', hfound'⟩ := exists_perm_find? hg hgkey
    exact Option.some.inj (hfound.symm.trans ((h _ _ hp hp' key).trans hfound'))
  · intro h visited visited' hp hp' uri
    rw [find?_perm hp h, find?_perm hp' h]

theorem names_found_iff (hnames : (files.map (·.1)).Nodup) :
    (∀ visited : List (String × Json), visited.Perm files →
      ∀ f ∈ files, (ofFiles visited).find? f.1 = some f.2) ↔
    ∀ f ∈ files, ∀ g ∈ files, identifier? g.2 = some f.1 → g.2 = f.2 := by
  constructor
  · intro h f hf g hg hid
    obtain ⟨visited, hp, hfound⟩ := exists_perm_find? hg (goesBy_iff.mpr (.inr hid))
    exact Option.some.inj (hfound.symm.trans (h visited hp f hf))
  · intro h visited hp f hf
    have hown : ∀ g ∈ files, goesBy f.1 g = true → g.2 = f.2 := by
      intro g hg hkey
      rcases goesBy_iff.mp hkey with hname | hid
      · rw [List.inj_on_of_nodup_map hnames hg hf hname]
      · exact h f hf g hg hid
    have hsome : ((ofFiles visited).entries.find? f.1).isSome := by
      rw [find?_ofFiles, Option.isSome_map, List.find?_isSome]
      exact ⟨f,List.mem_reverse.mpr (hp.mem_iff.mpr hf),goesBy_iff.mpr (.inl rfl)⟩
    obtain ⟨document, hfound⟩ := Option.isSome_iff_exists.mp hsome
    obtain ⟨g, hg, hkey, rfl⟩ := exists_of_find? hfound
    rw [find?_of_entries hfound, hown g (hp.mem_iff.mp hg) hkey]

end Orders

end Index

/-! ## Models -/

namespace Schema.Library

variable {index index' : Index}

theorem Survey.complete_congr (h : index.find? = index'.find?) (n : Nat) (s : Survey) :
    Survey.complete index n s = Survey.complete index' n s := by
  have hfetch : Survey.fetch index = Survey.fetch index' := by
    funext s uri
    rw [fetch, fetch, h]
  induction n generalizing s with
  | zero => rfl
  | succ n ih => simp only [complete, hfetch, ih]

theorem ofDocument_congr (h : index.find? = index'.find?) :
    ofDocument index = ofDocument index' := by
  funext v
  simp only [ofDocument, Survey.complete_congr h]

end Schema.Library

namespace SchemaDirectory

variable {path : String} {files visited : List (String × Json)}

theorem lookup_eq_some_iff (hnames : (files.map (·.1)).Nodup) {name : String} {document : Json} :
    files.lookup name = some document ↔ (name, document) ∈ files := by
  rw [List.lookup_eq_some_iff]
  constructor
  · rintro ⟨before, after, rfl, -⟩
    simp
  · intro h
    obtain ⟨before, after, rfl⟩ := List.append_of_mem h
    refine ⟨before,after,rfl,fun f hf => ?_⟩
    rw [List.map_append, List.nodup_append] at hnames
    have hne := hnames.2.2 f.1 (List.mem_map_of_mem hf) name (by simp)
    simpa using hne.symm

theorem model_perm (hp : visited.Perm files) (hnames : (files.map (·.1)).Nodup)
    (h : Index.Unambiguous files) (name : String) (policy : UnknownFields) :
    (SchemaDirectory.mk path visited).model name policy =
      (SchemaDirectory.mk path files).model name policy := by
  have hdocument : visited.lookup name = files.lookup name := by
    have hnames' : (visited.map (·.1)).Nodup := (hp.map _).nodup_iff.mpr hnames
    exact Option.ext fun document => by
      rw [lookup_eq_some_iff hnames', lookup_eq_some_iff hnames, hp.mem_iff]
  have hlibrary := Schema.Library.ofDocument_congr (Index.find?_perm hp h)
  simp only [model, find?, index, hdocument, SchemaModel.compile, SchemaModel.assemble, hlibrary]

/-- The order in which a directory's files are visited cannot decide whether a URI is answered. It
decides how if, and only if, one key is claimed for two documents, by names or identifiers; and
every file answers to its own name in all orders if, and only if, no other document has a file's
name for its identifier. Where no key is claimed twice the models are the same, too. -/
theorem visiting_orders (hnames : (files.map (·.1)).Nodup) :
    (∀ visited : List (String × Json), visited.Perm files → ∀ uri,
      ((Index.ofFiles visited).find? uri).isSome = ((Index.ofFiles files).find? uri).isSome) ∧
    ((∀ visited visited' : List (String × Json), visited.Perm files → visited'.Perm files →
      ∀ uri, (Index.ofFiles visited).find? uri = (Index.ofFiles visited').find? uri) ↔
        Index.Unambiguous files) ∧
    ((∀ visited : List (String × Json), visited.Perm files →
      ∀ f ∈ files, (Index.ofFiles visited).find? f.1 = some f.2) ↔
        ∀ f ∈ files, ∀ g ∈ files, Index.identifier? g.2 = some f.1 → g.2 = f.2) ∧
    (Index.Unambiguous files → ∀ visited : List (String × Json), visited.Perm files →
      ∀ path name policy, (SchemaDirectory.mk path visited).model name policy =
        (SchemaDirectory.mk path files).model name policy) :=
  ⟨fun _ hp => Index.find?_isSome_perm hp, Index.orders_agree_iff, Index.names_found_iff hnames,
    fun h _ hp _ => model_perm hp hnames h⟩

def moneyFiles : List (String × Json) :=
  [("money.schema.json", .obj [("type", .str "integer")]),
    ("other.schema.json", .obj [("$id", .str "money.schema.json"), ("type", .str "string")])]

theorem moneyFiles_orders :
    (moneyFiles.map (·.1)).Nodup ∧
    ∃ visited : List (String × Json), visited.Perm moneyFiles ∧
      ∃ f ∈ moneyFiles, (Index.ofFiles visited).find? f.1 ≠ some f.2 := by
  have hnames : (moneyFiles.map (·.1)).Nodup := by decide
  refine ⟨hnames,?_⟩
  have hlost : ¬ ∀ f ∈ moneyFiles, ∀ g ∈ moneyFiles,
      Index.identifier? g.2 = some f.1 → g.2 = f.2 := by
    intro h
    have htypes := h _ (.head _) _ (.tail _ (.head _)) rfl
    simp at htypes
  rw [← (visiting_orders hnames).2.2.1] at hlost
  simpa only [not_forall, exists_prop] using hlost

/-- Visited in their order and the other way round, the two files answer to one URI with different
documents, and the first file loses its name. -/
theorem moneyFiles_disagree :
    moneyFiles.reverse.Perm moneyFiles ∧
    (Index.ofFiles moneyFiles).find? "money.schema.json" =
      some (.obj [("$id", .str "money.schema.json"), ("type", .str "string")]) ∧
    (Index.ofFiles moneyFiles.reverse).find? "money.schema.json" =
      some (.obj [("type", .str "integer")]) :=
  ⟨List.reverse_perm _,rfl,rfl⟩

end SchemaDirectory
end Unseal
