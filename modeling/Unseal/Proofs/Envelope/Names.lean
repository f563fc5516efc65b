import Unseal.Envelope.Named
import Unseal.Proofs.Traversal

/-!
# Names of sources

A text names a source if it is the name of that source in any case of the ASCII letters, with any
white space around it. A list of texts is resolved one by one and in order, and the first text that
names no source is reported as it was given.
-/

set_option autoImplicit false

namespace Unseal

open Traversal

/-! ## White space around a text -/

namespace Text

theorem trimStart_blank {before : List Char} (h : ∀ c ∈ before, isBlank c) (rest : List Char) :
    trimStart (before ++ rest) = trimStart rest := List.dropWhile_append_of_pos h

theorem trimStart_eq_self {cs : List Char} (h : ∀ c ∈ cs.head?, isBlank c = false) :
    trimStart cs = cs := by
  cases cs with
  | nil => rfl
  | cons c cs => exact List.dropWhile_cons_of_neg (by simp [h c rfl])

theorem head?_trimStart (cs : List Char) : ∀ c ∈ (trimStart cs).head?, isBlank c = false := by
  intro c hc
  have hhead := List.head?_dropWhile_not isBlank cs
  rw [trimStart] at hc
  rwa [Option.mem_def.mp hc] at hhead

theorem trimStart_split (cs : List Char) :
    ∃ before, cs = before ++ trimStart cs ∧ ∀ c ∈ before, isBlank c :=
  ⟨cs.takeWhile isBlank,List.takeWhile_append_dropWhile.symm,
    List.all_eq_true.mp List.all_takeWhile⟩

theorem trim_eq_iff {cs core : List Char} :
    trim cs = core ↔ ∃ before after, cs = before ++ core ++ after ∧
      (∀ c ∈ before, isBlank c) ∧ (∀ c ∈ after, isBlank c) ∧
      (∀ c ∈ core.head?, isBlank c = false) ∧ ∀ c ∈ core.getLast?, isBlank c = false := by
  constructor
  · rintro rfl
    obtain ⟨before, hcs, hbefore⟩ := trimStart_split cs
    obtain ⟨after, hafter, hblank⟩ := trimStart_split (trimStart cs).reverse
    have hstart : trimStart cs = trim cs ++ after.reverse := by
      rw [trim, ← List.reverse_append, ← hafter, List.reverse_reverse]
    refine ⟨before,after.reverse,?_,hbefore,by simpa using hblank,?_,?_⟩
    · rw [List.append_assoc, ← hstart]
      exact hcs
    · intro c hc
      apply head?_trimStart cs
      rw [hstart, List.head?_append, Option.mem_def.mp hc]
      rfl
    · intro c hc
      rw [trim, List.getLast?_reverse] at hc
      exact head?_trimStart _ c hc
  · rintro ⟨before, after, rfl, hbefore, hafter, hhead, hlast⟩
    rw [trim, List.append_assoc, trimStart_blank hbefore]
    cases core with
    | nil =>
      have hnone : trimStart after = [] := by simpa [trimStart] using trimStart_blank hafter []
      rw [List.nil_append, hnone]
      rfl
    | cons x core =>
      have hback : trimStart (x :: core).reverse = (x :: core).reverse :=
        trimStart_eq_self (by rwa [List.head?_reverse])
      have hfront : trimStart (x :: core ++ after) = x :: core ++ after :=
        trimStart_eq_self hhead
      rw [hfront, List.reverse_append, trimStart_blank (by simpa using hafter), hback,
        List.reverse_reverse]

theorem lowerChar_blank {c : Char} (h : isBlank c) : lowerChar c = c := by
  refine if_neg fun hupper => ?_
  obtain ⟨hlow, hhigh⟩ := hupper
  rw [Char.le_def, UInt32.le_iff_toNat_le] at hlow hhigh
  have hA : 'A'.val.toNat = 65 := rfl
  have hZ : 'Z'.val.toNat = 90 := rfl
  simp only [isBlank, Bool.or_eq_true, Bool.and_eq_true, decide_eq_true_eq, beq_iff_eq,
    Char.toNat] at h
  omega

end Text

/-! ## One name -/

namespace Source

/-- The letters of the name in any case, with white space around. -/
def Named (s : Source) (text : String) : Prop :=
  ∃ before letters after : List Char, text.toList = before ++ letters ++ after ∧
    (∀ c ∈ before, Text.isBlank c) ∧ (∀ c ∈ after, Text.isBlank c) ∧
    letters.map Text.lowerChar = s.name.toList

theorem not_blank_of_mem_name (s : Source) : ∀ c ∈ s.name.toList, Text.isBlank c = false := by
  have hall : s.name.toList.all (fun c => !Text.isBlank c) = true := by cases s <;> rfl
  simpa using hall

theorem normal_eq_iff {text : String} {cs : List Char} :
    (normal text).toList = cs ↔ (Text.trim text.toList).map Text.lowerChar = cs := by
  rw [normal, Text.lower, Text.trimmed, String.toList_ofList, String.toList_ofList]

theorem named_iff {s : Source} {text : String} : s.Named text ↔ s.name = normal text := by
  rw [eq_comm, ← String.toList_inj, normal_eq_iff]
  constructor
  · rintro ⟨before, letters, after, htext, hbefore, hafter, hletters⟩
    have hsolid : ∀ c ∈ letters, Text.isBlank c = false := by
      intro c hc
      refine Bool.eq_false_iff.mpr fun hblank => ?_
      have hmem : c ∈ s.name.toList :=
        hletters ▸ Text.lowerChar_blank hblank ▸ List.mem_map_of_mem hc
      rw [s.not_blank_of_mem_name c hmem] at hblank
      cases hblank
    have htrim : Text.trim text.toList = letters :=
      Text.trim_eq_iff.mpr ⟨before,after,htext,hbefore,hafter,
        fun c hc => hsolid c (List.mem_of_mem_head? hc),
        fun c hc => hsolid c (List.mem_of_mem_getLast? hc)⟩
    rw [htrim, hletters]
  · intro hletters
    obtain ⟨before, after, htext, hbefore, hafter, -⟩ := Text.trim_eq_iff.mp rfl
    exact ⟨before,_,after,htext,hbefore,hafter,hletters⟩

theorem ofName?_eq_some_iff {s : Source} {text : String} :
    ofName? text = some s ↔ s.Named text := by
  rw [named_iff]
  constructor
  · intro h
    simpa using List.find?_some h
  · intro h
    rw [ofName?, ← h]
    cases s <;> rfl

theorem mem_names (s : Source) : s.name ∈ all.map name := by
  cases s <;> decide

theorem known_iff {text : String} :
    normal text ∈ all.map name ↔ ∃ s : Source, s.Named text := by
  simp only [named_iff]
  constructor
  · intro h
    obtain ⟨s, -, hs⟩ := List.mem_map.mp h
    exact ⟨s,hs⟩
  · rintro ⟨s, hs⟩
    exact hs ▸ s.mem_names

theorem normal_name (s : Source) : normal s.name = s.name := by
  cases s <;> rfl

theorem envelope_name (s : Source) : s.envelope.name = s.name := by
  cases s <;> rfl

end Source

/-! ## Lists of names -/

namespace Envelope

theorem ofName_ok_iff {text : String} {e : Envelope} :
    ofName text = .ok e ↔ ∃ s : Source, s.Named text ∧ e = s.envelope := by
  simp only [← Source.ofName?_eq_some_iff, ofName]
  cases Source.ofName? text with
  | none => simp
  | some s => simp [eq_comm]

theorem ofName_error_iff {text : String} {err : ParseError} :
    ofName text = .error err ↔
      Source.normal text ∉ Source.all.map Source.name ∧ err = .unknownEnvelope text := by
  simp only [Source.known_iff, ← Source.ofName?_eq_some_iff, ofName]
  cases Source.ofName? text with
  | none => simp [eq_comm]
  | some s => simp

theorem exists_ofName_iff {text : String} :
    (∃ e, ofName text = .ok e) ↔ Source.normal text ∈ Source.all.map Source.name := by
  simp only [ofName_ok_iff, Source.known_iff]
  exact ⟨fun ⟨_, s, hs, _⟩ => ⟨s,hs⟩,fun ⟨s, hs⟩ => ⟨_,s,hs,rfl⟩⟩

theorem ofNames_ok_iff {names : List String} {es : List Envelope} :
    ofNames names = .ok es ↔ ∃ sources : List Source,
      List.Forall₂ Source.Named sources names ∧ es = sources.map Source.envelope := by
  simp only [ofNames, mapM_ok_iff, ofName_ok_iff, forall₂_exists_map_iff]
  refine exists_congr fun sources => and_congr_left fun _ => ?_
  exact ⟨List.Forall₂.flip,List.Forall₂.flip⟩

theorem map_name_of_named {sources : List Source} {names : List String}
    (h : List.Forall₂ Source.Named sources names) :
    sources.map Source.name = names.map Source.normal := by
  rw [← List.forall₂_eq_eq_eq, List.forall₂_map_left_iff, List.forall₂_map_right_iff]
  exact h.imp fun _ _ => Source.named_iff.mp

theorem ofNames_names (sources : List Source) :
    ofNames (sources.map Source.name) = .ok (sources.map Source.envelope) := by
  refine ofNames_ok_iff.mpr ⟨sources,?_,rfl⟩
  rw [List.forall₂_map_right_iff, List.forall₂_same]
  exact fun s _ => Source.named_iff.mpr s.normal_name.symm

theorem map_name_envelopes (sources : List Source) :
    (sources.map Source.envelope).map Envelope.name = sources.map Source.name := by
  rw [List.map_map]
  exact List.map_congr_left fun s _ => s.envelope_name

/-- A list of names resolves if every one of them, trimmed and in lower case, is the name of a
source: to the envelopes of these sources in their order, which have these names and are found
under them again. Otherwise the first name that is none is reported as it was given. -/
theorem ofNames_resolves (names : List String) :
    (∀ es, ofNames names = .ok es ↔ ∃ sources : List Source,
      List.Forall₂ Source.Named sources names ∧ es = sources.map Source.envelope) ∧
    ((∃ es, ofNames names = .ok es) ↔
      ∀ name ∈ names, Source.normal name ∈ Source.all.map Source.name) ∧
    (∀ es, ofNames names = .ok es → es.map Envelope.name = names.map Source.normal ∧
      ofNames (es.map Envelope.name) = .ok es) ∧
    ∀ err, ofNames names = .error err ↔ ∃ before name after, names = before ++ name :: after ∧
      (∀ n ∈ before, Source.normal n ∈ Source.all.map Source.name) ∧
      Source.normal name ∉ Source.all.map Source.name ∧ err = .unknownEnvelope name := by
  refine ⟨fun es => ofNames_ok_iff,?_,?_,fun err => ?_⟩
  · simp only [ofNames, exists_mapM_ok_iff, exists_ofName_iff]
  · intro es h
    obtain ⟨sources, hnamed, rfl⟩ := ofNames_ok_iff.mp h
    rw [map_name_envelopes]
    exact ⟨map_name_of_named hnamed,ofNames_names sources⟩
  · simp only [ofNames, mapM_error_iff, exists_ofName_iff, ofName_error_iff]

/-- White space of any kind is passed over, but the Kelvin sign is no letter K. -/
theorem spaced_resolves :
    ofNames [" SQS", "\u2003Sns-sqs\u0085"] = .ok [.sqs, .snsSqs] ∧
    ofNames ["sqs", "sns-sqs"] = .ok [.sqs, .snsSqs] ∧
    ofNames ["sqs", " \u212Ainesis ", "none"] = .error (.unknownEnvelope " \u212Ainesis ") := by
  have hspaced : ofNames [" SQS", "\u2003Sns-sqs\u0085"] = .ok [.sqs, .snsSqs] := by
    refine ((ofNames_resolves _).1 _).mpr ⟨[.sqs, .snsSqs],?_,rfl⟩
    exact .cons (Source.named_iff.mpr (by decide)) (.cons (Source.named_iff.mpr (by decide)) .nil)
  refine ⟨hspaced,((ofNames_resolves _).2.2.1 _ hspaced).2,?_⟩
  exact ((ofNames_resolves _).2.2.2 _).mpr ⟨["sqs"],_,["none"],rfl,by decide,by decide,rfl⟩

end Envelope
end Unseal
