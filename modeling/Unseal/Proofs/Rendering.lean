import Unseal.Proofs.Dispatch
import Unseal.Proofs.Json.Sound
import Unseal.Proofs.Run
import Unseal.Proofs.Schema.Filter

/-!
# Rendered values

What is rendered, compact or indented, is read as the same value, if all its numbers are integers
and no more than 127 containers stand inside each other. So a model that accepts a value accepts
its text, and a run accepts what another run has printed.
-/

set_option autoImplicit false

namespace Unseal

namespace Json

mutual
/-- All numbers are integers of 64 bits, signed or unsigned. -/
def whole : Json → Bool
  | .num (.int n) => Number.inRange n
  | .num (.float _) => false
  | .arr vs => wholeItems vs
  | .obj ms => wholeMembers ms
  | _ => true

def wholeItems : List Json → Bool
  | [] => true
  | v :: vs => whole v && wholeItems vs

def wholeMembers : List (String × Json) → Bool
  | [] => true
  | (_, v) :: ms => whole v && wholeMembers ms
end

mutual
theorem fits_of_whole : ∀ {v : Json}, v.whole → v.fits
  | .null, _ => rfl
  | .bool _, _ => rfl
  | .num (.int _), h => h
  | .num (.float _), h => nomatch h
  | .str _, _ => rfl
  | .arr _, h => fitsItems_of_whole h
  | .obj _, h => fitsMembers_of_whole h

theorem fitsItems_of_whole : ∀ {vs : List Json}, wholeItems vs → fitsItems vs
  | [], _ => rfl
  | _ :: _, h => by
    obtain ⟨hv, hvs⟩ := Bool.and_eq_true_iff.mp h
    exact Bool.and_eq_true_iff.mpr ⟨fits_of_whole hv,fitsItems_of_whole hvs⟩

theorem fitsMembers_of_whole : ∀ {ms : List (String × Json)}, wholeMembers ms → fitsMembers ms
  | [], _ => rfl
  | _ :: _, h => by
    obtain ⟨hv, hms⟩ := Bool.and_eq_true_iff.mp h
    exact Bool.and_eq_true_iff.mpr ⟨fits_of_whole hv,fitsMembers_of_whole hms⟩
end

theorem legible_of_whole {v : Json} {depth : Nat} (hw : v.whole) (ho : v.ordered)
    (hn : v.nesting < depth) : Legible depth v := Sound.legible ⟨fits_of_whole hw,ho⟩ hn

mutual
theorem reread_of_whole : ∀ {v : Json}, v.whole → v.reread = v
  | .null, _ => rfl
  | .bool _, _ => rfl
  | .num (.int _), _ => rfl
  | .num (.float _), h => nomatch h
  | .str _, _ => rfl
  | .arr _, h => congrArg arr (rereadItems_of_whole h)
  | .obj _, h => congrArg obj (rereadMembers_of_whole h)

theorem rereadItems_of_whole : ∀ {vs : List Json}, wholeItems vs → rereadItems vs = vs
  | [], _ => rfl
  | _ :: _, h => by
    obtain ⟨hv, hvs⟩ := Bool.and_eq_true_iff.mp h
    rw [rereadItems, reread_of_whole hv, rereadItems_of_whole hvs]

theorem rereadMembers_of_whole : ∀ {ms : List (String × Json)}, wholeMembers ms →
    rereadMembers ms = ms
  | [], _ => rfl
  | _ :: _, h => by
    obtain ⟨hv, hms⟩ := Bool.and_eq_true_iff.mp h
    rw [rereadMembers, reread_of_whole hv, rereadMembers_of_whole hms]
end

theorem read_render {v : Json} (hw : v.whole) (ho : v.ordered) (hn : v.nesting < depthLimit)
    (inline : Bool) (tail : String) (ht : Blank tail.toList) :
    read (v.render inline ++ tail) = .ok v := by
  rw [(legible_of_whole hw ho hn).read_render inline ht, reread_of_whole hw]

end Json

theorem SchemaModel.parse_ok_iff (m : SchemaModel) {p : Payload} {v : Json} :
    parse m.model p = .ok v ↔ p.toJson = .ok v ∧ m.isValid v = true :=
  ((m.filters_any "").parse p v).trans
    (and_congr_left' (orInvalid_ok_iff.trans Shape.any_ok_iff))

theorem EventParser.parse_toList_eq (parser : EventParser Json) (p : Payload) :
    (parser.parse p).map Parsed.toList = parseAll parser.model parser.envelopes p := by
  obtain ⟨m, envelopes⟩ := parser
  cases envelopes with
  | nil =>
    rw [parse_none, parseAll]
    cases Unseal.parse m p <;> rfl
  | cons e es => exact parse_toList m p e es

theorem SchemaModel.isValid_of_parse (m : SchemaModel) {envelopes : List Envelope} {p : Payload}
    {r : Parsed Json} (h : (EventParser.mk m.model envelopes).parse p = .ok r) {v : Json}
    (hv : v ∈ r.toList) : m.isValid v = true := by
  have hall := EventParser.parse_toList_eq ⟨m.model, envelopes⟩ p
  rw [h] at hall
  exact (((m.filters_any "").parseAll envelopes p r.toList).mp hall.symm).2 v hv

/-- A rendered value is a text of that value, in either layout, and every schema model that accepts
the value accepts the text. So what a run prints for a single result, line feed included, is
accepted by a run on the same model that takes it from the standard input, and printed again. -/
theorem Json.render_reparses {v : Json} (hw : v.whole) (ho : v.ordered) (hn : v.nesting ≤ 127)
    (inline : Bool) :
    (Payload.text (v.render inline)).toJson = .ok v ∧
    (∀ m : SchemaModel, parse m.model (.value v) = .ok v →
      parse m.model (.text (v.render inline)) = .ok v) ∧
    ∀ (files files' : FileAccess Id) (o o' : Options) (parser : EventParser Json) (p : Payload),
      (o.settle files).run = .ok parser → (readEvent files o.event).run = .ok p →
      parser.parse p = .ok (.single v) → (o'.settle files').run = .ok ⟨parser.model, []⟩ →
      o'.event = "-" → files'.readInput = .ok (v.render o.compact ++ "\n") →
      (o.run files).run = .ok v ∧ (o'.run files').run = .ok v := by
  have hread : ∀ inline, Json.read (v.render inline) = .ok v := by
    intro inline
    have h := Json.read_render hw ho (Nat.lt_succ_of_le hn) inline "" nofun
    rwa [String.append_empty] at h
  refine ⟨hread inline,?_,?_⟩
  · intro m hm
    exact m.parse_ok_iff.mpr ⟨hread inline,(m.parse_ok_iff.mp hm).2⟩
  · intro files files' o o' parser p hsettle hevent hparse hsettle' hevent' hinput
    refine ⟨Options.run_ok_iff.mpr ⟨parser,hsettle,p,hevent,_,hparse,rfl⟩,?_⟩
    obtain ⟨_, -, schema, -, envelopes, -, rfl⟩ := Options.settle_ok_iff.mp hsettle
    have hvalid := schema.isValid_of_parse hparse (List.mem_singleton_self v)
    have hline := Json.read_render hw ho (Nat.lt_succ_of_le hn) o.compact "\n"
      (by simp [Json.Blank, Json.Cursor.isBlank])
    have hagain : parse schema.model (.text (v.render o.compact ++ "\n")) = .ok v :=
      schema.parse_ok_iff.mpr ⟨hline,hvalid⟩
    refine Options.run_ok_iff.mpr ⟨_,hsettle',_,hevent' ▸ readEvent_input hinput,.single v,?_,rfl⟩
    rw [EventParser.parse_none, hagain]
    rfl

def Json.wrapped : Nat → Json → Json
  | 0, v => v
  | n + 1, v => .arr [wrapped n v]

/-- The integers at both ends, empty containers and characters that need escapes, as deep as the
reader goes. -/
def limitsValue : Json :=
  .wrapped 125 (.obj [("", .arr []), ("\n\"", .arr [.num (.int (-0x8000000000000000)),
    .num (.int 0xffffffffffffffff), .str "\x00\\é", .null, .bool false])])

theorem limitsValue_reparses :
    limitsValue.whole = true ∧ limitsValue.ordered = true ∧ limitsValue.nesting = 127 ∧
    (Payload.text (limitsValue.render false)).toJson = .ok limitsValue ∧
    ((plainOptions "event.json" []).run (plainFiles (limitsValue.render true) "")).run =
      .ok limitsValue ∧
    ((plainOptions "-" []).run
      (plainFiles (limitsValue.render true) (limitsValue.render false ++ "\n"))).run =
        .ok limitsValue := by
  have hw : limitsValue.whole = true := by decide +kernel
  have ho : limitsValue.ordered = true := by decide +kernel
  have hn : limitsValue.nesting = 127 := by decide +kernel
  have hboth := Json.render_reparses hw ho (Nat.le_of_eq hn)
  have hnone : Envelope.ofNames [] = .ok [] := rfl
  obtain ⟨schema, hvalid, hsettle⟩ :=
    settle_plain "event.json" (limitsValue.render true) "" hnone
  have hevent : (readEvent (plainFiles (limitsValue.render true) "") "event.json").run =
      .ok (.value limitsValue) :=
    (readEvent_file (by decide) (by decide) rfl).mpr ⟨_,(hboth true).1,rfl⟩
  have haccept : parse schema.model (.value limitsValue) = .ok limitsValue :=
    schema.parse_ok_iff.mpr ⟨rfl,hvalid _⟩
  have hparse : (EventParser.mk schema.model []).parse (.value limitsValue) =
      .ok (.single limitsValue) := by
    rw [EventParser.parse_none, haccept]
    rfl
  have hagain := (Options.settle_event "-" (.ok (limitsValue.render false ++ "\n"))).trans hsettle
  exact ⟨hw,ho,hn,(hboth false).1,
    (hboth false).2.2 _ _ _ _ _ _ hsettle hevent hparse hagain rfl rfl⟩

end Unseal
