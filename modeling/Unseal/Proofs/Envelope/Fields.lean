import Unseal.Proofs.Chain.Event
import Unseal.Proofs.Chain.Stages
import Unseal.Proofs.Envelope.Place

/-!
# One field behind another

A chain of two fields reads what one field with the joined pointer reads, provided that the first
of them ends at an object: between the two only objects are let through.
-/

set_option autoImplicit false

namespace Unseal

open Traversal
open Json.Pointer (Leads)

namespace Json.Pointer

theorem leads_append_iff {ts us : List String} {v y : Json} :
    Leads (ts ++ us) v y ↔ ∃ x, Leads ts v x ∧ Leads us x y := by
  simp only [← walk_eq_some_iff, walk_append, Option.bind_eq_some_iff]

end Json.Pointer

namespace Field

variable {α : Type} {m : Model α}

theorem tokens?_ofPlace (name : String) {place : String} (hplace : IsPointer place)
    (each serialized : Bool) {ts : List String}
    (h : Json.Pointer.tokens? place.toList = some ts) :
    Json.Pointer.tokens? (ofPlace name place each serialized).pointer.toList = some ts := by
  rw [ofPlace, pointerOf_pointer hplace, h]

theorem parseWith_ok_iff_leads {f : Field} {ts : List String}
    (h : Json.Pointer.tokens? f.pointer.toList = some ts) {v : Json} {xs : List α} :
    (parseWith m f.envelope (.value v)).map Parsed.toList = .ok xs ↔ ∃ y r, Leads ts v y ∧
      Gives f.each f.serialized y r ∧
        List.Forall₂ (fun q x => m.checkPayload q = .ok x) r.toList xs := by
  rw [parseWith_ok_iff]
  constructor
  · rintro ⟨r, hr, hxs⟩
    obtain ⟨_, y, ⟨⟩, hy, hr⟩ := (extract_ok_iff h).mp hr
    exact ⟨y,r,hy,hr,hxs⟩
  · rintro ⟨y, r, hy, hr, hxs⟩
    exact ⟨r,(extract_ok_iff h).mpr ⟨v,y,rfl,hy,hr⟩,hxs⟩

theorem parseWith_joined_iff {inner joined : Field} {ts us : List String}
    (hinner : Json.Pointer.tokens? inner.pointer.toList = some us)
    (hjoined : Json.Pointer.tokens? joined.pointer.toList = some (ts ++ us))
    (heach : joined.each = inner.each) (hserialized : joined.serialized = inner.serialized)
    {v : Json} {xs : List α} :
    (parseWith m joined.envelope (.value v)).map Parsed.toList = .ok xs ↔ ∃ x, Leads ts v x ∧
      (parseWith m inner.envelope (.value x)).map Parsed.toList = .ok xs := by
  simp only [parseWith_ok_iff_leads hjoined, parseWith_ok_iff_leads hinner,
    Json.Pointer.leads_append_iff, heach, hserialized]
  constructor
  · rintro ⟨y, r, ⟨x, hx, hy⟩, hr, hxs⟩
    exact ⟨x,hx,y,r,hy,hr,hxs⟩
  · rintro ⟨x, hx, y, r, hy, hr, hxs⟩
    exact ⟨y,r,⟨x,hx,hy⟩,hr,hxs⟩

/-! ## Behind a plain field -/

section
variable {outer : Field} {ts : List String}
  (h : Json.Pointer.tokens? outer.pointer.toList = some ts)
  (heach : outer.each = false) (hserialized : outer.serialized = false) {v : Json}
include h heach hserialized

theorem parseChain_plain (e : Envelope) {x : Json} (hx : Leads ts v x) :
    parseChain m [outer.envelope, e] (.value v) =
      Chain.asEvent outer.envelope x >>= fun q => (parseWith m e q).map Parsed.toList :=
  parseChain_two (extract_of_gives h rfl hx
    (.one heach (.value fun hs => nomatch hserialized.symm.trans hs)))

theorem parseChain_plain_ok_iff (e : Envelope) {xs : List α} :
    parseChain m [outer.envelope, e] (.value v) = .ok xs ↔
      ∃ x, Leads ts v x ∧ x.isObject = true ∧
        (parseWith m e (.value x)).map Parsed.toList = .ok xs := by
  constructor
  · intro hok
    by_cases hleads : ∃ x, Leads ts v x
    · obtain ⟨x, hx⟩ := hleads
      rw [parseChain_plain h heach hserialized e hx] at hok
      obtain ⟨q, hq, hxs⟩ := bind_ok_iff.mp hok
      obtain ⟨hobject, rfl⟩ := Chain.asEvent_ok_iff.mp hq
      exact ⟨x,hx,hobject,hxs⟩
    · have hmissing := extract_of_refuses h (.missing (p := .value v) rfl (not_exists.mp hleads))
      cases (parseChain_of_error hmissing [e]).symm.trans hok
  · rintro ⟨x, hx, hobject, hxs⟩
    rw [parseChain_plain h heach hserialized e hx]
    exact bind_ok_iff.mpr ⟨_,Chain.asEvent_ok_iff.mpr ⟨hobject,rfl⟩,hxs⟩

end

/-- A chain of two fields yields what the field with the joined pointer does, if the value between
them is an object. If it is another value the chain fails, also where the joined pointer leads
through it. -/
theorem parseChain_fields (m : Model α) (outer inner joined : String) {p q : String}
    (hp : IsPointer p) (hq : IsPointer q) (each serialized : Bool) (v : Json) :
    let chain := parseChain m [(ofPlace outer p false false).envelope,
      (ofPlace inner q each serialized).envelope] (.value v)
    let direct := (parseWith m (ofPlace joined (p ++ q) each serialized).envelope
      (.value v)).map Parsed.toList
    (∀ xs, chain = .ok xs ↔
      direct = .ok xs ∧ ∃ x, Json.Pointer.resolve p v = some x ∧ x.isObject = true) ∧
    ∀ x, Json.Pointer.resolve p v = some x → x.isObject = false →
      chain = .error (.invalidChain "RawEvent or list of RawEvent" x.kind.name outer) := by
  obtain ⟨ts, hts⟩ := hp.exists_tokens
  obtain ⟨us, hus⟩ := hq.exists_tokens
  intro chain direct
  have houter := tokens?_ofPlace outer hp false false hts
  have hinner := tokens?_ofPlace inner hq each serialized hus
  have hboth : Json.Pointer.tokens? (p ++ q).toList = some (ts ++ us) := by
    rw [String.toList_append]
    exact Json.Pointer.tokens?_append hts hus
  have hjoined := tokens?_ofPlace joined (hp.append hq) each serialized hboth
  constructor
  · intro xs
    refine (parseChain_plain_ok_iff houter rfl rfl _).trans (Iff.trans ?_
      (and_congr_left' (parseWith_joined_iff hinner hjoined rfl rfl)).symm)
    simp only [← resolve_eq_some_iff hts]
    constructor
    · rintro ⟨x, hx, hobject, hxs⟩
      exact ⟨⟨x,hx,hxs⟩,x,hx,hobject⟩
    · rintro ⟨⟨x, hx, hxs⟩, x', hx', hobject⟩
      obtain rfl : x = x' := Option.some.inj (hx.symm.trans hx')
      exact ⟨x,hx,hobject,hxs⟩
  · intro x hx hobject
    have hstops : Chain.asEvent (ofPlace outer p false false).envelope x =
        .error (.invalidChain "RawEvent or list of RawEvent" x.kind.name outer) :=
      Chain.asEvent_error_iff.mpr ⟨hobject,rfl⟩
    refine (parseChain_plain houter rfl rfl _ ((resolve_eq_some_iff hts).mp hx)).trans ?_
    rw [hstops]
    rfl

def order : Json := .mkObj [("a/b", .arr [.mkObj [("sku", .str "7")]])]

/-- At the array the chain stops; past it, at one of its objects, both ways lead on. -/
theorem order_fields :
    (IsPointer "/a~1b" ∧ IsPointer "/0/sku" ∧ IsPointer "/a~1b/0" ∧ IsPointer "/sku") ∧
    (parseWith (Shape.any.model "Value") (ofPlace "both" "/a~1b/0/sku" false true).envelope
      (.value order)).map Parsed.toList = .ok [.num (.int 7)] ∧
    parseChain (Shape.any.model "Value") [(ofPlace "lines" "/a~1b" false false).envelope,
      (ofPlace "sku" "/0/sku" false true).envelope] (.value order) =
        .error (.invalidChain "RawEvent or list of RawEvent" "array" "lines") ∧
    parseChain (Shape.any.model "Value") [(ofPlace "line" "/a~1b/0" false false).envelope,
      (ofPlace "sku" "/sku" false true).envelope] (.value order) = .ok [.num (.int 7)] := by
  have hlines : IsPointer "/a~1b" := .inr ⟨_,rfl⟩
  have hfirst : IsPointer "/0/sku" := .inr ⟨_,rfl⟩
  have hline : IsPointer "/a~1b/0" := .inr ⟨_,rfl⟩
  have hsku : IsPointer "/sku" := .inr ⟨_,rfl⟩
  have hboth : (parseWith (Shape.any.model "Value")
      (ofPlace "both" "/a~1b/0/sku" false true).envelope (.value order)).map Parsed.toList =
        .ok [.num (.int 7)] := rfl
  have hstops := (parseChain_fields (Shape.any.model "Value") "lines" "sku" "both" hlines hfirst
    false true order).2
  have hpasses := (parseChain_fields (Shape.any.model "Value") "line" "sku" "both" hline hsku
    false true order).1
  refine ⟨⟨hlines,hfirst,hline,hsku⟩,hboth,hstops _ rfl rfl,(hpasses _).mpr ⟨hboth,_,rfl,rfl⟩⟩

end Field
end Unseal
