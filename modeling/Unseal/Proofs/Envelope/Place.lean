import Unseal.Proofs.Json.Walk

/-!
# The place of a field

A field takes what the tokens of its pointer lead to, or every element of the array there. It
fails only where the event cannot be read, where the tokens lead nowhere and where no array is to
be taken apart; the last two it reports at its pointer.
-/

set_option autoImplicit false

namespace Unseal

open Json.Pointer (Leads)

namespace Field

/-- How a value is handed on: a string is the text of a payload if it holds serialized JSON. -/
inductive Hands (serialized : Bool) : Json → Payload → Prop
  | text {t : String} : serialized = true → Hands serialized (.str t) (.text t)
  | value {v : Json} : (serialized = true → v.kind ≠ .string) → Hands serialized v (.value v)

inductive Gives (each serialized : Bool) : Json → Parsed Payload → Prop
  | one {x : Json} {q : Payload} :
      each = false → Hands serialized x q → Gives each serialized x (.single q)
  | many {vs : List Json} {qs : List Payload} :
      each = true → List.Forall₂ (Hands serialized) vs qs →
      Gives each serialized (.arr vs) (.many qs)

inductive Refuses (f : Field) (ts : List String) (p : Payload) : ParseError → Prop
  | unreadable {fault : Json.Fault} :
      p.toJson = .error fault → Refuses f ts p (.invalid (.ofReading f.name fault.message))
  | missing {v : Json} :
      p.toJson = .ok v → (∀ x, ¬Leads ts v x) →
      Refuses f ts p (.invalid (.missing f.name f.pointer))
  | notArray {v x : Json} :
      p.toJson = .ok v → Leads ts v x → f.each = true → x.kind ≠ .array →
      Refuses f ts p (.invalid (.single f.name f.pointer ("expected array, found " ++ x.kind.name)))

variable {f : Field} {p : Payload}

theorem hands_iff {v : Json} {q : Payload} : Hands f.serialized v q ↔ f.toPayload v = q := by
  constructor
  · intro h
    cases h with
    | text hs => exact if_pos hs
    | value hk =>
      cases v with
      | str t => exact if_neg fun hs => hk hs rfl
      | _ => rfl
  · rintro rfl
    cases v with
    | str t =>
      by_cases hs : f.serialized = true
      · rw [show f.toPayload (.str t) = .text t from if_pos hs]
        exact .text hs
      · rw [show f.toPayload (.str t) = .value (.str t) from if_neg hs]
        exact .value fun h => absurd h hs
    | _ => exact .value fun _ => nofun

theorem forall₂_hands_iff {vs : List Json} {qs : List Payload} :
    List.Forall₂ (Hands f.serialized) vs qs ↔ vs.map f.toPayload = qs := by
  simp only [funext₂ fun v q => propext (hands_iff (f := f) (v := v) (q := q))]
  rw [← List.forall₂_map_left_iff, List.forall₂_eq_eq_eq]

theorem resolve_eq_some_iff {pointer : String} {ts : List String}
    (h : Json.Pointer.tokens? pointer.toList = some ts) {v x : Json} :
    Json.Pointer.resolve pointer v = some x ↔ Leads ts v x := by
  rw [Json.Pointer.resolve, h, Option.bind_some, Json.Pointer.walk_eq_some_iff]

theorem exists_gives (each serialized : Bool) (x : Json) :
    (∃ r, Gives each serialized x r) ∨ (each = true ∧ x.kind ≠ .array) := by
  let g : Field := ⟨"", "", each, serialized⟩
  cases each with
  | false => exact .inl ⟨_,.one rfl (hands_iff (f := g).mpr rfl)⟩
  | true =>
    cases x with
    | arr vs => exact .inl ⟨_,.many rfl (forall₂_hands_iff (f := g).mpr rfl)⟩
    | _ => exact .inr ⟨rfl,nofun⟩

theorem gives_or_refuses (f : Field) (ts : List String) (p : Payload) :
    (∃ v x r, p.toJson = .ok v ∧ Leads ts v x ∧ Gives f.each f.serialized x r) ∨
      ∃ err, f.Refuses ts p err := by
  cases hp : p.toJson with
  | error fault => exact .inr ⟨_,.unreadable hp⟩
  | ok v =>
    by_cases hx : ∃ x, Leads ts v x
    · obtain ⟨x, hx⟩ := hx
      rcases exists_gives f.each f.serialized x with ⟨r, hr⟩ | ⟨heach, hkind⟩
      · exact .inl ⟨v,x,r,rfl,hx,hr⟩
      · exact .inr ⟨_,.notArray hp hx heach hkind⟩
    · exact .inr ⟨_,.missing hp (not_exists.mp hx)⟩

section
variable {ts : List String} (h : Json.Pointer.tokens? f.pointer.toList = some ts)
include h

theorem extract_of_gives {v x : Json} {r : Parsed Payload} (hv : p.toJson = .ok v)
    (hx : Leads ts v x) (hr : Gives f.each f.serialized x r) : f.envelope.extract p = .ok r := by
  have hresolve := (resolve_eq_some_iff h).mpr hx
  cases hr with
  | one heach hq =>
    obtain rfl := hands_iff.mp hq
    simp [envelope, extract, hv, hresolve, heach]
  | many heach hqs =>
    obtain rfl := forall₂_hands_iff.mp hqs
    simp [envelope, extract, hv, hresolve, heach]

theorem extract_of_refuses {err : ParseError} (he : f.Refuses ts p err) :
    f.envelope.extract p = .error err := by
  cases he with
  | unreadable hp => simp [envelope, extract, hp]
  | @missing v hv hnone =>
    have hresolve : Json.Pointer.resolve f.pointer v = none :=
      Option.eq_none_iff_forall_ne_some.mpr fun x hx => hnone x ((resolve_eq_some_iff h).mp hx)
    simp [envelope, extract, hv, hresolve]
  | @notArray v x hv hx heach hkind =>
    have hresolve := (resolve_eq_some_iff h).mpr hx
    cases x with
    | arr vs => exact absurd rfl hkind
    | _ => simp [envelope, extract, hv, hresolve, heach]

theorem extract_ok_iff {r : Parsed Payload} :
    f.envelope.extract p = .ok r ↔
      ∃ v x, p.toJson = .ok v ∧ Leads ts v x ∧ Gives f.each f.serialized x r := by
  constructor
  · intro hok
    rcases gives_or_refuses f ts p with ⟨v, x, r', hv, hx, hr⟩ | ⟨err, he⟩
    · rw [extract_of_gives h hv hx hr] at hok
      cases hok
      exact ⟨v,x,hv,hx,hr⟩
    · rw [extract_of_refuses h he] at hok
      cases hok
  · rintro ⟨v, x, hv, hx, hr⟩
    exact extract_of_gives h hv hx hr

theorem extract_error_iff {err : ParseError} :
    f.envelope.extract p = .error err ↔ f.Refuses ts p err := by
  constructor
  · intro herror
    rcases gives_or_refuses f ts p with ⟨v, x, r, hv, hx, hr⟩ | ⟨err', he⟩
    · rw [extract_of_gives h hv hx hr] at herror
      cases herror
    · rw [extract_of_refuses h he] at herror
      cases herror
      exact he
  · exact extract_of_refuses h

end

/-! ## Fields by the tokens of their places -/

/-- A field made for a list of tokens takes exactly what they lead to and reports what it cannot
take at their pointer. One made for a literal key is that for the key as the only token. -/
theorem extract_place (name : String) (ts : List String) (each serialized : Bool) (p : Payload) :
    let place := String.ofList (Json.Pointer.ofTokens ts)
    let f := ofPlace name place each serialized
    f = ⟨name, place, each, serialized⟩ ∧
    (∀ r, f.envelope.extract p = .ok r ↔
      ∃ v x, p.toJson = .ok v ∧ Leads ts v x ∧ Gives each serialized x r) ∧
    (∀ err, f.envelope.extract p = .error err ↔ f.Refuses ts p err) ∧
    ∀ key, IsKey key →
      ofPlace name key each serialized =
        ofPlace name (String.ofList (Json.Pointer.ofTokens [key])) each serialized ∧
      ∀ ms x, Leads [key] (.obj ms) x ↔ Members.find? key ms = some x := by
  intro place f
  have hfield : f = ⟨name, place, each, serialized⟩ :=
    congrArg (Field.mk name · each serialized) (pointerOf_pointer (isPointer_ofTokens ts))
  have htokens : Json.Pointer.tokens? f.pointer.toList = some ts := by
    rw [hfield]
    exact String.toList_ofList ▸ Json.Pointer.tokens?_ofTokens ts
  refine ⟨hfield,fun r => extract_ok_iff htokens,fun err => extract_error_iff htokens,?_⟩
  intro key hkey
  refine ⟨congrArg (Field.mk name · each serialized) ?_,fun ms x => Json.Pointer.leads_key_iff⟩
  rw [pointerOf_pointer (isPointer_ofTokens [key]), pointerOf_key hkey]

def parcels : Json :=
  .mkObj [("a/b", .mkObj [("~1", .arr [.str "x", .num (.int 7)])]), ("a", .null)]

theorem parcels_place :
    (ofPlace "parcels" "/a~1b/~01" true true).envelope.extract (.value parcels) =
      .ok (.many [.text "x", .value (.num (.int 7))]) ∧
    (ofPlace "parcels" "/a~1b/~01/01" false false).envelope.extract (.value parcels) =
      .error (.invalid (.missing "parcels" "/a~1b/~01/01")) ∧
    IsKey "a/b" ∧ ofPlace "parcels" "a/b" true false = ofPlace "parcels" "/a~1b" true false := by
  have hkey : IsKey "a/b" := ⟨'a',['/', 'b'],rfl,by decide⟩
  have hlist := (extract_place "parcels" ["a/b", "~1"] true true (.value parcels)).2.1
  have hnone := (extract_place "parcels" ["a/b", "~1", "01"] false false (.value parcels)).2.2.1
  refine ⟨(hlist _).mpr ?_,(hnone _).mpr ?_,hkey,?_⟩
  · refine ⟨parcels,.arr [.str "x", .num (.int 7)],rfl,Json.Pointer.walk_eq_some_iff.mp rfl,?_⟩
    exact .many rfl (.cons (.text rfl) (.cons (.value fun _ => nofun) .nil))
  · refine .missing rfl fun x hx => ?_
    cases Json.Pointer.walk_eq_some_iff.mpr hx
  · exact ((extract_place "parcels" [] true false (.value parcels)).2.2.2 _ hkey).1

end Field
end Unseal
