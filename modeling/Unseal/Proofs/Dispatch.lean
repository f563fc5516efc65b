import Unseal.Envelope.Field
import Unseal.Envelope.Sqs
import Unseal.Handler
import Unseal.Proofs.Chain.Event
import Unseal.Proofs.Chain.Stages
import Unseal.Proofs.Parsed

/-!
# Dispatch

What a parser makes of an event depends on the event, the model and the envelopes that its
building has left, and on nothing that happened before. The three paths agree: flattened, the
result is that of the chain whenever there is an envelope. Over a whole run the handler is called
once for every event that is parsed, in order, and for no other.
-/

set_option autoImplicit false

namespace Unseal

open Traversal

namespace EventParser

inductive Change where
  | push (e : Envelope)
  | replace (es : List Envelope)

def Change.replaces : Change → Bool
  | push _ => false
  | replace _ => true

def Change.envelopes : Change → List Envelope
  | push e => [e]
  | replace es => es

/-- The envelopes that changes leave: those of the last replacement and those pushed since. -/
def left : List Change → List Envelope
  | [] => []
  | c :: cs => if cs.any Change.replaces then left cs else c.envelopes ++ left cs

variable {α : Type}

def change (parser : EventParser α) : Change → EventParser α
  | .push e => parser.push e
  | .replace es => parser.withEnvelopes es

def build (m : Model α) (changes : List Change) : EventParser α :=
  changes.foldl change (ofModel m)

theorem change_model (parser : EventParser α) (c : Change) :
    (parser.change c).model = parser.model := by
  cases c <;> rfl

theorem change_envelopes (parser : EventParser α) (c : Change) :
    (parser.change c).envelopes =
      (if c.replaces then [] else parser.envelopes) ++ c.envelopes := by
  cases c <;> rfl

theorem foldl_change (changes : List Change) (parser : EventParser α) :
    (changes.foldl change parser).model = parser.model ∧
    (changes.foldl change parser).envelopes =
      (if changes.any Change.replaces then [] else parser.envelopes) ++ left changes := by
  induction changes generalizing parser with
  | nil => simp [left]
  | cons c cs ih =>
    obtain ⟨hmodel, henvelopes⟩ := ih (parser.change c)
    rw [List.foldl_cons]
    refine ⟨hmodel.trans (parser.change_model c),?_⟩
    rw [henvelopes, change_envelopes, List.any_cons, left]
    cases cs.any Change.replaces <;> cases c.replaces <;> simp

theorem build_eq (m : Model α) (changes : List Change) :
    build m changes = ⟨m, left changes⟩ := by
  obtain ⟨hmodel, henvelopes⟩ := foldl_change changes (ofModel m)
  have hnil : (ofModel m).envelopes = [] := rfl
  rw [hnil, ite_self, List.nil_append] at henvelopes
  exact congrArg₂ EventParser.mk hmodel henvelopes

/-! ## One event -/

section
variable (m : Model α) (p : Payload)

theorem parse_none : (EventParser.mk m []).parse p = (Unseal.parse m p).map .single := rfl

theorem parse_one (e : Envelope) : (EventParser.mk m [e]).parse p = parseWith m e p := rfl

theorem parse_several (e e' : Envelope) (es : List Envelope) :
    (EventParser.mk m (e :: e' :: es)).parse p = (parseChain m (e :: e' :: es) p).map .many := rfl

theorem parse_toList (e : Envelope) (es : List Envelope) :
    ((EventParser.mk m (e :: es)).parse p).map Parsed.toList = parseChain m (e :: es) p := by
  cases es with
  | nil => rw [parse_one, parseChain_one]
  | cons e' es =>
    rw [parse_several]
    cases parseChain m (e :: e' :: es) p <;> rfl

theorem parse_isSingle (e : Envelope) {r : Parsed α}
    (h : (EventParser.mk m [e]).parse p = .ok r) :
    ∃ q, e.extract p = .ok q ∧ r.isSingle = q.isSingle := by
  obtain ⟨q, hq, hr⟩ := bind_ok_iff.mp h
  exact ⟨q,hq,Parsed.isSingle_mapM hr⟩

end

/-! ## Runs -/

section Runs

variable {γ ρ : Type} {M : Type → Type} [Monad M]

def handleAll (parser : EventParser α) (events : List (Payload × γ))
    (handler : Parsed α → γ → M ρ) : M (List (Except ParseError ρ)) :=
  events.mapM fun x => parser.handle x.1 x.2 handler

/-- A handler that notes what it is called with. -/
def recording (handler : Parsed α → γ → M ρ) (r : Parsed α) (context : γ) :
    StateT (List (Parsed α × γ)) M ρ := do
  modify (· ++ [(r, context)])
  handler r context

def call? (parser : EventParser α) (x : Payload × γ) : Option (Parsed α × γ) :=
  (parser.parse x.1).toOption.map (·, x.2)

def error? {β : Type} : Except ParseError β → Option ParseError
  | .ok _ => none
  | .error e => some e

theorem handle_of_error {parser : EventParser α} {p : Payload} {e : ParseError}
    (h : parser.parse p = .error e) (context : γ) (handler : Parsed α → γ → M ρ) :
    parser.handle p context handler = pure (.error e) := by
  rw [handle, h]

variable [LawfulMonad M]

theorem handle_of_ok {parser : EventParser α} {p : Payload} {r : Parsed α}
    (h : parser.parse p = .ok r) (context : γ) (handler : Parsed α → γ → M ρ) :
    parser.handle p context handler = .ok <$> handler r context := by
  rw [handle, h, map_eq_pure_bind]

theorem handle_recording (parser : EventParser α) (x : Payload × γ) (handler : Parsed α → γ → M ρ)
    (calls : List (Parsed α × γ)) :
    (parser.handle x.1 x.2 (recording handler)).run calls =
      (fun answer => (answer, calls ++ (parser.call? x).toList)) <$>
        parser.handle x.1 x.2 handler := by
  unfold call?
  cases h : parser.parse x.1 with
  | error e => simp [handle_of_error h, Except.toOption]
  | ok r => simp [handle_of_ok h, Except.toOption, recording]

theorem handleAll_recording (parser : EventParser α) (events : List (Payload × γ))
    (handler : Parsed α → γ → M ρ) (calls : List (Parsed α × γ)) :
    (parser.handleAll events (recording handler)).run calls =
      (fun answers => (answers, calls ++ events.filterMap parser.call?)) <$>
        parser.handleAll events handler := by
  unfold handleAll
  induction events generalizing calls with
  | nil => simp
  | cons x events ih =>
    simp only [List.mapM_cons, StateT.run_bind, handle_recording, ih]
    cases h : parser.call? x <;> simp [h]

theorem handleAll_error? (parser : EventParser α) (events : List (Payload × γ))
    (handler : Parsed α → γ → M ρ) :
    List.map error? <$> parser.handleAll events handler =
      (fun _ => events.map fun x => error? (parser.parse x.1)) <$>
        parser.handleAll events handler := by
  unfold handleAll
  induction events with
  | nil => simp
  | cons x events ih =>
    have hrest := congrArg (fun run => (error? (parser.parse x.1) :: ·) <$> run) ih
    simp only [Functor.map_map] at hrest
    cases h : parser.parse x.1 with
    | error e => simpa [handle_of_error h, h, error?] using hrest
    | ok r => simpa [handle_of_ok h, h, error?] using congrArg (handler r x.2 >>= fun _ => ·) hrest

/-- A parser does to every event what the model and the envelopes left by its building say: with
none the event alone is parsed, else the chain is, and only a single envelope gives the result its
shape. Over a run the handler is called once, in order, for each event that is parsed, with its
result and its context; the other events end with the error of their parsing. -/
theorem build_dispatches (m : Model α) (changes : List Change) (events : List (Payload × γ))
    (handler : Parsed α → γ → M ρ) (calls : List (Parsed α × γ)) :
    (left changes = [] → ∀ p, (build m changes).parse p = (Unseal.parse m p).map .single) ∧
    (left changes ≠ [] → ∀ p,
      ((build m changes).parse p).map Parsed.toList = parseChain m (left changes) p) ∧
    (∀ p r, (build m changes).parse p = .ok r →
      (2 ≤ (left changes).length → r.isSingle = false) ∧
      ∀ e, left changes = [e] → ∃ q, e.extract p = .ok q ∧ r.isSingle = q.isSingle) ∧
    ((build m changes).handleAll events (recording handler)).run calls =
      (fun answers => (answers, calls ++ events.filterMap (build m changes).call?)) <$>
        (build m changes).handleAll events handler ∧
    List.map error? <$> (build m changes).handleAll events handler =
      (fun _ => events.map fun x => error? ((build m changes).parse x.1)) <$>
        (build m changes).handleAll events handler := by
  refine ⟨?_,?_,?_,handleAll_recording ..,handleAll_error? ..⟩
  · intro hnil p
    rw [build_eq, hnil, parse_none]
  · intro hne p
    obtain ⟨e, es, hleft⟩ := List.exists_cons_of_ne_nil hne
    rw [build_eq, hleft, parse_toList]
  · intro p r hr
    rw [build_eq] at hr
    constructor
    · intro htwo
      match hleft : left changes, htwo with
      | e :: e' :: es, _ =>
        rw [hleft, parse_several] at hr
        obtain ⟨xs, -, rfl⟩ := map_ok_iff.mp hr
        rfl
    · intro e hone
      rw [hone] at hr
      exact parse_isSingle m p e hr

/-- Every batch of items, after a queue that was put first has been replaced. -/
def batchChanges : List Change :=
  [.push .sqs, .replace [Field.envelope ⟨"batches", "/batches", true, false⟩],
    .push (Field.envelope ⟨"items", "/items", true, false⟩)]

def batchEvents : List (Payload × String) :=
  [(.value (.obj [("batches", .arr [.obj [("items", .arr [.num (.int 1), .num (.int 2)])],
      .obj [("items", .arr [.num (.int 3)])]])]), "first"),
    (.value (.obj [("batches", .arr [.bool true])]), "second")]

def countResults (r : Parsed Json) (_ : String) : Id Nat := r.length

theorem batches_dispatch :
    LawfulMonad Id ∧ (left batchChanges).length = 2 ∧
    ((build Chain.anyModel batchChanges).handleAll batchEvents (recording countResults)).run [] =
      ([.ok 3, .error (.invalidChain "RawEvent or list of RawEvent" "boolean" "batches")],
        [(.many [.num (.int 1), .num (.int 2), .num (.int 3)], "first")]) :=
  ⟨inferInstance,rfl,
    (build_dispatches Chain.anyModel batchChanges batchEvents countResults []).2.2.2.1.trans rfl⟩

end Runs

end EventParser
end Unseal
