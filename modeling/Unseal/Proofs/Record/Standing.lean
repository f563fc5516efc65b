import Unseal.Proofs.Record.Single

/-!
# Records in one pass

A text is read in one pass as its tree is read as it stands: a record refuses a field that comes
twice, what no field wants is skipped, and a dictionary reads every value before the last of equal
keys prevails.
-/

set_option autoImplicit false

namespace Unseal

open Json (Cursor Reads ReadsItems ReadsMembers)
open TextReader (Follows Gathers)

variable {depth : Nat} {c c' : Cursor} {t : Json}

namespace Fields

/-- The reader of one member and `put` find the same field, or none, or both fail. -/
inductive Finds {α : Type} :
    Except TextFault (Option (Reached α)) → Except Mismatch (Option α) → Cursor → Prop
  | passed {c : Cursor} : Finds (.ok none) (.ok none) c
  | done {x : α} {c : Cursor} : Finds (.ok (some (.ok x, c))) (.ok (some x)) c
  | stopped {m m' : Mismatch} {c c' : Cursor} :
      Finds (.ok (some (.error m, c'))) (.error m') c
  | failed {f : TextFault} {m : Mismatch} {c : Cursor} : Finds (.error f) (.error m) c

def absorbText (strict : Bool) (fs : Fields) (depth : Nat) (key : String) (slots : fs.Slots)
    (c : Cursor) : Except TextFault (Reached fs.Slots) := do
  match ← fs.readMember key depth c slots with
  | some step => .ok step
  | none =>
    if strict then .ok (.error (.unknown key fs.names), c)
    else
      let c ← TextReader.lift (Json.readColon c)
      let c ← TextReader.lift (Json.skipValue c)
      .ok (.ok slots, c)

theorem gathers_absorb {strict : Bool} {fs : Fields} {key : String} {slots : fs.Slots}
    {v : Except Mismatch (Option fs.Slots)} {a b d : Cursor}
    (hcolon : Json.readColon a = .ok b) (ht : Reads depth b t d)
    (h : Finds (fs.readMember key depth a slots) v d) :
    Gathers (absorbText strict fs depth key slots a)
      (do
        match ← v with
        | some slots => .ok slots
        | none => if strict then .error (.unknown key fs.names) else .ok slots) d := by
  unfold absorbText
  generalize fs.readMember key depth a slots = r at h
  cases h with
  | done => exact .done
  | stopped => exact .stopped
  | failed => exact .failed
  | passed =>
    cases strict with
    | true => exact .stopped
    | false =>
      show Gathers (TextReader.lift (Json.readColon a) >>= _) (.ok slots) d
      rw [hcolon]
      change Gathers (TextReader.lift (Json.skipValue b) >>= _) (.ok slots) d
      rw [ht.skipValue]
      exact .done

theorem finds_cons {k : Key} {s : Shape} {rest : Fields} {key : String}
    {slot : Option s.Carrier} {slots : rest.Slots} {v : Except Mismatch s.Carrier}
    {w : Except Mismatch (Option rest.Slots)} {a b d : Cursor}
    (hcolon : Json.readColon a = .ok b) (hs : Follows (s.readFrom depth b) v d)
    (hrest : Finds (rest.readMember key depth a slots) w d) :
    Finds (Fields.readMember key depth a (.cons k s rest) (slot, slots))
      (putCons key k slot slots v w) d := by
  show Finds (if k.answers key then _ else _) (if k.answers key then _ else _) d
  cases k.answers key with
  | true =>
    cases slot with
    | some x => exact .stopped
    | none =>
      show Finds (TextReader.lift (Json.readColon a) >>= _) (v >>= _) d
      rw [hcolon]
      change Finds (s.readFrom depth b >>= _) _ d
      generalize s.readFrom depth b = r at hs
      cases hs with
      | done => exact .done
      | failed => exact .failed
  | false =>
    show Finds (rest.readMember key depth a slots >>= _) (w >>= _) d
    generalize rest.readMember key depth a slots = r at hrest
    cases hrest with
    | passed => exact .passed
    | done => exact .done
    | stopped => exact .stopped
    | failed => exact .failed

/-- The reader of elements and `ofItems` take the same elements, or both fail. `ofItems` leaves
some over if the text goes on with some. -/
inductive Takes {α : Type} (depth : Nat) (e : Cursor) :
    Except TextFault (Reached α) → Except Mismatch (α × List Json) → Prop
  | done {x : α} {c : Cursor} {first : Bool} {ts left : List Json} :
      ReadsItems depth first c ts e → left.isEmpty = ts.isEmpty →
      Takes depth e (.ok (.ok x, c)) (.ok (x, left))
  | stopped {m m' : Mismatch} {c : Cursor} : Takes depth e (.ok (.error m, c)) (.error m')
  | failed {f : TextFault} {m : Mismatch} : Takes depth e (.error f) (.error m)

theorem Takes.cons {α β : Type} {r : Except TextFault (Reached β)}
    {v : Except Mismatch (β × List Json)} {e : Cursor} (h : Takes depth e r v) (x : α) :
    Takes depth e (r >>= fun p => .ok (p.1.map (x, ·), p.2))
      (v >>= fun p => .ok ((x, p.1), p.2)) := by
  cases h with
  | done hts hleft => exact .done hts hleft
  | stopped => exact .stopped
  | failed => exact .failed

theorem Takes.close {α : Type} {r : Except TextFault (Reached α)}
    {v : Except Mismatch (α × List Json)} {e : Cursor} {n : Nat} (h : Takes depth e r v)
    (he : Json.closed (Json.closeList e) = .ok c') :
    Follows (TextReader.close Json.closeList r)
      (do let (x, left) ← v; if left.isEmpty then .ok x else .error (.tooMany n)) c' := by
  cases h with
  | stopped => exact .failed
  | failed => exact .failed
  | @done x c first ts left hts hleft =>
    show Follows _ (if left.isEmpty then _ else _) c'
    rw [hleft]
    cases hts with
    | stop h =>
      have hclose : Json.closed (Json.closeList c) = .ok c' := by
        rw [(Json.nextItem_stop h).1, Json.closed_closeList] at he
        exact Json.closed_closeList.mpr (by simpa using he)
      simp only [TextReader.close, hclose, Except.map, TextReader.lift]
      exact .done
    | part h =>
      obtain ⟨⟨y, cs, hc, hy⟩, -⟩ := Json.nextItem_part h
      cases hclose : Json.closed (Json.closeList c) with
      | ok d =>
        obtain ⟨⟨cs, hq⟩, -⟩ := Json.closed_closeList.mp hclose
        rw [hc] at hq
        cases hq
        exact absurd rfl hy
      | error f =>
        simp only [TextReader.close, hclose, Except.map, TextReader.lift]
        exact .failed

section Items

variable {k : Key} {s : Shape} {rest : Fields} {record : String} {total i : Nat}

theorem takes_nil {first : Bool} {e : Cursor} {ts left : List Json}
    (h : ReadsItems depth first c ts e) (hleft : left.isEmpty = ts.isEmpty) :
    Takes depth e (Fields.readItems record total depth i first c .nil)
      (Fields.ofItems record total i .nil left) :=
  .done h hleft

section Cons

variable {first : Bool} {w : Except Mismatch (rest.Carrier × List Json)}

theorem takes_end {a e : Cursor} (h : Json.nextItem first c = .ok (.stop a)) {m : Mismatch}
    (hrest : Takes depth e (Fields.readItems record total depth (i + 1) first a rest) w) :
    Takes depth e (Fields.readItems record total depth i first c (.cons k s rest))
      (if k.presence = .required then .error m else w >>= fun p => .ok ((s.zero, p.1), p.2)) := by
  show Takes depth e (TextReader.lift (Json.nextItem first c) >>= _) _
  rw [h]
  change Takes depth e (if k.presence = .required then _ else _) _
  by_cases hk : k.presence = .required
  · rw [if_pos hk, if_pos hk]
    exact .stopped
  · rw [if_neg hk, if_neg hk]
    exact hrest.cons s.zero

theorem takes_item {v : Except Mismatch s.Carrier} {a b e : Cursor}
    (h : Json.nextItem first c = .ok (.part a)) (hvalue : Follows (s.readFrom depth a) v b)
    (hrest : Takes depth e (Fields.readItems record total depth (i + 1) false b rest) w) :
    Takes depth e (Fields.readItems record total depth i first c (.cons k s rest))
      (v >>= fun x => w >>= fun p => .ok ((x, p.1), p.2)) := by
  show Takes depth e (TextReader.lift (Json.nextItem first c) >>= _) _
  rw [h]
  change Takes depth e (s.readFrom depth a >>= _) (v >>= _)
  generalize s.readFrom depth a = r at hvalue
  cases hvalue with
  | failed => exact .failed
  | @done x => exact hrest.cons x

end Cons

theorem readsItems_end {first : Bool} {a : Cursor} (h : Json.nextItem first c = .ok (.stop a)) :
    ReadsItems depth first a [] a := by
  obtain ⟨rfl, cs, hc⟩ := Json.nextItem_stop h
  exact .stop (by simpa using Json.nextItem_of_end first (c := c.skipBlank) (by simpa using hc))

end Items

end Fields

theorem Shape.stands_record {name : String} {strict : Bool} {fs : Fields}
    (hfinds : ∀ key t slots depth a b d, Json.readColon a = .ok b → Reads depth b t d →
      Fields.Finds (fs.readMember key depth a (fs.tidySlots slots))
        ((fs.put key t slots).map (Option.map fs.tidySlots)) d)
    (htakes : ∀ depth e i first c ts, ReadsItems depth first c ts e →
      Fields.Takes depth e (Fields.readItems name fs.size depth i first c fs)
        (Fields.tidyItems (Fields.ofItems name fs.size i fs ts)))
    (h : Reads depth c t c') :
    Follows ((Shape.record name strict fs).readFrom depth c)
      (((Shape.record name strict fs).ofJson t).map (Shape.record name strict fs).tidy) c' := by
  refine TextReader.follows_either h (fun hk => ?_) fun hk => ?_
  · cases t with
    | obj ms =>
      apply TextReader.follows_object h
      intro e hm he
      have hmember : ∀ m ∈ ms, ∀ slots a b d, Json.readColon a = .ok b →
          Reads (depth - 1) b m.2 d →
          Gathers (Fields.absorbText strict fs (depth - 1) m.1 (fs.tidySlots slots) a)
            ((fs.absorb strict slots m).map fs.tidySlots) d := by
        intro m _ slots a b d hcolon ht
        rw [Fields.absorb_tidySlots]
        exact Fields.gathers_absorb hcolon ht (hfinds m.1 m.2 slots _ a b d hcolon ht)
      have hgather := TextReader.gathers_fold (fs.absorb strict) fs.tidySlots hm hmember
        (s := fs.empty) hm.length_lt
      rw [fs.tidySlots_empty] at hgather
      have hclose := (hgather.bind (g := fs.complete)).close he
      have hcomplete : (((ms.foldlM (fs.absorb strict) fs.empty).map fs.tidySlots) >>=
          fs.complete) = ((ms.foldlM (fs.absorb strict) fs.empty) >>= fs.complete).map fs.tidy := by
        cases ms.foldlM (fs.absorb strict) fs.empty with
        | error e => rfl
        | ok slots => exact fs.complete_tidySlots slots
      rw [hcomplete] at hclose
      exact hclose
    | arr ts => exact absurd rfl hk
    | _ => exact TextReader.follows_object_other h (by simp [Json.kind])
  · cases t with
    | arr ts =>
      refine TextReader.follows_list h fun e hi he => ?_
      have hclose := (htakes _ _ 0 true _ ts hi).close he (n := ts.length)
      rw [Fields.tidyItems_close] at hclose
      exact hclose
    | _ => cases hk

mutual
/-- The value here is read as its tree is where it stands. -/
theorem Shape.stands : ∀ (s : Shape) (t : Json) (depth : Nat) (c c' : Cursor),
    Reads depth c t c' → Follows (s.readFrom depth c) ((s.ofJson t).map s.tidy) c'
  | .text, _, _, _, _, h => Shape.stands_text h
  | .integer _, _, _, _, _, h => Shape.stands_integer h
  | .real, _, _, _, _, h => Shape.stands_real h
  | .flag, _, _, _, _, h => Shape.stands_flag h
  | .any, _, _, _, _, h => Shape.stands_any h
  | .instant, _, _, _, _, h => Shape.stands_instant h
  | .optional s, _, _, _, _, h => Shape.stands_optional s.stands h
  | .sequence s, _, _, _, _, h => Shape.stands_sequence s.stands h
  | .dictionary s, _, _, _, _, h => Shape.stands_dictionary s.stands h
  | .record _ _ fs, _, _, _, _, h => Shape.stands_record fs.stands_finds (fs.stands_takes _ _) h

theorem Fields.stands_finds : ∀ (fs : Fields) (key : String) (t : Json) (slots : fs.Slots)
    (depth : Nat) (a b d : Cursor), Json.readColon a = .ok b → Reads depth b t d →
    Fields.Finds (fs.readMember key depth a (fs.tidySlots slots))
      ((fs.put key t slots).map (Option.map fs.tidySlots)) d
  | .nil, _, _, _, _, _, _, _, _, _ => .passed
  | .cons _ s rest, key, t, (_, slots), depth, a, b, d, hcolon, ht => by
    rw [Fields.put_tidySlots]
    exact Fields.finds_cons hcolon (s.stands t depth b d ht)
      (rest.stands_finds key t slots depth a b d hcolon ht)

theorem Fields.stands_takes : ∀ (fs : Fields) (record : String) (total depth : Nat) (e : Cursor)
    (i : Nat) (first : Bool) (c : Cursor) (ts : List Json), ReadsItems depth first c ts e →
    Fields.Takes depth e (Fields.readItems record total depth i first c fs)
      (Fields.tidyItems (Fields.ofItems record total i fs ts))
  | .nil, _, _, _, _, _, _, _, _, h => Fields.takes_nil h rfl
  | .cons _ s rest, record, total, depth, e, i, first, c, ts, h => by
    cases h with
    | stop h =>
      rw [Fields.tidyItems_end]
      exact Fields.takes_end h (rest.stands_takes record total depth e (i + 1) first e []
        (Fields.readsItems_end h))
    | @part _ _ _ a b _ t ts h ht hts =>
      rw [Fields.tidyItems_item]
      exact Fields.takes_item h (s.stands t depth a b ht)
        (rest.stands_takes record total depth e (i + 1) false b ts hts)
end

end Unseal
