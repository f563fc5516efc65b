import Unseal.Proofs.Record.Following
import Unseal.Proofs.Record.Tidy

/-!
# Scalars, lists and dictionaries in one pass

Each shape but a record, given that the shapes within are read as their trees are.
-/

set_option autoImplicit false

namespace Unseal

open Json (Cursor Reads ReadsItems ReadsMembers)
open TextReader (Follows Gathers)

variable {depth : Nat} {c c' : Cursor} {t : Json}

/-! ## Scalars -/

theorem Shape.stands_text (h : Reads depth c t c') :
    Follows (Shape.text.readFrom depth c) ((Shape.text.ofJson t).map Shape.text.tidy) c' := by
  cases t with
  | str s =>
    show Follows (TextReader.readString c _) (.ok s) c'
    rw [TextReader.follows_readString h]
    exact .done
  | _ => exact TextReader.follows_readString_other h (by simp [Json.kind])

theorem Shape.stands_integer {w : Width} (h : Reads depth c t c') :
    Follows ((Shape.integer w).readFrom depth c)
      (((Shape.integer w).ofJson t).map (Shape.integer w).tidy) c' := by
  cases t with
  | num n =>
    show Follows (TextReader.readNumber c _ >>= _) ((ofNumber w n).map _) c'
    rw [TextReader.follows_readNumber h]
    exact .settle _ _ fun _ => rfl
  | _ => exact (TextReader.follows_readNumber_other h (by simp [Json.kind])).bind_error

theorem Shape.stands_real (h : Reads depth c t c') :
    Follows (Shape.real.readFrom depth c) ((Shape.real.ofJson t).map Shape.real.tidy) c' := by
  cases t with
  | num n =>
    show Follows (TextReader.readNumber c _ >>= _) (.ok n.toBinary64) c'
    rw [TextReader.follows_readNumber h]
    exact .done
  | _ => exact (TextReader.follows_readNumber_other h (by simp [Json.kind])).bind_error

theorem Shape.stands_flag (h : Reads depth c t c') :
    Follows (Shape.flag.readFrom depth c) ((Shape.flag.ofJson t).map Shape.flag.tidy) c' := by
  cases t with
  | bool b =>
    show Follows (TextReader.readFlag c _) (.ok b) c'
    rw [TextReader.follows_readFlag h]
    exact .done
  | _ => exact TextReader.follows_readFlag_other h (by simp [Json.kind])

theorem Shape.stands_instant (h : Reads depth c t c') :
    Follows (Shape.instant.readFrom depth c) ((Shape.instant.ofJson t).map Shape.instant.tidy)
      c' := by
  cases t with
  | str s =>
    show Follows (TextReader.readString c _ >>= _) ((ofInstantText s).map _) c'
    rw [TextReader.follows_readString h]
    exact .settle _ _ fun _ => rfl
  | _ => exact (TextReader.follows_readString_other h (by simp [Json.kind])).bind_error

theorem Shape.stands_any (h : Reads depth c t c') :
    Follows (Shape.any.readFrom depth c) ((Shape.any.ofJson t).map Shape.any.tidy) c' := by
  have hv := h.readValue (n := Json.fuelFor c) (by simp [Json.fuelFor, Cursor.left]; omega)
  change Follows (TextReader.lift (Json.readValue _ _ _)) (.ok t.normal) c'
  rw [hv]
  exact .done

/-! ## Containers -/

section Containers

variable {s : Shape} (hs : ∀ t depth c c', Reads depth c t c' →
  Follows (s.readFrom depth c) ((s.ofJson t).map s.tidy) c')

include hs

theorem Shape.stands_optional (h : Reads depth c t c') :
    Follows ((Shape.optional s).readFrom depth c)
      (((Shape.optional s).ofJson t).map (Shape.optional s).tidy) c' := by
  show Follows (TextReader.nullable _ c.skipBlank) _ c'
  have hrest := hs t depth c.skipBlank c' h.skipBlank
  have hsome : ∀ v : Except Mismatch s.Carrier, ((v >>= fun x => .ok (some x)).map
      (Option.map s.tidy) : Except Mismatch (Option s.Carrier)) =
        v.map s.tidy >>= fun x => .ok (some x) := by
    intro v
    cases v <;> rfl
  cases t with
  | null =>
    rw [TextReader.nullable_null h]
    exact .done
  | _ =>
    rw [TextReader.nullable_other h (by simp [Json.kind])]
    exact (hsome _).symm ▸ hrest.bind fun y => .done (x := some y)

theorem Shape.stands_sequence (h : Reads depth c t c') :
    Follows ((Shape.sequence s).readFrom depth c)
      (((Shape.sequence s).ofJson t).map (Shape.sequence s).tidy) c' := by
  show Follows (TextReader.list _ depth _ c.skipBlank) _ c'
  cases t with
  | arr ts =>
    apply TextReader.follows_list h
    intro e hi he
    have heach := TextReader.gathers_each hi (fun t _ a b => hs t _ a b) hi.length_lt
    rw [Traversal.mapM_map_eq] at heach
    exact heach.close he
  | _ => exact TextReader.follows_list_other h (by simp [Json.kind])

theorem Shape.stands_dictionary (h : Reads depth c t c') :
    Follows ((Shape.dictionary s).readFrom depth c)
      (((Shape.dictionary s).ofJson t).map (Shape.dictionary s).tidy) c' := by
  show Follows (TextReader.object _ depth _ c.skipBlank) _ c'
  cases t with
  | obj ms =>
    apply TextReader.follows_object h
    intro e hm he
    refine Gathers.close (Gathers.congr (TextReader.gathers_fold (fun acc m => do
      let x ← (s.ofJson m.2).map s.tidy
      .ok (Members.insert m.1 x acc)) id hm ?_ hm.length_lt) fun r => ?_) he
    · intro m _ ms a b d hcolon ht
      have hvalue := hs m.2 _ b d ht
      change Gathers (TextReader.lift (Json.readColon a) >>= _) _ d
      rw [hcolon]
      change Gathers (s.readFrom _ b >>= _) _ d
      generalize s.readFrom _ b = r, (s.ofJson m.2).map s.tidy = v at hvalue
      cases hvalue with
      | done => exact .done
      | failed => exact .failed
    · rw [Except.map_id]
      exact foldlM_insert_map_iff s.ofJson s.tidy ms r
  | _ => exact TextReader.follows_object_other h (by simp [Json.kind])

end Containers

end Unseal
