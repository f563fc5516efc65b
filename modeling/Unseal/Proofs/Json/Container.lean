import Unseal.Proofs.Json.Scalar

/-!
# The steps between the parts of a container

What each step consumes and where it can end. None of them looks at the values in between.
-/

set_option autoImplicit false

namespace Unseal.Json

theorem nextItem_stop {first : Bool} {c c' : Cursor} (h : nextItem first c = .ok (.stop c')) :
    c' = c.skipBlank ∧ ∃ cs, c'.rest = ']' :: cs := by
  unfold nextItem at h
  dsimp only at h
  split at h
  next => cases h
  next x cs hc =>
    split at h
    next hx =>
      cases h
      exact ⟨rfl,cs,by rw [hc, hx]⟩
    next =>
      split at h
      · cases h
      · split at h
        · split at h
          · cases h
          · split at h <;> cases h
        · cases h

theorem nextItem_of_end (first : Bool) {c : Cursor} {cs : List Char}
    (h : c.skipBlank.rest = ']' :: cs) : nextItem first c = .ok (.stop c.skipBlank) := by
  simp [nextItem, h]

/-- An element is preceded by white space alone, or by a comma between white space. -/
theorem nextItem_part {first : Bool} {c c' : Cursor} (h : nextItem first c = .ok (.part c')) :
    (∃ x cs, c.skipBlank.rest = x :: cs ∧ x ≠ ']') ∧
      if first then c' = c.skipBlank
      else (∃ cs, c.skipBlank.rest = ',' :: cs) ∧ c' = c.skipBlank.eat.skipBlank := by
  unfold nextItem at h
  dsimp only at h
  split at h
  next => cases h
  next x cs hc =>
    split at h
    next => cases h
    next hx =>
      refine ⟨⟨x,cs,hc,hx⟩,?_⟩
      split at h
      next hf => cases h; simp [hf]
      next hf =>
        split at h
        next hy =>
          split at h
          · cases h
          · split at h
            · cases h
            · cases h
              simpa [hf] using ⟨cs,by rw [hc, hy]⟩
        next => cases h

theorem nextItem_left {first : Bool} {c c' : Cursor} (h : nextItem first c = .ok (.part c')) :
    c'.left ≤ c.left := by
  have hle := c.skipBlank_left
  have hp := (nextItem_part h).2
  split at hp
  · rw [hp]
    exact hle
  · obtain ⟨⟨cs, hc⟩, rfl⟩ := hp
    have he := Cursor.eat_left hc
    have hb := c.skipBlank.eat.skipBlank_left
    omega

theorem nextKeyQuote_stop {first : Bool} {c c' : Cursor}
    (h : nextKeyQuote first c = .ok (.stop c')) :
    c' = c.skipBlank ∧ ∃ cs, c'.rest = '\x7d' :: cs := by
  unfold nextKeyQuote at h
  dsimp only at h
  split at h
  next => cases h
  next x cs hc =>
    split at h
    next hx =>
      cases h
      exact ⟨rfl,cs,by rw [hc, hx]⟩
    next =>
      split at h
      · split at h <;> cases h
      · split at h
        · split at h
          · cases h
          · split at h
            · cases h
            · split at h <;> cases h
        · cases h

theorem nextKeyQuote_part {first : Bool} {c c' : Cursor}
    (h : nextKeyQuote first c = .ok (.part c')) :
    (∃ cs, c'.rest = '"' :: cs) ∧
      if first then c' = c.skipBlank
      else (∃ cs, c.skipBlank.rest = ',' :: cs) ∧ c' = c.skipBlank.eat.skipBlank := by
  unfold nextKeyQuote at h
  dsimp only at h
  split at h
  next => cases h
  next x cs hc =>
    split at h
    next => cases h
    next =>
      split at h
      next hf =>
        split at h
        next hx =>
          cases h
          exact ⟨⟨cs,by rw [hc, hx]⟩,by simp [hf]⟩
        next => cases h
      next hf =>
        split at h
        next hx =>
          split at h
          next => cases h
          next y ys hy =>
            split at h
            next hq =>
              cases h
              exact ⟨⟨ys,by rw [hy, hq]⟩,by simpa [hf] using ⟨cs,by rw [hc, hx]⟩⟩
            next => split at h <;> cases h
        next => cases h

theorem nextKeyQuote_left {first : Bool} {c c' : Cursor}
    (h : nextKeyQuote first c = .ok (.part c')) : c'.left ≤ c.left := by
  have hle := c.skipBlank_left
  have hp := (nextKeyQuote_part h).2
  split at hp
  · rw [hp]
    exact hle
  · obtain ⟨⟨cs, hc⟩, rfl⟩ := hp
    have he := Cursor.eat_left hc
    have hb := c.skipBlank.eat.skipBlank_left
    omega

theorem nextKey_stop {first : Bool} {c c' : Cursor} (h : nextKey first c = .ok (.stop c')) :
    nextKeyQuote first c = .ok (.stop c') := by
  unfold nextKey at h
  split at h
  next => cases h
  next hq => cases h; exact hq
  next => split at h <;> cases h

theorem nextKey_part {first : Bool} {c c' : Cursor} {k : String}
    (h : nextKey first c = .ok (.part (k, c'))) :
    ∃ q, nextKeyQuote first c = .ok (.part q) ∧ readString q.eat = .ok (k, c') := by
  unfold nextKey at h
  split at h
  next => cases h
  next => cases h
  next q hq =>
    split at h
    next hs => cases h; exact ⟨q,hq,hs⟩
    next => cases h

theorem nextKey_left {first : Bool} {c c' : Cursor} {k : String}
    (h : nextKey first c = .ok (.part (k, c'))) : c'.left < c.left := by
  obtain ⟨q, hq, hs⟩ := nextKey_part h
  obtain ⟨cs, hc⟩ := (nextKeyQuote_part hq).1
  have hle := nextKeyQuote_left hq
  have he := Cursor.eat_left hc
  have hr := readString_left hs
  omega

theorem readColon_left {c c' : Cursor} (h : readColon c = .ok c') : c'.left < c.left := by
  unfold readColon at h
  dsimp only at h
  have hle := c.skipBlank_left
  split at h
  next => cases h
  next x cs hc =>
    split at h
    · cases h
      have he := Cursor.eat_left hc
      omega
    · cases h

theorem closed_closeList {c c' : Cursor} :
    closed (closeList c) = .ok c' ↔ (∃ cs, c.skipBlank.rest = ']' :: cs) ∧
      c' = c.skipBlank.eat := by
  unfold closeList
  dsimp only
  split
  next hc => simp [closed, hc]
  next x cs hc =>
    by_cases hx : x = ']'
    · simp [closed, hc, hx, eq_comm]
    · by_cases hy : x = ','
      · subst hy
        simp only [hc, Char.reduceEq, if_false, if_true, List.cons.injEq, false_and, exists_false,
          iff_false]
        split <;> simp [closed]
      · simp [closed, hc, hx, hy]

theorem closed_closeObject {c c' : Cursor} :
    closed (closeObject c) = .ok c' ↔ (∃ cs, c.skipBlank.rest = '\x7d' :: cs) ∧
      c' = c.skipBlank.eat := by
  unfold closeObject
  dsimp only
  split
  next hc => simp [closed, hc]
  next x cs hc =>
    by_cases hx : x = '\x7d'
    · simp [closed, hc, hx, eq_comm]
    · by_cases hy : x = ',' <;> simp [closed, hc, hx, hy]

end Unseal.Json
