import Unseal.Envelope.Field

/-!
# Pointers and their tokens

The escapes of a token leave no slash in it and come undone, so a pointer has exactly the tokens
it was made of, and pointers one behind the other have the tokens of both. The pointer that a
literal key becomes names the member of that key.
-/

set_option autoImplicit false

namespace Unseal

namespace Json.Pointer

theorem slash_not_mem_escape (cs : List Char) : '/' ∉ escape cs := by
  simp only [escape, List.mem_flatMap, not_exists, not_and]
  intro c _
  unfold escapeChar
  split
  · decide
  split
  · decide
  next h => simpa using Ne.symm h

theorem splitSlash_of_not_mem {cs : List Char} (h : '/' ∉ cs) : splitSlash cs = [cs] := by
  induction cs with
  | nil => rfl
  | cons c cs ih =>
    obtain ⟨hc, hcs⟩ : '/' ≠ c ∧ '/' ∉ cs := by simpa using h
    rw [splitSlash, if_neg (Ne.symm hc), ih hcs]

theorem unescape_escapeChar (c : Char) (cs : List Char) :
    unescape (escapeChar c ++ cs) = c :: unescape cs := by
  unfold escapeChar
  split
  next h => subst h; rfl
  split
  next h => subst h; rfl
  next hne _ =>
    rw [List.singleton_append, unescape.eq_def]
    split
    next heq => exact absurd (List.cons.inj heq).1 hne
    next heq => exact absurd (List.cons.inj heq).1 hne
    next heq => cases heq; rfl
    next heq => cases heq

theorem unescape_escape (cs : List Char) : unescape (escape cs) = cs := by
  induction cs with
  | nil => rfl
  | cons c cs ih =>
    rw [escape, List.flatMap_cons, unescape_escapeChar]
    exact congrArg (c :: ·) ih

/-! ## Two passes -/

def replaceChar (old : Char) (new : List Char) (cs : List Char) : List Char :=
  cs.flatMap fun c => if c = old then new else [c]

/-- Every occurrence of a character after another replaced, from left to right. -/
def replacePair (first second new : Char) : List Char → List Char
  | a :: b :: cs =>
    if a = first ∧ b = second then new :: replacePair first second new cs
    else a :: replacePair first second new (b :: cs)
  | cs => cs

/-- The tildes go first: the escapes of the slashes bring new ones. -/
theorem escape_eq_replaceChar (cs : List Char) :
    escape cs = replaceChar '/' ['~', '1'] (replaceChar '~' ['~', '0'] cs) := by
  rw [escape, replaceChar, replaceChar, List.flatMap_assoc]
  congr
  funext c
  unfold escapeChar
  split
  next h => subst h; rfl
  next => exact (List.append_nil _).symm

theorem replacePair_cons {first second new c : Char} {cs : List Char}
    (h : c = first → cs.head? ≠ some second) :
    replacePair first second new (c :: cs) = c :: replacePair first second new cs := by
  cases cs with
  | nil => rfl
  | cons d cs =>
    rw [replacePair, if_neg]
    rintro ⟨hc, rfl⟩
    exact h hc rfl

theorem head?_replacePair {first second new c : Char} {cs : List Char}
    (h : (replacePair first second new cs).head? = some c) : c = new ∨ cs.head? = some c := by
  unfold replacePair at h
  split at h
  next =>
    split at h
    next => exact .inl (Option.some.inj h).symm
    next => exact .inr h
  next => exact .inr h

/-- Here the slashes go first: a tilde that comes back makes no escape with what follows it. -/
theorem unescape_eq_replacePair (cs : List Char) :
    unescape cs = replacePair '~' '0' '~' (replacePair '~' '1' '/' cs) := by
  fun_induction unescape cs with
  | case1 cs ih =>
    rw [ih, replacePair, if_pos ⟨rfl,rfl⟩]
    exact (replacePair_cons (by simp)).symm
  | case2 cs ih =>
    have hzero : replacePair '~' '1' '/' ('0' :: cs) = '0' :: replacePair '~' '1' '/' cs :=
      replacePair_cons (by simp)
    rw [ih, replacePair_cons (by simp), hzero, replacePair, if_pos ⟨rfl,rfl⟩]
  | case3 c cs hone hzero ih =>
    have hslash : c = '~' → cs.head? ≠ some '1' := by
      rintro rfl hhead
      obtain ⟨ds, rfl⟩ := List.head?_eq_some_iff.mp hhead
      exact hone ds rfl rfl
    have htilde : c = '~' → (replacePair '~' '1' '/' cs).head? ≠ some '0' := by
      rintro rfl hhead
      have hcs := (head?_replacePair hhead).resolve_left (by decide)
      obtain ⟨ds, rfl⟩ := List.head?_eq_some_iff.mp hcs
      exact hzero ds rfl rfl
    rw [ih, replacePair_cons hslash, replacePair_cons htilde]
  | case4 => rfl

/-! ## Slashes -/

theorem splitSlash_ne_nil (cs : List Char) : splitSlash cs ≠ [] := by
  cases cs with
  | nil => exact List.cons_ne_nil _ _
  | cons c cs =>
    rw [splitSlash]
    split
    · exact List.cons_ne_nil _ _
    · split <;> exact List.cons_ne_nil _ _

theorem splitSlash_append (cs ds : List Char) :
    splitSlash (cs ++ '/' :: ds) = splitSlash cs ++ splitSlash ds := by
  induction cs with
  | nil => rfl
  | cons c cs ih =>
    rw [List.cons_append, splitSlash, splitSlash, ih]
    split
    next => rfl
    next =>
      cases hcs : splitSlash cs with
      | nil => exact absurd hcs (splitSlash_ne_nil cs)
      | cons part parts => rfl

/-- A slash before every token and none in its escape: each is split off as it was. -/
theorem splitSlash_ofTokens (t : String) (ts : List String) :
    splitSlash (escape t.toList ++ ofTokens ts) = (t :: ts).map fun t => escape t.toList := by
  induction ts generalizing t with
  | nil =>
    rw [ofTokens, List.flatMap_nil, List.append_nil]
    exact splitSlash_of_not_mem (slash_not_mem_escape _)
  | cons u us ih =>
    rw [ofTokens, List.flatMap_cons, List.cons_append, splitSlash_append,
      splitSlash_of_not_mem (slash_not_mem_escape _)]
    exact congrArg _ (ih u)

theorem tokens?_ofTokens (ts : List String) : tokens? (ofTokens ts) = some ts := by
  cases ts with
  | nil => rfl
  | cons t ts =>
    have htokens : tokens? (ofTokens (t :: ts)) =
        some ((splitSlash (escape t.toList ++ ofTokens ts)).map
          fun cs => String.ofList (unescape cs)) := rfl
    have htoken : ∀ u : String, String.ofList (unescape (escape u.toList)) = u := by
      intro u
      rw [unescape_escape, String.ofList_toList]
    rw [htokens, splitSlash_ofTokens, List.map_map]
    exact congrArg some (List.map_congr_left (fun u _ => htoken u) |>.trans (List.map_id _))

theorem tokens?_append {cs ds : List Char} {ts us : List String} (hc : tokens? cs = some ts)
    (hd : tokens? ds = some us) : tokens? (cs ++ ds) = some (ts ++ us) := by
  unfold tokens? at hc hd
  split at hc
  next =>
    cases hc
    rw [List.nil_append, List.nil_append]
    exact hd
  next cs =>
    cases hc
    split at hd
    next =>
      cases hd
      rw [List.append_nil, List.append_nil]
      rfl
    next ds =>
      cases hd
      rw [List.cons_append, tokens?, splitSlash_append, List.map_append]
    next => cases hd
  next => cases hc

end Json.Pointer

def IsPointer (place : String) : Prop := place.toList = [] ∨ ∃ cs, place.toList = '/' :: cs

theorem IsPointer.exists_tokens {place : String} (h : IsPointer place) :
    ∃ ts, Json.Pointer.tokens? place.toList = some ts := by
  rcases h with hnil | ⟨cs, hslash⟩
  · exact ⟨[],by rw [hnil]; rfl⟩
  · exact ⟨_,by rw [hslash]; rfl⟩

theorem IsPointer.append {p q : String} (hp : IsPointer p) (hq : IsPointer q) :
    IsPointer (p ++ q) := by
  unfold IsPointer
  rw [String.toList_append]
  rcases hp with hnil | ⟨cs, hslash⟩
  · rw [hnil]
    exact hq
  · rw [hslash]
    exact .inr ⟨_,rfl⟩

theorem isPointer_ofTokens (ts : List String) :
    IsPointer (String.ofList (Json.Pointer.ofTokens ts)) := by
  unfold IsPointer
  rw [String.toList_ofList]
  cases ts with
  | nil => exact .inl rfl
  | cons t ts => exact .inr ⟨_,rfl⟩

theorem Field.pointerOf_pointer {place : String} (h : IsPointer place) :
    Field.pointerOf place = place := by
  unfold pointerOf
  rcases h with hnil | ⟨cs, hslash⟩
  · rw [hnil]
  · rw [hslash]
    exact if_pos rfl

def IsKey (key : String) : Prop := ∃ c cs, key.toList = c :: cs ∧ c ≠ '/'

theorem Field.pointerOf_key {key : String} (h : IsKey key) :
    Field.pointerOf key = String.ofList (Json.Pointer.ofTokens [key]) := by
  obtain ⟨c, cs, hkey, hc⟩ := h
  rw [pointerOf, hkey]
  simp [hc, Json.Pointer.ofTokens, hkey]

theorem Field.resolve_pointerOf {key : String} (h : IsKey key) (ms : List (String × Json)) :
    Json.Pointer.resolve (Field.pointerOf key) (.obj ms) = Members.find? key ms := by
  have htokens : Json.Pointer.tokens? (Field.pointerOf key).toList = some [key] := by
    rw [Field.pointerOf_key h, String.toList_ofList]
    exact Json.Pointer.tokens?_ofTokens [key]
  rw [Json.Pointer.resolve, htokens]
  change (Members.find? key ms).bind _ = _
  cases Members.find? key ms <;> rfl

end Unseal
