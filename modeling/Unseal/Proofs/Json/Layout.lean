import Unseal.Proofs.Json.Scalar
import Unseal.Json.Writer

/-!
# Layouts

The texts that a value is written as differ in white space only: in what stands before an element
or the end of a container, and after a colon. So what holds of the text in every layout holds of
the compact and of the indented text.
-/

set_option autoImplicit false

namespace Unseal.Json

def Blank (bs : List Char) : Prop := ∀ x ∈ bs, Cursor.isBlank x = true

/-- The white space around the parts of containers. -/
structure Layout where
  /-- Before an element inside `depth` containers, or before the end of a container inside them. -/
  gap : Nat → List Char
  space : List Char
  gap_blank : ∀ depth, Blank (gap depth)
  space_blank : Blank space

namespace Layout

def tight : Layout := ⟨fun _ => [], [], nofun, nofun⟩

theorem lineBreak_blank (depth : Nat) : Blank (lineBreak depth) := by
  intro x hx
  rcases List.mem_cons.mp hx with rfl | hx
  · rfl
  · rw [List.eq_of_mem_replicate hx]
    rfl

def lines : Layout := ⟨lineBreak, [' '], lineBreak_blank, by simp [Blank, Cursor.isBlank]⟩

mutual
/-- The text of a value inside `depth` containers. -/
def chars (l : Layout) (depth : Nat) : Json → List Char
  | arr [] => ['[', ']']
  | arr (v :: vs) =>
    '[' :: (l.gap (depth + 1) ++ (l.chars (depth + 1) v ++ l.itemChars depth vs))
  | obj [] => ['\x7b', '\x7d']
  | obj ((k, v) :: ms) =>
    '\x7b' :: (l.gap (depth + 1) ++ (stringChars k ++ ':' ::
      (l.space ++ (l.chars (depth + 1) v ++ l.memberChars depth ms))))
  | v => compactChars v

def itemChars (l : Layout) (depth : Nat) : List Json → List Char
  | [] => l.gap depth ++ [']']
  | v :: vs =>
    ',' :: (l.gap (depth + 1) ++ (l.chars (depth + 1) v ++ l.itemChars depth vs))

def memberChars (l : Layout) (depth : Nat) : List (String × Json) → List Char
  | [] => l.gap depth ++ ['\x7d']
  | (k, v) :: ms =>
    ',' :: (l.gap (depth + 1) ++ (stringChars k ++ ':' ::
      (l.space ++ (l.chars (depth + 1) v ++ l.memberChars depth ms))))
end

mutual
theorem chars_tight : ∀ (depth : Nat) (v : Json), tight.chars depth v = compactChars v
  | _, .null | _, .bool _ | _, .num _ | _, .str _ | _, .arr [] | _, .obj [] => rfl
  | depth, .arr (v :: vs) => by
    rw [chars, chars_tight, itemChars_tight, compactChars]
    rfl
  | depth, .obj ((k, v) :: ms) => by
    rw [chars, chars_tight, memberChars_tight, compactChars]
    rfl

theorem itemChars_tight : ∀ (depth : Nat) (vs : List Json),
    tight.itemChars depth vs = compactItems vs
  | _, [] => rfl
  | depth, v :: vs => by
    rw [itemChars, chars_tight, itemChars_tight, compactItems]
    rfl

theorem memberChars_tight : ∀ (depth : Nat) (ms : List (String × Json)),
    tight.memberChars depth ms = compactMembers ms
  | _, [] => rfl
  | depth, (k, v) :: ms => by
    rw [memberChars, chars_tight, memberChars_tight, compactMembers]
    rfl
end

mutual
theorem chars_lines : ∀ (depth : Nat) (v : Json), lines.chars depth v = indentedChars depth v
  | _, .null | _, .bool true | _, .bool false | _, .num _ | _, .str _ | _, .arr [] | _, .obj [] =>
    rfl
  | depth, .arr (v :: vs) => by
    rw [chars, chars_lines, itemChars_lines, indentedChars]
    rfl
  | depth, .obj ((k, v) :: ms) => by
    rw [chars, chars_lines, memberChars_lines, indentedChars]
    rfl

theorem itemChars_lines : ∀ (depth : Nat) (vs : List Json),
    lines.itemChars depth vs = indentedItems depth vs
  | _, [] => rfl
  | depth, v :: vs => by
    rw [itemChars, chars_lines, itemChars_lines, indentedItems]
    rfl

theorem memberChars_lines : ∀ (depth : Nat) (ms : List (String × Json)),
    lines.memberChars depth ms = indentedMembers depth ms
  | _, [] => rfl
  | depth, (k, v) :: ms => by
    rw [memberChars, chars_lines, memberChars_lines, indentedMembers]
    rfl
end

def ofRender (inline : Bool) : Layout := if inline then tight else lines

theorem render_eq (v : Json) (inline : Bool) :
    v.render inline = String.ofList ((ofRender inline).chars 0 v) := by
  cases inline
  · exact congrArg String.ofList (chars_lines 0 v).symm
  · exact congrArg String.ofList (chars_tight 0 v).symm

end Layout

/-! ## Reading past white space -/

theorem Cursor.skipBlank_blank {bs : List Char} (h : Blank bs) (cs : List Char) (p : Place) :
    ∃ q, Cursor.skipBlank ⟨bs ++ cs, p⟩ = Cursor.skipBlank ⟨cs, q⟩ := by
  induction bs generalizing p with
  | nil => exact ⟨p,rfl⟩
  | cons x bs ih =>
    obtain ⟨q, hq⟩ := ih (fun y hy => h y (List.mem_cons_of_mem x hy)) (p.advance x)
    refine ⟨q,?_⟩
    rw [← hq]
    simp [skipBlank, skipBlankFrom, h x List.mem_cons_self]

end Unseal.Json
