import ChangeRules.Text.Blank
import ChangeRules.Text.Find
import ChangeRules.Value.Text

/-!
# Placeholders

A text may name fields of a record between two pairs of braces, with dots between the names of
nested fields. A text that is one placeholder and nothing else stands for the field's value itself;
in any other text the value's text is put in its place, and nothing where the field is missing or
null. What was put in is not looked at again.

* `Placeholder.front?`: the placeholder at the front of a text.
* `Template.ofChars`: a text cut into placeholders and what stands between them.
* `Template.render`: a value with all placeholders filled in.
* **`Template.chars_ofChars`**: cutting a text loses nothing.
-/

namespace ChangeRules

/-- A placeholder as it is written: the blanks around the path are kept. -/
structure Placeholder where
  before : List Char
  path : List Char
  behind : List Char
  deriving DecidableEq

namespace Placeholder

/-- The characters of a path. -/
def isPathChar (c : Char) : Bool :=
  c.isAlphanum || c == '_' || c == '.'

/-- A placeholder in characters. -/
def chars (p : Placeholder) : List Char :=
  '\x7b' :: '\x7b' :: (p.before ++ p.path ++ p.behind ++ ['\x7d', '\x7d'])

/-- The placeholder at the front of a text, and what follows it. -/
def front? : List Char → Option (Placeholder × List Char)
  | '\x7b' :: '\x7b' :: cs =>
    let before := cs.takeWhile Text.isBlank
    let cs := cs.dropWhile Text.isBlank
    let path := cs.takeWhile isPathChar
    let cs := cs.dropWhile isPathChar
    let behind := cs.takeWhile Text.isBlank
    match cs.dropWhile Text.isBlank with
    | '\x7d' :: '\x7d' :: rest => if path.isEmpty then none else some (⟨before, path, behind⟩, rest)
    | _ => none
  | _ => none

/-- A placeholder and what follows it make up the text. -/
theorem chars_append_of_front? {cs rest : List Char} {p : Placeholder}
    (h : front? cs = some (p, rest)) : p.chars ++ rest = cs := by
  unfold front? at h
  split at h
  · next cs =>
    dsimp only at h
    split at h
    · next hrest =>
      split at h
      · cases h
      · simp only [Option.some.injEq, Prod.mk.injEq] at h
        obtain ⟨rfl, rfl⟩ := h
        simp only [chars, List.cons_append, List.append_assoc, List.nil_append]
        rw [← hrest, List.takeWhile_append_dropWhile, List.takeWhile_append_dropWhile,
          List.takeWhile_append_dropWhile]
    · cases h
  · cases h

theorem length_lt_of_front? {cs rest : List Char} {p : Placeholder}
    (h : front? cs = some (p, rest)) : rest.length < cs.length := by
  rw [← chars_append_of_front? h]
  simp [chars]
  omega

end Placeholder

/-! ## Cutting a text -/

/-- A piece of a text. -/
inductive Piece where
  | literal (c : Char)
  | placeholder (p : Placeholder)

namespace Piece

def chars : Piece → List Char
  | .literal c => [c]
  | .placeholder p => p.chars

end Piece

namespace Template

/-- A text cut into pieces: the leftmost placeholders that do not overlap, and the characters between
them. -/
def ofChars (cs : List Char) : List Piece :=
  match _h : Placeholder.front? cs with
  | some (p, rest) => .placeholder p :: ofChars rest
  | none =>
    match cs with
    | [] => []
    | c :: cs => .literal c :: ofChars cs
termination_by cs.length
decreasing_by
  · exact Placeholder.length_lt_of_front? _h
  · simp

/-- Cutting a text loses nothing. -/
theorem chars_ofChars (cs : List Char) : (ofChars cs).flatMap Piece.chars = cs := by
  fun_induction ofChars cs with
  | case1 cs p rest h ih =>
    simp only [List.flatMap_cons, Piece.chars, ih]
    exact Placeholder.chars_append_of_front? h
  | case2 h => rfl
  | case3 c cs h ih => simp [Piece.chars, ih]

/-- The names of nested fields that a path is made of. -/
def steps (path : List Char) : List String := (Text.splitAt '.' path).map String.ofList

/-- The value at the end of a path; null where there is none. -/
def lookUp (v : Value) : List String → Value
  | [] => v
  | name :: names =>
    match v with
    | .object fields => lookUp (Value.get fields name) names
    | _ => .null

/-- The value that a placeholder stands for. -/
def value (record : Value) (p : Placeholder) : Value := lookUp record (steps p.path)

/-- The text of a value in the place of a placeholder. -/
def insertion (v : Value) : List Char :=
  match v with
  | .null => []
  | v => v.display.toList

/-- A piece filled in. -/
def fill (record : Value) : Piece → List Char
  | .literal c => [c]
  | .placeholder p => insertion (value record p)

/-- A text filled in. -/
def fillText (record : Value) (s : String) : Value :=
  match Placeholder.front? (Text.trimChars s.toList) with
  | some (p, []) => value record p
  | _ => .text (String.ofList ((ofChars s.toList).flatMap (fill record)))

/-! ## Filling in -/

mutual

/-- A value with all placeholders filled in from a record. -/
def render (record : Value) : Value → Value
  | .text s => Template.fillText record s
  | .list items => .list (renderItems record items)
  | .object fields => .object (renderFields record fields)
  | v => v

def renderItems (record : Value) : List Value → List Value
  | [] => []
  | v :: vs => render record v :: renderItems record vs

def renderFields (record : Value) : List (String × Value) → List (String × Value)
  | [] => []
  | (k, v) :: fs => (k, render record v) :: renderFields record fs

end

end Template

end ChangeRules
