import HtmlTemplate.Source.Token
/-!
A cursor over source text. It counts characters, lines and columns as it moves;
`Cursor.rest_skip` says that moving drops characters and does nothing else to the
text.
-/
namespace HtmlTemplate

/-- What is left of a source text, and the place of its first character. A line
begins with its newline character, which stands in column 1. At the end of the
text the place stays that of the last character. -/
structure Cursor where
  rest : List Char
  offset : Nat
  line : Nat
  column : Nat

namespace Cursor

/-- The cursor at the beginning of a text. -/
def start (source : List Char) : Cursor :=
  ⟨source, 0, 1, 1⟩

/-- Moves past one character, if there is one. -/
def advance (c : Cursor) : Cursor :=
  match c.rest with
  | [] => c
  | [_] => { c with rest := [], offset := c.offset + 1 }
  | _ :: next :: rest =>
    if next = '\n' then ⟨next :: rest, c.offset + 1, c.line + 1, 1⟩
    else ⟨next :: rest, c.offset + 1, c.line, c.column + 1⟩

/-- Moves past `n` characters. -/
def skip (c : Cursor) : Nat → Cursor
  | 0 => c
  | n + 1 => c.advance.skip n

/-- Moves to the end of the text. -/
def finish (c : Cursor) : Cursor :=
  c.skip c.rest.length

/-- Moves past the characters at the front that satisfy `p`. -/
def skipWhile (c : Cursor) (p : Char → Bool) : Cursor :=
  c.skip (c.rest.takeWhile p).length

theorem rest_advance (c : Cursor) : c.advance.rest = c.rest.tail := by
  obtain ⟨rest, offset, line, column⟩ := c
  match rest with
  | [] => rfl
  | [_] => rfl
  | _ :: next :: rest => by_cases h : next = '\n' <;> simp [advance, h]

theorem rest_skip (c : Cursor) (n : Nat) : (c.skip n).rest = c.rest.drop n := by
  induction n generalizing c with
  | zero => rfl
  | succ n ih => rw [skip, ih, rest_advance, List.drop_tail]

theorem length_skip_le (c : Cursor) (n : Nat) : (c.skip n).rest.length ≤ c.rest.length := by
  simp [rest_skip]

theorem length_skipWhile_le (c : Cursor) (p : Char → Bool) :
    (c.skipWhile p).rest.length ≤ c.rest.length :=
  length_skip_le _ _

theorem length_skip_lt {c : Cursor} {n : Nat} (some : c.rest ≠ []) (positive : 0 < n) :
    (c.skip n).rest.length < c.rest.length := by
  have := List.length_pos_iff.2 some
  rw [rest_skip, List.length_drop]
  omega

/-- The location of the character under the cursor. -/
def location (c : Cursor) (file : String) : Location :=
  ⟨file, c.line, c.column⟩

/-- A token over the next `n` characters, placed where it ends, and the cursor
behind it. -/
def token (c : Cursor) (file : String) (kind : TokenKind) (value : List Char) (n : Nat) :
    Token × Cursor :=
  let after := c.skip n
  (⟨kind, String.ofList value, ⟨c.offset, after.offset, after.line, after.column⟩, file⟩, after)

/-- A token over the next `n` characters, placed where it begins, and the cursor
behind it. -/
def tokenHere (c : Cursor) (file : String) (kind : TokenKind) (value : List Char) (n : Nat) :
    Token × Cursor :=
  let after := c.skip n
  (⟨kind, String.ofList value, ⟨c.offset, after.offset, c.line, c.column⟩, file⟩, after)

end Cursor

end HtmlTemplate
