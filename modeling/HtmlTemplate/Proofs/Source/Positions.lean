import HtmlTemplate.Proofs.Source.Pieces
import Mathlib.Data.Nat.Find

/-! Lines and columns as functions of the offset. The scanner counts them while it moves; here
they are read off the text, by the newlines up to a place, and every move is shown to keep
the two in step. -/
namespace HtmlTemplate

namespace Source

/-- The line of a place: one more than there are newlines behind the first character, up to
the place itself. A newline belongs to the line that it begins. -/
def lineAt (source : List Char) (place : Nat) : Nat :=
  1 + ((source.drop 1).take place).count '\n'

/-- Where the line of a place begins: at the last newline that is not behind it, or with the
text. -/
def lineStart (source : List Char) (place : Nat) : Nat :=
  Nat.findGreatest (fun q => source[q]? = some '\n') place

/-- The column of a place, counted from the beginning of its line. -/
def columnAt (source : List Char) (place : Nat) : Nat :=
  place - lineStart source place + 1

/-- What is reported for an offset. The end of the text is reported as its last character. -/
def locationAt (source : List Char) (file : String) (offset : Nat) : Location :=
  let place := min offset (source.length - 1)
  ⟨file, lineAt source place, columnAt source place⟩

section

variable {source : List Char} {place : Nat} {next : Char}

theorem lineAt_zero (source : List Char) : lineAt source 0 = 1 := by
  simp [lineAt]

theorem columnAt_zero (source : List Char) : columnAt source 0 = 1 := by
  simp [columnAt, lineStart]

theorem lineAt_succ (h : source[place + 1]? = some next) :
    lineAt source (place + 1) =
      if next = '\n' then lineAt source place + 1 else lineAt source place := by
  have hNext : (source.drop 1)[place]? = some next := by
    rw [List.getElem?_drop, Nat.add_comm, h]
  unfold lineAt
  rw [List.take_add_one, hNext, List.count_append]
  by_cases hLine : next = '\n'
  · subst hLine
    simp [Nat.add_assoc]
  · simp [hLine]

theorem lineStart_le (source : List Char) (place : Nat) : lineStart source place ≤ place :=
  Nat.findGreatest_le place

theorem columnAt_succ (h : source[place + 1]? = some next) :
    columnAt source (place + 1) = if next = '\n' then 1 else columnAt source place + 1 := by
  have hLe := lineStart_le source place
  unfold columnAt lineStart at *
  rw [Nat.findGreatest_succ, h]
  by_cases hLine : next = '\n'
  · subst hLine
    simp
  · rw [if_neg (by simpa using hLine), if_neg hLine]
    omega

end

end Source

namespace Cursor

open Source

/-- Whether a cursor stands in a text, with the line and column of its offset. -/
structure Follows (source : List Char) (c : Cursor) : Prop where
  rest_eq : c.rest = source.drop c.offset
  offset_le : c.offset ≤ source.length
  line_eq : c.line = lineAt source (min c.offset (source.length - 1))
  column_eq : c.column = columnAt source (min c.offset (source.length - 1))

variable {source : List Char} {c : Cursor}

theorem Follows.location_eq (h : c.Follows source) (file : String) :
    c.location file = locationAt source file c.offset := by
  simp [location, locationAt, h.line_eq, h.column_eq]

theorem follows_start (source : List Char) : (start source).Follows source where
  rest_eq := rfl
  offset_le := Nat.zero_le _
  line_eq := by rw [start, Nat.zero_min, lineAt_zero]
  column_eq := by rw [start, Nat.zero_min, columnAt_zero]

/-- Behind the last character line and column stay what they are, -/
theorem line_column_advance_last {last : Char} (h : c.rest = [last]) :
    c.advance.line = c.line ∧ c.advance.column = c.column := by
  obtain ⟨rest, offset, line, column⟩ := c
  subst h
  exact ⟨rfl, rfl⟩

/-- and otherwise they are those of the character that is moved onto. -/
theorem line_column_advance {first next : Char} {behind : List Char}
    (h : c.rest = first :: next :: behind) :
    c.advance.line = (if next = '\n' then c.line + 1 else c.line) ∧
      c.advance.column = if next = '\n' then 1 else c.column + 1 := by
  obtain ⟨rest, offset, line, column⟩ := c
  subst h
  by_cases hLine : next = '\n' <;> simp [advance, hLine]

/-- One move keeps line and column in step with the offset. -/
theorem Follows.advance (h : c.Follows source) : c.advance.Follows source := by
  have hLe := h.offset_le
  have hLength : c.rest.length = source.length - c.offset := by rw [h.rest_eq, List.length_drop]
  cases hRest : c.rest with
  | nil => rwa [advance_nil hRest]
  | cons first behind =>
      have hOffset : c.advance.offset = c.offset + 1 := offset_advance (by simp [hRest])
      have hBehind : c.advance.rest = source.drop c.advance.offset := by
        rw [rest_advance, h.rest_eq, hOffset, List.tail_drop]
      rw [hRest, List.length_cons] at hLength
      cases behind with
      | nil =>
          rw [List.length_nil] at hLength
          obtain ⟨hLine, hColumn⟩ := line_column_advance_last hRest
          have hPlace : min c.advance.offset (source.length - 1) =
              min c.offset (source.length - 1) := by omega
          exact ⟨hBehind, by omega, by rw [hLine, hPlace, h.line_eq],
            by rw [hColumn, hPlace, h.column_eq]⟩
      | cons next behind =>
          rw [List.length_cons] at hLength
          obtain ⟨hLine, hColumn⟩ := line_column_advance hRest
          have hNext : source[c.offset + 1]? = some next := by
            rw [← List.getElem?_drop, ← h.rest_eq, hRest]
            rfl
          have hHere : min c.offset (source.length - 1) = c.offset := by omega
          have hThere : min c.advance.offset (source.length - 1) = c.offset + 1 := by omega
          refine ⟨hBehind, by omega, ?_, ?_⟩
          · rw [hLine, hThere, lineAt_succ hNext, h.line_eq, hHere]
          · rw [hColumn, hThere, columnAt_succ hNext, h.column_eq, hHere]

/-- So do any number of them. -/
theorem Follows.skip (h : c.Follows source) (n : Nat) : (c.skip n).Follows source := by
  induction n generalizing c with
  | zero => exact h
  | succ n ih => exact ih h.advance

theorem Follows.offset_finish (h : c.Follows source) : c.finish.offset = source.length := by
  have hLe := h.offset_le
  have hLength : c.rest.length = source.length - c.offset := by rw [h.rest_eq, List.length_drop]
  rw [finish, offset_skip]
  omega

end Cursor

end HtmlTemplate
