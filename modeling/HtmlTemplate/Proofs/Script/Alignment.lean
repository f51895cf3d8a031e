import HtmlTemplate.Proofs.Script.Relexing

/-! Where the tokens of a script text stand: all within the text, in order and none over
another. What the lexer refuses is some of the text as well. -/
namespace HtmlTemplate.Script

/-- An extent lies between two positions. -/
structure Extent.Within (p q : Nat) (x : Extent) : Prop where
  start_ge : p ≤ x.start
  start_le_stop : x.start ≤ x.stop
  stop_le : x.stop ≤ q

/-- An extent has some of the characters between two positions, and no others. -/
structure Extent.Occupies (p q : Nat) (x : Extent) : Prop where
  start_ge : p ≤ x.start
  start_lt_stop : x.start < x.stop
  stop_le : x.stop ≤ q

/-- The tokens of a text of `n` characters are in order: each stands within the text and has
some of its characters, unless it is the end of the text, and each ends before the next one
begins. -/
structure InOrder (n : Nat) (ts : List Token) : Prop where
  within : ∀ t ∈ ts, t.extent.Within 0 n
  occupies : ∀ t ∈ ts, t.lexeme ≠ .finish → t.extent.Occupies 0 n
  apart : ts.Pairwise fun t u => t.extent.stop ≤ u.extent.start

/-- Tokens that stand one behind another from a position on, in a text of `n` characters. -/
inductive Aligned (n : Nat) : Nat → List Token → Prop where
  | nil {p : Nat} (h : p ≤ n) : Aligned n p []
  | cons {p : Nat} {t : Token} {rest : List Token} (hStart : p ≤ t.extent.start)
    (hStop : t.extent.start ≤ t.extent.stop)
    (hSome : t.lexeme ≠ .finish → t.extent.start < t.extent.stop)
    (hRest : Aligned n t.extent.stop rest) : Aligned n p (t :: rest)

section

variable {n p q r s : Nat} {x : Extent} {t : Token} {ts rest : List Token}

theorem Extent.Within.mono (h : x.Within p q) (hp : r ≤ p) (hq : q ≤ s) : x.Within r s :=
  ⟨Nat.le_trans hp h.start_ge, h.start_le_stop, Nat.le_trans h.stop_le hq⟩

theorem Extent.Occupies.within (h : x.Occupies p q) : x.Within p q :=
  ⟨h.start_ge, Nat.le_of_lt h.start_lt_stop, h.stop_le⟩

theorem Extent.Occupies.mono (h : x.Occupies p q) (hp : r ≤ p) (hq : q ≤ s) : x.Occupies r s :=
  ⟨Nat.le_trans hp h.start_ge, h.start_lt_stop, Nat.le_trans h.stop_le hq⟩

theorem Extent.Occupies.le (h : x.Occupies p q) : p ≤ q :=
  Nat.le_trans h.start_ge (Nat.le_trans h.within.start_le_stop h.stop_le)

namespace Aligned

theorem le (h : Aligned n p ts) : p ≤ n := by
  induction h with
  | nil h => exact h
  | cons hStart hStop _ _ ih => exact Nat.le_trans hStart (Nat.le_trans hStop ih)

theorem mono (h : Aligned n p ts) (hp : q ≤ p) : Aligned n q ts := by
  cases h with
  | nil h => exact .nil (Nat.le_trans hp h)
  | cons hStart hStop hSome hRest => exact .cons (Nat.le_trans hp hStart) hStop hSome hRest

/-- A token that is not the end of the text has some of the characters behind the position, -/
theorem first (h : Aligned n p (t :: rest)) (ht : t.lexeme ≠ .finish) :
    t.extent.Occupies p t.extent.stop := by
  cases h with
  | cons hStart _ hSome _ => exact ⟨hStart, hSome ht, Nat.le_refl _⟩

/-- and the others stand behind it. -/
theorem behind (h : Aligned n p (t :: rest)) : Aligned n t.extent.stop rest := by
  cases h with
  | cons _ _ _ hRest => exact hRest

theorem tail (h : Aligned n p (t :: rest)) : Aligned n p rest := by
  cases h with
  | cons hStart hStop _ hRest => exact hRest.mono (Nat.le_trans hStart hStop)

theorem suffix {us : List Token} (h : Aligned n p ts) (hSuffix : us <:+ ts) : Aligned n p us := by
  induction ts with
  | nil => rwa [List.suffix_nil.mp hSuffix]
  | cons t rest ih =>
      rcases List.suffix_cons_iff.mp hSuffix with rfl | hRest
      · exact h
      · exact ih h.tail hRest

theorem within (h : Aligned n p ts) : ∀ t ∈ ts, t.extent.Within p n := by
  induction ts generalizing p with
  | nil => exact nofun
  | cons t rest ih =>
      refine List.forall_mem_cons.mpr ⟨?_, ih h.tail⟩
      cases h with
      | cons hStart hStop _ hRest => exact ⟨hStart, hStop, hRest.le⟩

theorem occupies (h : Aligned n p ts) : ∀ t ∈ ts, t.lexeme ≠ .finish → t.extent.Occupies p n := by
  induction ts generalizing p with
  | nil => exact nofun
  | cons t rest ih =>
      exact List.forall_mem_cons.mpr
        ⟨fun ht => (h.first ht).mono (Nat.le_refl p) h.behind.le, ih h.tail⟩

theorem inOrder (h : Aligned n p ts) : InOrder n ts := by
  refine ⟨fun t ht => (h.within t ht).mono (Nat.zero_le p) (Nat.le_refl n), fun t ht hSome =>
    (h.occupies t ht hSome).mono (Nat.zero_le p) (Nat.le_refl n), ?_⟩
  induction h with
  | nil => exact .nil
  | cons _ _ _ hRest ih => exact .cons (fun u hu => (hRest.within u hu).start_ge) ih

end Aligned

end

/-! The lexer. -/

theorem length_takeWhile_add_dropWhile (p : Char → Bool) (text : List Char) :
    (text.takeWhile p).length + (text.dropWhile p).length = text.length := by
  rw [← List.length_append, List.takeWhile_append_dropWhile]

/-- What is skipped moves the position on by as much as it takes off the text. -/
theorem skipTrivia_position (position : Nat) (text : List Char) :
    (skipTrivia position text).1 + (skipTrivia position text).2.length =
      position + text.length := by
  fun_induction skipTrivia position text with
  | case1 position text start rest hSame ih =>
      have hBlanks := length_takeWhile_add_dropWhile Text.isBlank text
      have hLine := length_takeWhile_add_dropWhile (· ≠ '\n') rest
      simp only [hSame, List.length_cons] at hBlanks
      omega
  | case2 position text start rest hSame length ih =>
      have hBlanks := length_takeWhile_add_dropWhile Text.isBlank text
      have hComment : length ≤ rest.length := blockCommentLength_le rest
      simp only [hSame, List.length_cons] at hBlanks
      rw [List.length_drop] at ih
      omega
  | case3 position text start =>
      have hBlanks := length_takeWhile_add_dropWhile Text.isBlank text
      dsimp only
      omega

theorem place_of_skipTrivia {position start : Nat} {text rest : List Char}
    (h : skipTrivia position text = (start, rest)) :
    position ≤ start ∧ start + rest.length = position + text.length := by
  have hPosition := skipTrivia_position position text
  have hLess := length_skipTrivia_le position text
  rw [h] at hPosition hLess
  dsimp only at hPosition hLess
  exact ⟨by omega, hPosition⟩

/-- A string that does not end is left at its end or at a last backslash. -/
theorem left_of_stringBody {quote : Char} {text : List Char} {left : Nat}
    (h : stringBody quote text = .error left) : left ≤ 1 := by
  fun_induction stringBody quote text generalizing left with
  | case1 | case3 =>
      cases h
      decide
  | case2 => cases h
  | case4 d rest _ ih | case5 c rest _ _ ih => exact ih (map_eq_error.mp h)

section

variable {start : Nat} {c : Char} {rest : List Char}

/-- What a lexeme leaves out of its extent is not all of it. -/
theorem lead_le_more {found : Lexed} (h : lexAt start c rest = .ok found) :
    found.lead ≤ found.more := by
  cases lexAt_eq_ok.mp h with
  | markedWord hKind =>
      obtain ⟨d, later, rfl, hStart⟩ := exists_cons_of_any (begins_of_lexemeKind hKind).2
      rw [List.takeWhile_cons_of_pos (isWordPart_of_isWordStart hStart)]
      exact Nat.succ_pos _
  | number | string | reference | word | optionalChain | symbol => exact Nat.zero_le _

/-- What is refused begins at the character where a lexeme was looked for, and is not more
than there is. -/
theorem within_of_lexAt_error {e : LexError} (h : lexAt start c rest = .error e) :
    e.extent.Within start (start + 1 + rest.length) := by
  rw [lexAt_eq] at h
  cases hKind : lexemeKind c rest <;> rw [hKind] at h <;> dsimp only at h
  case number =>
      have hLength := numberLength_le (c :: rest)
      rw [List.length_cons] at hLength
      unfold lexNumber at h
      dsimp only at h
      split at h <;> cases h
      constructor <;> dsimp only <;> omega
  case string =>
      unfold lexString at h
      split at h
      · cases h
      · next left hBody =>
        cases h
        have hLeft := left_of_stringBody hBody
        constructor <;> dsimp only <;> omega
  case reference =>
      split at h <;> cases h
      constructor <;> dsimp only <;> omega
  case markedWord | word | optionalChain => cases h
  case symbol =>
      unfold lexSymbol at h
      split at h <;> cases h
      constructor <;> dsimp only <;> omega

end

/-- The tokens of a text stand one behind another. -/
theorem aligned_of_lexFrom {n position : Nat} {text : List Char} {ts : List Token}
    (hn : position + text.length = n) (h : lexFrom position text = .ok ts) :
    Aligned n position ts := by
  fun_induction lexFrom position text generalizing ts
  case case1 position text stop hSkipped =>
      cases h
      obtain ⟨hStart, hStop⟩ := place_of_skipTrivia hSkipped
      exact .cons hStart (Nat.le_refl _) (absurd rfl) (.nil (Nat.le_of_eq (hStop.trans hn)))
  case case2 => cases h
  case case3 position text start c rest hSkipped found hFound stop ih =>
      obtain ⟨later, hLater, rfl⟩ := map_eq_ok.mp h
      obtain ⟨hStart, hLeft⟩ := place_of_skipTrivia hSkipped
      rw [List.length_cons] at hLeft
      have hMore := more_le_of_lexAt (lexAt_moved hFound 0)
      have hLead := lead_le_more hFound
      have hEnd : stop + (rest.drop found.more).length = n := by
        rw [List.length_drop]
        omega
      exact .cons (by dsimp only; omega) (by dsimp only; omega) (fun _ => by dsimp only; omega)
        (ih hEnd hLater)

/-- The `@` in front of a word belongs to no token. -/
example : (tokens "@f( x)").toOption.map (·.map (·.extent)) =
    some [⟨1, 2⟩, ⟨2, 3⟩, ⟨4, 5⟩, ⟨5, 6⟩, ⟨6, 6⟩] := by
  decide +kernel

/-- What the lexer refuses stands within the text. -/
theorem within_of_lexFrom_error {n position : Nat} {text : List Char} {e : LexError}
    (hn : position + text.length = n) (h : lexFrom position text = .error e) :
    e.extent.Within position n := by
  fun_induction lexFrom position text
  case case1 => cases h
  case case2 position text start c rest hSkipped error hError =>
      cases h
      obtain ⟨hStart, hLeft⟩ := place_of_skipTrivia hSkipped
      rw [List.length_cons] at hLeft
      exact (within_of_lexAt_error hError).mono (by omega) (by omega)
  case case3 position text start c rest hSkipped found hFound stop ih =>
      obtain ⟨hStart, hLeft⟩ := place_of_skipTrivia hSkipped
      rw [List.length_cons] at hLeft
      have hMore := more_le_of_lexAt (lexAt_moved hFound 0)
      have hEnd : stop + (rest.drop found.more).length = n := by
        rw [List.length_drop]
        omega
      exact (ih hEnd (map_eq_error.mp h)).mono (by omega) (Nat.le_refl n)

end HtmlTemplate.Script
