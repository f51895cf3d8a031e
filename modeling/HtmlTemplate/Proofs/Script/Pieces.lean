import HtmlTemplate.Proofs.Result
import HtmlTemplate.Script.Lexer

/-! The parts a script text is made of, each with its characters: blanks, comments and
lexemes. The lexer leaves blanks and comments out and gives the lexemes of the others. -/
namespace HtmlTemplate.Script

/-- A part of a script text: a blank, a comment, or a lexeme and the characters it is read
from. -/
inductive Piece where
  | blank (c : Char)
  | comment (text : List Char)
  | lexeme (lexeme : Lexeme) (text : List Char)
  deriving DecidableEq

namespace Piece

def text : Piece → List Char
  | blank c => [c]
  | comment text | lexeme _ text => text

def lexeme? : Piece → Option Lexeme
  | lexeme l _ => some l
  | _ => none

/-- The characters of a comment or a reference, which are no script. -/
def passage? : Piece → Option (List Char)
  | comment text | lexeme (.reference _) text => some text
  | _ => none

end Piece

/-- How many characters beyond `c` a comment that begins there takes. -/
def commentAt? (c : Char) (rest : List Char) : Option Nat :=
  match c, rest with
  | '/', '/' :: rest => some ((rest.takeWhile (· ≠ '\n')).length + 1)
  | '/', '*' :: rest => some (blockCommentLength rest + 1)
  | _, _ => none

/-- The pieces of a script text, up to what is no lexeme. -/
def pieces (text : List Char) : List Piece :=
  match text with
  | [] => []
  | c :: rest =>
    if Text.isBlank c then .blank c :: pieces rest
    else
      match commentAt? c rest with
      | some n => .comment (c :: rest.take n) :: pieces (rest.drop n)
      | none =>
        match lexAt 0 c rest with
        | .error _ => []
        | .ok found =>
          .lexeme found.lexeme (c :: rest.take found.more) :: pieces (rest.drop found.more)
termination_by text.length
decreasing_by all_goals simp only [List.length_cons, List.length_drop]; omega

/-- The comments and references of a script text. -/
def passages (text : List Char) : List (List Char) :=
  (pieces text).filterMap Piece.passage?

/-- The lexemes of a text, as far as it can be read. -/
def lexemes (text : List Char) : List Lexeme :=
  (pieces text).filterMap Piece.lexeme?

/-- Whether all of a text can be read. -/
def Readable (text : List Char) : Prop :=
  (pieces text).flatMap Piece.text = text

instance (text : List Char) : Decidable (Readable text) :=
  inferInstanceAs (Decidable (_ = _))

theorem pieces_nil : pieces [] = [] := by
  rw [pieces]

theorem pieces_blank {c : Char} {rest : List Char} (h : Text.isBlank c = true) :
    pieces (c :: rest) = .blank c :: pieces rest := by
  rw [pieces, if_pos h]

theorem pieces_comment {c : Char} {rest : List Char} {n : Nat} (h : Text.isBlank c = false)
    (hComment : commentAt? c rest = some n) :
    pieces (c :: rest) = .comment (c :: rest.take n) :: pieces (rest.drop n) := by
  rw [pieces, if_neg (Bool.eq_false_iff.mp h), hComment]

theorem pieces_lexeme {c : Char} {rest : List Char} {found : Lexed} (h : Text.isBlank c = false)
    (hComment : commentAt? c rest = none) (hFound : lexAt 0 c rest = .ok found) :
    pieces (c :: rest) =
      .lexeme found.lexeme (c :: rest.take found.more) :: pieces (rest.drop found.more) := by
  rw [pieces, if_neg (Bool.eq_false_iff.mp h), hComment]
  dsimp only
  rw [hFound]

/-- The kinds of lexemes, as they are told apart by what they begin with. -/
inductive LexemeKind where
  | number
  | string
  | reference
  | markedWord
  | word
  | optionalChain
  | symbol

/-- The kind of the lexeme at a character. -/
def lexemeKind (c : Char) (rest : List Char) : LexemeKind :=
  if c.isDigit || (c = '.' && rest.head?.any Char.isDigit) then .number
  else if c = '"' || c = '\'' || c = '\x60' then .string
  else if c = '@' && rest.head? = some '(' then .reference
  else if c = '@' && rest.head?.any isWordStart then .markedWord
  else if isWordStart c then .word
  else if c = '?' && rest.head? = some '.' && !(rest.drop 1).head?.any Char.isDigit then
    .optionalChain
  else .symbol

/-- The lexeme at a character by its kind. -/
theorem lexAt_eq (start : Nat) (c : Char) (rest : List Char) :
    lexAt start c rest =
      match lexemeKind c rest with
      | .number => lexNumber start c rest
      | .string => lexString start c rest
      | .reference =>
        match referenceBody 0 (rest.drop 1) with
        | some path => .ok ⟨.reference (String.ofList (Text.trim path)), path.length + 2, 0⟩
        | none => .error ⟨.unterminatedReference, ⟨start, start + 1 + rest.length⟩⟩
      | .markedWord =>
        .ok ⟨wordLexeme (rest.takeWhile isWordPart), (rest.takeWhile isWordPart).length, 1⟩
      | .word =>
        .ok ⟨wordLexeme (c :: rest.takeWhile isWordPart), (rest.takeWhile isWordPart).length, 0⟩
      | .optionalChain => .ok ⟨.symbol .optionalChain, 1, 0⟩
      | .symbol => lexSymbol start c rest := by
  unfold lexAt lexemeKind
  dsimp only
  repeat' split <;> first | rfl | simp_all

/-- What is read at a character, with one rule for each kind of lexeme. -/
inductive LexedAt (c : Char) (rest : List Char) : Lexed → Prop where
  | number {x : Float} (hKind : lexemeKind c rest = .number)
    (hRead : readDouble? ((c :: rest).take (numberLength (c :: rest))) = some x) :
    LexedAt c rest ⟨.number x, numberLength (c :: rest) - 1, 0⟩
  | string {body : List Char} {n : Nat} (hKind : lexemeKind c rest = .string)
    (hBody : stringBody c rest = .ok (body, n)) :
    LexedAt c rest ⟨.string (String.ofList body), n, 0⟩
  | reference {path : List Char} (hKind : lexemeKind c rest = .reference)
    (hPath : referenceBody 0 (rest.drop 1) = some path) :
    LexedAt c rest ⟨.reference (String.ofList (Text.trim path)), path.length + 2, 0⟩
  | markedWord (hKind : lexemeKind c rest = .markedWord) :
    LexedAt c rest ⟨wordLexeme (rest.takeWhile isWordPart), (rest.takeWhile isWordPart).length, 1⟩
  | word (hKind : lexemeKind c rest = .word) :
    LexedAt c rest
      ⟨wordLexeme (c :: rest.takeWhile isWordPart), (rest.takeWhile isWordPart).length, 0⟩
  | optionalChain (hKind : lexemeKind c rest = .optionalChain) :
    LexedAt c rest ⟨.symbol .optionalChain, 1, 0⟩
  | symbol {s : Symbol} (hKind : lexemeKind c rest = .symbol)
    (hFound : Symbol.byLength.find? (fun s => s.text.toList.isPrefixOf (c :: rest)) = some s) :
    LexedAt c rest ⟨.symbol s, s.text.length - 1, 0⟩

theorem lexNumber_eq_ok {start : Nat} {c : Char} {rest : List Char} {found : Lexed} :
    lexNumber start c rest = .ok found ↔
      ∃ x, readDouble? ((c :: rest).take (numberLength (c :: rest))) = some x ∧
        ⟨.number x, numberLength (c :: rest) - 1, 0⟩ = found := by
  unfold lexNumber
  dsimp only
  cases readDouble? ((c :: rest).take (numberLength (c :: rest))) <;> simp

theorem lexString_eq_ok {start : Nat} {c : Char} {rest : List Char} {found : Lexed} :
    lexString start c rest = .ok found ↔
      ∃ body n, stringBody c rest = .ok (body, n) ∧
        ⟨.string (String.ofList body), n, 0⟩ = found := by
  unfold lexString
  cases stringBody c rest with
  | error left => simp
  | ok read =>
      obtain ⟨body, n⟩ := read
      simp [and_assoc]

theorem lexSymbol_eq_ok {start : Nat} {c : Char} {rest : List Char} {found : Lexed} :
    lexSymbol start c rest = .ok found ↔
      ∃ s, Symbol.byLength.find? (fun s => s.text.toList.isPrefixOf (c :: rest)) = some s ∧
        ⟨.symbol s, s.text.length - 1, 0⟩ = found := by
  unfold lexSymbol
  cases Symbol.byLength.find? fun s => s.text.toList.isPrefixOf (c :: rest) <;> simp

/-- The lexer reads what the rules say. -/
theorem lexAt_eq_ok {start : Nat} {c : Char} {rest : List Char} {found : Lexed} :
    lexAt start c rest = .ok found ↔ LexedAt c rest found := by
  rw [lexAt_eq]
  constructor
  · intro h
    cases hKind : lexemeKind c rest <;> rw [hKind] at h <;> dsimp only at h
    case number =>
      obtain ⟨x, hRead, rfl⟩ := lexNumber_eq_ok.mp h
      exact .number hKind hRead
    case string =>
      obtain ⟨body, n, hBody, rfl⟩ := lexString_eq_ok.mp h
      exact .string hKind hBody
    case reference =>
      split at h
      · next path hPath =>
        cases h
        exact .reference hKind hPath
      · cases h
    case markedWord =>
      cases h
      exact .markedWord hKind
    case word =>
      cases h
      exact .word hKind
    case optionalChain =>
      cases h
      exact .optionalChain hKind
    case symbol =>
      obtain ⟨s, hFound, rfl⟩ := lexSymbol_eq_ok.mp h
      exact .symbol hKind hFound
  · intro h
    cases h with
    | number hKind hRead => rw [hKind]; exact lexNumber_eq_ok.mpr ⟨_, hRead, rfl⟩
    | string hKind hBody => rw [hKind]; exact lexString_eq_ok.mpr ⟨_, _, hBody, rfl⟩
    | reference hKind hPath => rw [hKind]; dsimp only; rw [hPath]
    | markedWord hKind | word hKind | optionalChain hKind => rw [hKind]
    | symbol hKind hFound => rw [hKind]; exact lexSymbol_eq_ok.mpr ⟨_, hFound, rfl⟩

/-- Where a lexeme stands in the text does not matter. -/
theorem lexAt_moved {start : Nat} {c : Char} {rest : List Char} {found : Lexed}
    (h : lexAt start c rest = .ok found) (other : Nat) : lexAt other c rest = .ok found :=
  lexAt_eq_ok.mpr (lexAt_eq_ok.mp h)

/-- What a piece can be. -/
inductive Piece.Sound : Piece → Prop where
  | blank {c : Char} (h : Text.isBlank c = true) : Sound (.blank c)
  | comment {c : Char} {rest : List Char} {n : Nat} (h : commentAt? c rest = some n) :
    Sound (.comment (c :: rest.take n))
  | lexeme {c : Char} {rest : List Char} {found : Lexed} (hBlank : Text.isBlank c = false)
    (h : lexAt 0 c rest = .ok found) : Sound (.lexeme found.lexeme (c :: rest.take found.more))

theorem pieces_sound (text : List Char) : ∀ p ∈ pieces text, p.Sound := by
  fun_induction pieces text with
  | case1 => simp
  | case2 c rest hBlank ih => exact List.forall_mem_cons.mpr ⟨.blank hBlank, ih⟩
  | case3 c rest hBlank n hComment ih => exact List.forall_mem_cons.mpr ⟨.comment hComment, ih⟩
  | case4 => simp
  | case5 c rest hBlank hComment found hFound ih =>
      exact List.forall_mem_cons.mpr ⟨.lexeme (by simpa using hBlank) hFound, ih⟩

theorem wordLexeme_ne_finish (word : List Char) : wordLexeme word ≠ .finish := by
  unfold wordLexeme
  split <;> exact Lexeme.noConfusion

/-- The end of the text is no lexeme at a character. -/
theorem Piece.Sound.not_finish {p : Piece} (h : p.Sound) : p.lexeme? ≠ some .finish := by
  cases h with
  | blank | comment => exact nofun
  | @lexeme c rest found hBlank hFound =>
      intro hFinish
      have hEnd : found.lexeme = .finish := Option.some.inj hFinish
      cases lexAt_eq_ok.mp hFound with
      | markedWord | word => exact wordLexeme_ne_finish _ hEnd
      | number | string | reference | optionalChain | symbol => cases hEnd

/-- So the first end of the text behind its lexemes is the one there. -/
theorem takeWhile_lexemes (text : List Char) :
    ((pieces text).filterMap Piece.lexeme? ++ [Lexeme.finish]).takeWhile (· ≠ .finish) =
      (pieces text).filterMap Piece.lexeme? := by
  have hKept : ∀ l ∈ (pieces text).filterMap Piece.lexeme?, decide (l ≠ .finish) = true := by
    intro l hl
    obtain ⟨p, hp, hLexeme⟩ := List.mem_filterMap.mp hl
    refine decide_eq_true ?_
    rintro rfl
    exact (pieces_sound _ p hp).not_finish hLexeme
  rw [List.takeWhile_append_of_pos hKept, List.takeWhile_cons_of_neg (by simp), List.append_nil]

theorem pieces_blanks (text : List Char) :
    pieces text =
      (text.takeWhile Text.isBlank).map .blank ++ pieces (text.dropWhile Text.isBlank) := by
  induction text with
  | nil => rfl
  | cons c rest ih =>
      by_cases hBlank : Text.isBlank c = true
      · rw [pieces_blank hBlank, List.takeWhile_cons_of_pos hBlank,
          List.dropWhile_cons_of_pos hBlank, ih]
        rfl
      · rw [List.takeWhile_cons_of_neg hBlank, List.dropWhile_cons_of_neg hBlank]
        rfl

theorem isBlank_of_dropWhile {text rest : List Char} {c : Char}
    (h : text.dropWhile Text.isBlank = c :: rest) : Text.isBlank c = false := by
  have hHead := List.head?_dropWhile_not Text.isBlank text
  rw [h] at hHead
  simpa using hHead

/-- Where a comment begins and how long it is, of the two kinds. -/
theorem commentAt?_eq_some {c : Char} {rest : List Char} {n : Nat}
    (h : commentAt? c rest = some n) :
    ∃ body, (c = '/' ∧ rest = '/' :: body ∧ n = (body.takeWhile (· ≠ '\n')).length + 1) ∨
      (c = '/' ∧ rest = '*' :: body ∧ n = blockCommentLength body + 1) := by
  unfold commentAt? at h
  split at h
  · next body => exact ⟨body, .inl ⟨rfl, rfl, (Option.some.inj h).symm⟩⟩
  · next body => exact ⟨body, .inr ⟨rfl, rfl, (Option.some.inj h).symm⟩⟩
  · cases h

theorem drop_length_takeWhile (p : Char → Bool) (text : List Char) :
    text.drop (text.takeWhile p).length = text.dropWhile p := by
  induction text with
  | nil => rfl
  | cons c rest ih =>
      by_cases h : p c = true
      · rw [List.takeWhile_cons_of_pos h, List.dropWhile_cons_of_pos h, ← ih]
        rfl
      · rw [List.takeWhile_cons_of_neg h, List.dropWhile_cons_of_neg h]
        rfl

/-- What is skipped in front of a lexeme is blanks and comments. -/
theorem skipTrivia_pieces (position : Nat) (text : List Char) :
    ∃ trivia : List Piece, pieces text = trivia ++ pieces (skipTrivia position text).2 ∧
      trivia.filterMap Piece.lexeme? = [] ∧
      trivia.flatMap Piece.text ++ (skipTrivia position text).2 = text := by
  have hNone (blanks : List Char) : (blanks.map Piece.blank).filterMap Piece.lexeme? = [] := by
    simp [Piece.lexeme?]
  have hTexts (blanks : List Char) : (blanks.map Piece.blank).flatMap Piece.text = blanks := by
    simp [List.flatMap_map, Piece.text]
  -- the blanks in front of a comment, the comment, and what is skipped behind it
  have hComment {text rest : List Char} {c : Char} {n : Nat} {later : List Char}
      (hSame : text.dropWhile Text.isBlank = c :: rest) (hn : commentAt? c rest = some n)
      (ih : ∃ trivia : List Piece, pieces (rest.drop n) = trivia ++ pieces later ∧
        trivia.filterMap Piece.lexeme? = [] ∧ trivia.flatMap Piece.text ++ later = rest.drop n) :
      ∃ trivia : List Piece, pieces text = trivia ++ pieces later ∧
        trivia.filterMap Piece.lexeme? = [] ∧ trivia.flatMap Piece.text ++ later = text := by
    obtain ⟨trivia, hPieces, hLexemes, hText⟩ := ih
    refine ⟨(text.takeWhile Text.isBlank).map .blank ++ .comment (c :: rest.take n) :: trivia,
      ?_, ?_, ?_⟩
    · rw [pieces_blanks, hSame, pieces_comment (isBlank_of_dropWhile hSame) hn, hPieces]
      simp
    · rw [List.filterMap_append, hNone]
      simpa [Piece.lexeme?] using hLexemes
    · rw [List.flatMap_append, hTexts, List.append_assoc, List.flatMap_cons, List.append_assoc,
        hText]
      have hWhole := List.takeWhile_append_dropWhile (p := Text.isBlank) (l := text)
      rw [hSame] at hWhole
      simpa [Piece.text] using hWhole
  fun_induction skipTrivia position text with
  | case1 position text start rest hSame ih =>
      refine hComment hSame rfl ?_
      rwa [List.drop_succ_cons, drop_length_takeWhile]
  | case2 position text start rest hSame length ih => exact hComment hSame rfl ih
  | case3 position text start hLine hBlock =>
      refine ⟨(text.takeWhile Text.isBlank).map .blank, pieces_blanks text, hNone _, ?_⟩
      rw [hTexts, List.takeWhile_append_dropWhile]

/-- Behind what is skipped a lexeme begins. -/
theorem begins_of_skipTrivia {position start : Nat} {text rest : List Char} {c : Char}
    (h : skipTrivia position text = (start, c :: rest)) :
    Text.isBlank c = false ∧ commentAt? c rest = none := by
  fun_induction skipTrivia position text with
  | case1 _ _ _ _ _ ih => exact ih h
  | case2 _ _ _ _ _ _ ih => exact ih h
  | case3 position text start hLine hBlock =>
      obtain ⟨-, hRest⟩ := Prod.mk.inj h
      refine ⟨isBlank_of_dropWhile hRest, ?_⟩
      unfold commentAt?
      split
      · exact absurd hRest (hLine _)
      · exact absurd hRest (hBlock _)
      · rfl

/-- The pieces of a text that the lexer accepts make up the text, and those that are lexemes
are what it gives. -/
theorem lexFrom_pieces {position : Nat} {text : List Char} {ts : List Token}
    (h : lexFrom position text = .ok ts) :
    (pieces text).flatMap Piece.text = text ∧
      ts.map (·.lexeme) = (pieces text).filterMap Piece.lexeme? ++ [.finish] := by
  fun_induction lexFrom position text generalizing ts
  case case1 position text stop hSkipped =>
      cases h
      obtain ⟨trivia, hPieces, hLexemes, hText⟩ := skipTrivia_pieces position text
      rw [hSkipped, pieces_nil, List.append_nil] at hPieces
      rw [hSkipped, List.append_nil] at hText
      rw [hPieces, hText, hLexemes]
      exact ⟨rfl, rfl⟩
  case case2 => cases h
  case case3 position text start c rest hSkipped found hFound _ ih =>
      obtain ⟨later, hLater, rfl⟩ := map_eq_ok.mp h
      obtain ⟨hTexts, hRest⟩ := ih hLater
      obtain ⟨trivia, hPieces, hLexemes, hText⟩ := skipTrivia_pieces position text
      obtain ⟨hBlank, hComment⟩ := begins_of_skipTrivia hSkipped
      rw [hSkipped, pieces_lexeme hBlank hComment (lexAt_moved hFound 0)] at hPieces
      rw [hSkipped] at hText
      constructor
      · rw [hPieces, List.flatMap_append, List.flatMap_cons, hTexts]
        simpa [Piece.text] using hText
      · rw [hPieces, List.filterMap_append, hLexemes]
        simpa [Piece.lexeme?] using hRest

/-- The lexer accepts a text that its pieces make up. -/
theorem lexFrom_of_pieces {text : List Char} (h : (pieces text).flatMap Piece.text = text)
    (position : Nat) : ∃ ts, lexFrom position text = .ok ts := by
  fun_induction lexFrom position text
  case case1 => exact ⟨_, rfl⟩
  case case2 position text start c rest hSkipped e hError =>
      obtain ⟨trivia, hPieces, -, hText⟩ := skipTrivia_pieces position text
      obtain ⟨hBlank, hComment⟩ := begins_of_skipTrivia hSkipped
      have hNone : pieces (c :: rest) = [] := by
        rw [pieces, if_neg (Bool.eq_false_iff.mp hBlank), hComment]
        cases hFound : lexAt 0 c rest with
        | error e => rfl
        | ok found => cases (lexAt_moved hFound start).symm.trans hError
      rw [hSkipped, hNone, List.append_nil] at hPieces
      rw [hPieces] at h
      rw [hSkipped, h] at hText
      exact absurd hText (by simp)
  case case3 position text start c rest hSkipped found hFound _ ih =>
      obtain ⟨trivia, hPieces, -, hText⟩ := skipTrivia_pieces position text
      obtain ⟨hBlank, hComment⟩ := begins_of_skipTrivia hSkipped
      rw [hSkipped, pieces_lexeme hBlank hComment (lexAt_moved hFound 0)] at hPieces
      have hWhole : trivia.flatMap Piece.text ++ ((c :: rest.take found.more) ++
          (pieces (rest.drop found.more)).flatMap Piece.text) =
          trivia.flatMap Piece.text ++ ((c :: rest.take found.more) ++ rest.drop found.more) := by
        rw [hPieces] at h
        rw [hSkipped] at hText
        simpa [Piece.text, hText] using h
      obtain ⟨later, hLater⟩ := ih (List.append_cancel_left (List.append_cancel_left hWhole))
      exact ⟨_, map_eq_ok.mpr ⟨later, hLater, rfl⟩⟩

theorem tokens_pieces {source : String} {ts : List Token} (h : tokens source = .ok ts) :
    (pieces source.toList).flatMap Piece.text = source.toList ∧
      ts.map (·.lexeme) = (pieces source.toList).filterMap Piece.lexeme? ++ [.finish] :=
  lexFrom_pieces h

end HtmlTemplate.Script
