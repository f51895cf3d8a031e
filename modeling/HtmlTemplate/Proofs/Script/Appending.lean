import Mathlib.Data.List.Find
import Mathlib.Data.List.Induction
import HtmlTemplate.Proofs.Script.Relexing

/-! Script text with one more character. A blank or a closing parenthesis goes on with no lexeme,
so that it leaves the lexemes in front of it as they are; but it may be taken into a comment that
is not closed, or close a reference. -/
namespace HtmlTemplate.Script

open Source (isQuote)

/-- A character that can go on with a lexeme or a comment. -/
def goesOn (c : Char) : Bool :=
  isWordPart c || isNumeral c || isQuote c || c ∈ "(=&|?+-*/".toList

/-- A character that goes on with no lexeme. -/
def Separates (d : Char) : Prop :=
  Text.isBlank d = true ∨ d = ')'

section

variable {d c : Char} {text rest : List Char}

theorem Separates.goesOn_eq (h : Separates d) : goesOn d = false := by
  rcases h with hBlank | rfl
  · simpa using of_isBlank (p := fun c => !goesOn c) (by decide +kernel) hBlank
  · decide +kernel

theorem takeWhile_concat {p : Char → Bool} (h : p d = false) (text : List Char) :
    (text ++ [d]).takeWhile p = text.takeWhile p := by
  induction text with
  | nil => simp [h]
  | cons c rest ih => simp [List.takeWhile_cons, ih]

theorem dropWhile_concat {p : Char → Bool} (h : p d = false) (text : List Char) :
    (text ++ [d]).dropWhile p = text.dropWhile p ++ [d] := by
  induction text with
  | nil => simp [h]
  | cons c rest ih =>
      rw [List.cons_append, List.dropWhile_cons, List.dropWhile_cons, ih]
      split <;> rfl

end

/-- Behind the first character of a symbol there is none that separates. -/
theorem goesOn_symbols :
    (Symbol.byLength.all fun s => (s.text.toList.drop 1).all goesOn) = true := by
  decide +kernel

section

variable {d c : Char} {text rest : List Char} (hd : goesOn d = false)

include hd

theorem not_isWordPart_of_goesOn : isWordPart d = false := by
  simp only [goesOn, Bool.or_eq_false_iff] at hd
  exact hd.1.1.1

theorem not_isNumeral_of_goesOn : isNumeral d = false := by
  simp only [goesOn, Bool.or_eq_false_iff] at hd
  exact hd.1.1.2

theorem not_isQuote_of_goesOn : isQuote d = false := by
  simp only [goesOn, Bool.or_eq_false_iff] at hd
  exact hd.1.2

theorem ne_of_goesOn {c : Char} (h : goesOn c = true) : d ≠ c := by
  rintro rfl
  cases hd.symm.trans h

/-! Lexemes. -/

theorem exponentLength_concat (text : List Char) :
    exponentLength (text ++ [d]) = exponentLength text := by
  have hNumeral := not_isNumeral_of_goesOn hd
  have hDigit : d.isDigit = false := (Bool.or_eq_false_iff.mp hNumeral).1
  have hOther : d ∉ ['.', 'e', 'E', '+', '-'] := by
    simpa using (Bool.or_eq_false_iff.mp hNumeral).2
  cases text with
  | nil => simp_all [exponentLength]
  | cons mark rest =>
      have hSign : ((rest ++ [d]).head? = some '+' ∨ (rest ++ [d]).head? = some '-') ↔
          (rest.head? = some '+' ∨ rest.head? = some '-') := by
        cases rest <;> simp_all
      have hDigits (n : Nat) : ((rest ++ [d]).drop n).takeWhile Char.isDigit =
          (rest.drop n).takeWhile Char.isDigit := by
        rw [List.drop_append]
        rcases Nat.eq_zero_or_pos (n - rest.length) with hZero | hMore
        · rw [hZero]
          exact takeWhile_concat hDigit _
        · simp [List.drop_eq_nil_of_le (by omega : rest.length ≤ n),
            List.drop_eq_nil_of_le (show [d].length ≤ n - rest.length from hMore)]
      simp only [List.cons_append, exponentLength, hDigits, Bool.or_eq_true, decide_eq_true_eq, hSign]

theorem numberLength_concat (text : List Char) : numberLength (text ++ [d]) = numberLength text := by
  have hNumeral := not_isNumeral_of_goesOn hd
  have hMantissa : isMantissa d = false := by
    simp only [isNumeral, Bool.or_eq_false_iff] at hNumeral
    simp_all [isMantissa]
  rw [numberLength_eq, numberLength_eq, takeWhile_concat hMantissa, dropWhile_concat hMantissa,
    exponentLength_concat hd]

theorem stringBody_concat_error {quote : Char} (hQuote : isQuote quote = true) {n : Nat}
    (h : stringBody quote text = .error n) : ∃ m, stringBody quote (text ++ [d]) = .error m := by
  have hOther : d ≠ quote := by
    rintro rfl
    cases (not_isQuote_of_goesOn hd).symm.trans hQuote
  fun_induction stringBody quote text generalizing n with
  | case1 =>
      rw [List.nil_append, stringBody.eq_def]
      simp only [hOther, ↓reduceIte]
      split <;> exact ⟨_, rfl⟩
  | case2 rest => cases h
  | case3 hSlash =>
      rw [List.singleton_append, stringBody.eq_def]
      simp only [hSlash, ↓reduceIte]
      exact ⟨_, rfl⟩
  | case4 e rest hSlash ih =>
      cases hBody : stringBody quote rest with
      | ok found => rw [hBody] at h; cases h
      | error n =>
          obtain ⟨m, hMore⟩ := ih hBody
          rw [List.cons_append, List.cons_append, stringBody.eq_def]
          simp only [hSlash, ↓reduceIte, hMore]
          exact ⟨m, rfl⟩
  | case5 c rest hQuote hPlain ih =>
      cases hBody : stringBody quote rest with
      | ok found => rw [hBody] at h; cases h
      | error n =>
          obtain ⟨m, hMore⟩ := ih hBody
          rw [List.cons_append, stringBody.eq_def]
          simp only [hQuote, hPlain, ↓reduceIte, hMore]
          exact ⟨m, rfl⟩

theorem lexemeKind_concat (c : Char) (rest : List Char) :
    lexemeKind c (rest ++ [d]) = lexemeKind c rest := by
  have hNumeral := not_isNumeral_of_goesOn hd
  have hDigit : d.isDigit = false := (Bool.or_eq_false_iff.mp hNumeral).1
  have hPoint : d ≠ '.' := ne_of_goesOn hd (by decide)
  have hParen : d ≠ '(' := ne_of_goesOn hd (by decide)
  have hStart : isWordStart d = false := by
    rw [← Bool.not_eq_true]
    intro hWord
    cases (not_isWordPart_of_goesOn hd).symm.trans (isWordPart_of_isWordStart hWord)
  rcases rest with _ | ⟨e, _ | ⟨f, rest⟩⟩
  · simp [lexemeKind, hDigit, hPoint, hParen, hStart]
  · simp [lexemeKind, hDigit]
  · simp [lexemeKind]

theorem find?_concat (c : Char) (rest : List Char) :
    Symbol.byLength.find? (fun s => s.text.toList.isPrefixOf (c :: (rest ++ [d]))) =
      Symbol.byLength.find? fun s => s.text.toList.isPrefixOf (c :: rest) := by
  refine List.find?_congr fun s hs => ?_
  rw [Bool.eq_iff_iff, List.isPrefixOf_iff_prefix, List.isPrefixOf_iff_prefix, ← List.cons_append,
    List.prefix_concat_iff]
  refine or_iff_right fun hWhole => ?_
  have hTail := List.all_eq_true.mp goesOn_symbols s hs
  rw [hWhole] at hTail
  cases hd.symm.trans (List.all_eq_true.mp hTail d (by simp))

theorem take_numberLength_concat (text : List Char) :
    (text ++ [d]).take (numberLength (text ++ [d])) = text.take (numberLength text) := by
  rw [numberLength_concat hd, List.take_append_of_le_length (numberLength_le text)]

omit hd in
theorem stringBody_concat {quote : Char} {body : List Char} {n : Nat}
    (h : stringBody quote text = .ok (body, n)) (d : Char) :
    stringBody quote (text ++ [d]) = .ok (body, n) := by
  have hAgain := stringBody_take_append h (text.drop n ++ [d])
  rwa [← List.append_assoc, List.take_append_drop] at hAgain

omit hd in
theorem referenceBody_concat {depth : Nat} {path : List Char}
    (h : referenceBody depth text = some path) (d : Char) :
    referenceBody depth (text ++ [d]) = some path := by
  have hAgain := referenceBody_take_append h (text.drop (path.length + 1) ++ [d])
  rwa [← List.append_assoc, List.take_append_drop] at hAgain

/-- Where there is a lexeme, it is the same with one more character. -/
theorem LexedAt.concat {found : Lexed} (h : LexedAt c rest found) :
    LexedAt c (rest ++ [d]) found := by
  have hWord := takeWhile_concat (not_isWordPart_of_goesOn hd) rest
  have hSame := lexemeKind_concat hd c rest
  cases h with
  | @number x hKind hRead =>
      have hNumber := LexedAt.number (x := x) (hSame.trans hKind)
      rw [← List.cons_append, take_numberLength_concat hd, numberLength_concat hd] at hNumber
      exact hNumber hRead
  | string hKind hBody => exact .string (hSame.trans hKind) (stringBody_concat hBody d)
  | reference hKind hPath =>
      obtain ⟨inner, rfl⟩ := List.head?_eq_some_iff.mp (begins_of_lexemeKind hKind).2
      exact .reference (hSame.trans hKind) (referenceBody_concat hPath d)
  | markedWord hKind =>
      rw [← hWord]
      exact .markedWord (hSame.trans hKind)
  | word hKind =>
      rw [← hWord]
      exact .word (hSame.trans hKind)
  | optionalChain hKind => exact .optionalChain (hSame.trans hKind)
  | symbol hKind hFound => exact .symbol (hSame.trans hKind) ((find?_concat hd c rest).trans hFound)

theorem lexAt_concat {found : Lexed} (h : lexAt 0 c rest = .ok found) :
    lexAt 0 c (rest ++ [d]) = .ok found :=
  lexAt_eq_ok.mpr ((lexAt_eq_ok.mp h).concat hd)

omit hd in
/-- A reference that one more character closes takes all of the text. -/
theorem referenceBody_concat_none {depth : Nat} {path : List Char}
    (h : referenceBody depth text = none) (hMore : referenceBody depth (text ++ [d]) = some path) :
    d = ')' ∧ path.length = text.length := by
  induction text generalizing depth path with
  | nil =>
      rw [List.nil_append, referenceBody.eq_def] at hMore
      dsimp only at hMore
      split at hMore
      · cases hMore
      · split at hMore
        · next hClose =>
          split at hMore
          · cases hMore
            exact ⟨hClose, rfl⟩
          · cases hMore
        · cases hMore
  | cons c rest ih =>
      have hLater {depth : Nat} (h : (referenceBody depth rest).map (c :: ·) = none)
          (hMore : (referenceBody depth (rest ++ [d])).map (c :: ·) = some path) :
          d = ')' ∧ path.length = (c :: rest).length := by
        obtain ⟨inner, hInner, rfl⟩ := Option.map_eq_some_iff.mp hMore
        obtain ⟨hClose, hLength⟩ := ih (Option.map_eq_none_iff.mp h) hInner
        exact ⟨hClose, congrArg Nat.succ hLength⟩
      rw [List.cons_append, referenceBody.eq_def] at hMore
      rw [referenceBody.eq_def] at h
      dsimp only at h hMore
      split at h
      · next hOpen =>
        rw [if_pos hOpen] at hMore
        exact hLater h hMore
      · next hOpen =>
        rw [if_neg hOpen] at hMore
        split at h
        · next hClose =>
          rw [if_pos hClose] at hMore
          cases depth with
          | zero => cases h
          | succ depth => exact hLater h hMore
        · next hClose =>
          rw [if_neg hClose] at hMore
          exact hLater h hMore

/-- A lexeme in a text with one more character is one without it, or a reference that the
character closes. -/
theorem LexedAt.of_concat {found : Lexed} (h : LexedAt c (rest ++ [d]) found) :
    LexedAt c rest found ∨
      d = ')' ∧ (∃ path, found.lexeme = .reference path) ∧ found.more = rest.length + 1 := by
  have hWord := takeWhile_concat (not_isWordPart_of_goesOn hd) rest
  have hSame := (lexemeKind_concat hd c rest).symm
  cases h with
  | @number x hKind hRead =>
      rw [← List.cons_append, take_numberLength_concat hd] at hRead
      rw [← List.cons_append, numberLength_concat hd]
      exact .inl (.number (hSame.trans hKind) hRead)
  | string hKind hBody =>
      have hQuote := begins_of_lexemeKind hKind
      cases hRest : stringBody c rest with
      | ok read =>
          cases (stringBody_concat hRest d).symm.trans hBody
          exact .inl (.string (hSame.trans hKind) hRest)
      | error n =>
          obtain ⟨m, hNone⟩ := stringBody_concat_error hd hQuote hRest
          cases hNone.symm.trans hBody
  | reference hKind hPath =>
      have hKindRest := hSame.trans hKind
      obtain ⟨inner, rfl⟩ := List.head?_eq_some_iff.mp (begins_of_lexemeKind hKindRest).2
      cases hRest : referenceBody 0 inner with
      | some path =>
          cases (referenceBody_concat hRest d).symm.trans hPath
          exact .inl (.reference hKindRest hRest)
      | none =>
          obtain ⟨hClose, hLength⟩ := referenceBody_concat_none hRest hPath
          exact .inr ⟨hClose, ⟨_, rfl⟩, congrArg (· + 2) hLength⟩
  | markedWord hKind =>
      rw [hWord]
      exact .inl (.markedWord (hSame.trans hKind))
  | word hKind =>
      rw [hWord]
      exact .inl (.word (hSame.trans hKind))
  | optionalChain hKind => exact .inl (.optionalChain (hSame.trans hKind))
  | symbol hKind hFound =>
      exact .inl (.symbol (hSame.trans hKind) ((find?_concat hd c rest).symm.trans hFound))

/-- Where there is none, it is a reference that the character closes. -/
theorem lexAt_concat_error {e : LexError} {found : Lexed} (h : lexAt 0 c rest = .error e)
    (hMore : lexAt 0 c (rest ++ [d]) = .ok found) :
    d = ')' ∧ (∃ path, found.lexeme = .reference path) ∧ found.more = rest.length + 1 := by
  refine ((lexAt_eq_ok.mp hMore).of_concat hd).resolve_left fun hFound => ?_
  cases h.symm.trans (lexAt_eq_ok.mpr hFound)

end

/-! Comments. -/

section

variable {d c : Char} {rest : List Char}

theorem takeWhile_concat_or (p : Char → Bool) (text : List Char) :
    (text ++ [d]).takeWhile p = text.takeWhile p ∨
      text.takeWhile p = text ∧ (text ++ [d]).takeWhile p = text ++ [d] := by
  induction text with
  | nil =>
      rw [List.nil_append, List.takeWhile_cons]
      cases p d
      · exact .inl rfl
      · exact .inr ⟨rfl, rfl⟩
  | cons c rest ih =>
      rw [List.cons_append, List.takeWhile_cons, List.takeWhile_cons]
      cases p c
      · exact .inl rfl
      · exact ih.imp (congrArg (c :: ·)) (And.imp (congrArg (c :: ·)) (congrArg (c :: ·)))

theorem blockCommentLength_concat (hSlash : d ≠ '/') (text : List Char) :
    blockCommentLength (text ++ [d]) = blockCommentLength text ∨
      blockCommentLength text = text.length ∧
        blockCommentLength (text ++ [d]) = text.length + 1 := by
  fun_induction blockCommentLength text with
  | case1 => exact .inr ⟨rfl, rfl⟩
  | case2 c => exact .inr ⟨rfl, by simp [blockCommentLength, hSlash]⟩
  | case3 c e rest hEnd =>
      left
      rw [List.cons_append, List.cons_append, blockCommentLength, if_pos hEnd]
  | case4 c e rest hOther ih =>
      rw [List.cons_append, List.cons_append, blockCommentLength, if_neg hOther,
        ← List.cons_append]
      refine ih.imp (congrArg (· + 1)) fun hEnd => ?_
      exact ⟨congrArg (· + 1) hEnd.1, congrArg (· + 1) hEnd.2⟩

theorem commentAt?_concat_none (hSlash : d ≠ '/') (hStar : d ≠ '*') (h : commentAt? c rest = none) :
    commentAt? c (rest ++ [d]) = none := by
  cases hComment : commentAt? c (rest ++ [d]) with
  | none => rfl
  | some n =>
      obtain ⟨body, ⟨rfl, hBody, -⟩ | ⟨rfl, hBody, -⟩⟩ := commentAt?_eq_some hComment
      · cases rest with
        | nil => exact absurd (List.cons.inj hBody).1 hSlash
        | cons e rest =>
            obtain rfl := (List.cons.inj hBody).1
            cases h
      · cases rest with
        | nil => exact absurd (List.cons.inj hBody).1 hStar
        | cons e rest =>
            obtain rfl := (List.cons.inj hBody).1
            cases h

/-- A comment is the same with one more character, or takes it. -/
theorem commentAt?_concat (hSlash : d ≠ '/') {n : Nat} (h : commentAt? c rest = some n) :
    commentAt? c (rest ++ [d]) = some n ∨
      n = rest.length ∧ commentAt? c (rest ++ [d]) = some (n + 1) := by
  obtain ⟨body, ⟨rfl, rfl, rfl⟩ | ⟨rfl, rfl, rfl⟩⟩ := commentAt?_eq_some h
  · rcases takeWhile_concat_or (d := d) (· ≠ '\n') body with hSame | ⟨hWhole, hMore⟩
    · exact .inl (congrArg (fun taken : List Char => some (taken.length + 1)) hSame)
    · refine .inr ⟨by rw [hWhole, List.length_cons], ?_⟩
      rw [hWhole]
      change some (((body ++ [d]).takeWhile (· ≠ '\n')).length + 1) = _
      rw [hMore, List.length_append]
      rfl
  · rcases blockCommentLength_concat hSlash body with hSame | ⟨hWhole, hMore⟩
    · exact .inl (congrArg (fun length => some (length + 1)) hSame)
    · refine .inr ⟨by rw [hWhole, List.length_cons], ?_⟩
      change some (blockCommentLength (body ++ [d]) + 1) = _
      rw [hMore, hWhole]

end

/-- What a character that goes on with no lexeme does to the text in front of it. -/
inductive Grows (d : Char) (text : List Char) : Prop where
  | apart (hReadable : Readable text) (h : lexemes (text ++ [d]) = lexemes text ++ lexemes [d])
  | commented (hReadable : Readable text) (h : lexemes (text ++ [d]) = lexemes text)
  | referred (hClose : d = ')') (path : String)
    (h : lexemes (text ++ [d]) = lexemes text ++ [.reference path])

section

variable {d c : Char} {text rest behind : List Char} {p : Piece}

theorem readable_cons (hPieces : pieces text = p :: pieces behind) (hText : text = p.text ++ behind) :
    Readable text ↔ Readable behind := by
  rw [Readable, hPieces, List.flatMap_cons, hText, List.append_cancel_left_eq]
  rfl

theorem lexemes_cons (hPieces : pieces text = p :: pieces behind) :
    lexemes text = p.lexeme?.toList ++ lexemes behind := by
  rw [lexemes, hPieces, List.filterMap_cons]
  cases p.lexeme? <;> rfl

/-- A piece in front. -/
theorem Grows.cons (hPieces : pieces text = p :: pieces behind) (hText : text = p.text ++ behind)
    (hMore : pieces (text ++ [d]) = p :: pieces (behind ++ [d])) (h : Grows d behind) :
    Grows d text := by
  have hLexemes := lexemes_cons hPieces
  have hAll := lexemes_cons hMore
  cases h with
  | apart hReadable h =>
      exact .apart ((readable_cons hPieces hText).mpr hReadable)
        (by rw [hAll, h, hLexemes, List.append_assoc])
  | commented hReadable h =>
      exact .commented ((readable_cons hPieces hText).mpr hReadable) (by rw [hAll, h, hLexemes])
  | referred hClose path h =>
      exact .referred hClose path (by rw [hAll, h, hLexemes, List.append_assoc])

/-- A piece in front that the character leaves as it is. -/
theorem Grows.of_piece {n : Nat} (hLength : n ≤ rest.length) (hText : p.text = c :: rest.take n)
    (hPieces : pieces (c :: rest) = p :: pieces (rest.drop n))
    (hMore : pieces (c :: (rest ++ [d])) = p :: pieces ((rest ++ [d]).drop n))
    (h : Readable (c :: (rest ++ [d])))
    (hBehind : Readable (rest.drop n ++ [d]) → Grows d (rest.drop n)) : Grows d (c :: rest) := by
  rw [List.drop_append_of_le_length hLength] at hMore
  have hFront : c :: rest = p.text ++ rest.drop n := by simp [hText]
  have hAll : c :: (rest ++ [d]) = p.text ++ (rest.drop n ++ [d]) := by
    rw [← List.append_assoc, ← hFront]
    rfl
  exact .cons hPieces hFront hMore (hBehind ((readable_cons hMore hAll).mp h))

/-- A comment that is not closed takes the character. -/
theorem Grows.of_comment (hSolid : Text.isBlank c = false)
    (hComment : commentAt? c rest = some rest.length)
    (hTaken : commentAt? c (rest ++ [d]) = some (rest.length + 1)) : Grows d (c :: rest) := by
  have hPieces := pieces_comment hSolid hComment
  have hMore := pieces_comment hSolid hTaken
  rw [List.take_length, List.drop_length, pieces_nil] at hPieces
  rw [List.drop_eq_nil_of_le (by simp), pieces_nil] at hMore
  refine .commented ?_ ?_
  · simp [Readable, hPieces, Piece.text]
  · rw [lexemes, lexemes, List.cons_append, hPieces, hMore]
    rfl

/-- Where no lexeme is, the character closes a reference. -/
theorem Grows.of_error {e : LexError} (hOn : goesOn d = false) (hSolid : Text.isBlank c = false)
    (hComment : commentAt? c rest = none) (hMore : commentAt? c (rest ++ [d]) = none)
    (hError : lexAt 0 c rest = .error e) (h : Readable (c :: (rest ++ [d]))) :
    Grows d (c :: rest) := by
  have hBlank : ¬Text.isBlank c = true := by simp [hSolid]
  cases hFound : lexAt 0 c (rest ++ [d]) with
  | error e =>
      rw [Readable, pieces, if_neg hBlank, hMore] at h
      dsimp only at h
      rw [hFound] at h
      cases h
  | ok found =>
      obtain ⟨hClose, ⟨path, hLexeme⟩, hTaken⟩ := lexAt_concat_error hOn hError hFound
      have hPieces := pieces_lexeme hSolid hMore hFound
      rw [hTaken, List.drop_eq_nil_of_le (by simp), pieces_nil, hLexeme] at hPieces
      refine .referred hClose path ?_
      rw [lexemes, List.cons_append, hPieces, lexemes, pieces, if_neg hBlank, hComment]
      dsimp only
      rw [hError]
      rfl

/-- A text that can be read with such a character can be read without, except that the character
may close a reference. -/
theorem grows_of_readable (hd : Separates d) (h : Readable (text ++ [d])) : Grows d text := by
  have hOn := hd.goesOn_eq
  have hSlash : d ≠ '/' := ne_of_goesOn hOn (by decide)
  have hStar : d ≠ '*' := ne_of_goesOn hOn (by decide)
  fun_induction pieces text with
  | case1 => exact .apart (by rw [Readable, pieces_nil]; rfl) (by simp [lexemes, pieces_nil])
  | case2 c rest hBlank ih =>
      exact .of_piece (Nat.zero_le _) rfl (pieces_blank hBlank) (pieces_blank hBlank) h ih
  | case3 c rest hBlank n hComment ih =>
      have hSolid : Text.isBlank c = false := by simpa using hBlank
      rcases commentAt?_concat hSlash hComment with hSame | ⟨rfl, hTaken⟩
      · have hLength := length_of_commentAt? hComment
        have hMore := pieces_comment hSolid hSame
        rw [List.take_append_of_le_length hLength] at hMore
        exact .of_piece hLength rfl (pieces_comment hSolid hComment) hMore h ih
      · exact .of_comment hSolid hComment hTaken
  | case4 c rest hBlank hComment e hError =>
      have hNone := commentAt?_concat_none hSlash hStar hComment
      exact .of_error hOn (by simpa using hBlank) hComment hNone hError h
  | case5 c rest hBlank hComment found hFound ih =>
      have hSolid : Text.isBlank c = false := by simpa using hBlank
      have hLength := more_le_of_lexAt hFound
      have hMore := pieces_lexeme hSolid (commentAt?_concat_none hSlash hStar hComment)
        (lexAt_concat hOn hFound)
      rw [List.take_append_of_le_length hLength] at hMore
      exact .of_piece hLength rfl (pieces_lexeme hSolid hComment hFound) hMore h ih

/-! Blanks at the ends of a text. -/

theorem lexemes_blank (hBlank : Text.isBlank d = true) : lexemes [d] = [] := by
  rw [lexemes, pieces_blank hBlank, pieces_nil]
  rfl

theorem lexemes_append_blanks {blanks : List Char} (hBlanks : blanks.all Text.isBlank = true)
    (h : Readable (text ++ blanks)) :
    Readable text ∧ lexemes (text ++ blanks) = lexemes text := by
  induction blanks using List.reverseRecOn with
  | nil =>
      rw [List.append_nil] at h ⊢
      exact ⟨h, rfl⟩
  | append_singleton blanks d ih =>
      obtain ⟨hFront, hBlank⟩ : blanks.all Text.isBlank = true ∧ Text.isBlank d = true := by
        simpa using hBlanks
      rw [← List.append_assoc] at h ⊢
      have hBehind : Readable (text ++ blanks) ∧
          lexemes (text ++ blanks ++ [d]) = lexemes (text ++ blanks) := by
        cases grows_of_readable (.inl hBlank) h with
        | apart hReadable hSame =>
            rw [lexemes_blank hBlank, List.append_nil] at hSame
            exact ⟨hReadable, hSame⟩
        | commented hReadable hSame => exact ⟨hReadable, hSame⟩
        | referred hClose =>
            subst hClose
            cases hBlank
      obtain ⟨hReadable, hSame⟩ := ih hFront hBehind.1
      exact ⟨hReadable, hBehind.2.trans hSame⟩

/-- Blanks at the ends of a text do not matter. -/
theorem lexemes_trim (h : Readable text) :
    Readable (Text.trim text) ∧ lexemes (Text.trim text) = lexemes text := by
  have hStart : Readable (Text.trimStart text) ∧ lexemes (Text.trimStart text) = lexemes text := by
    have hPieces := pieces_blanks text
    have hTexts : (((text.takeWhile Text.isBlank).map Piece.blank).flatMap Piece.text) =
        text.takeWhile Text.isBlank := by
      simp [List.flatMap_map, Piece.text]
    constructor
    · rw [Readable, hPieces, List.flatMap_append, hTexts] at h
      exact List.append_cancel_left
        (h.trans (List.takeWhile_append_dropWhile (p := Text.isBlank)).symm)
    · rw [lexemes, lexemes, hPieces, List.filterMap_append]
      simp [Piece.lexeme?, Text.trimStart]
  have hEnd : Text.trimStart text =
      Text.trim text ++ ((Text.trimStart text).reverse.takeWhile Text.isBlank).reverse := by
    rw [Text.trim, Text.trimEnd, ← List.reverse_append, List.takeWhile_append_dropWhile,
      List.reverse_reverse]
  rw [hEnd] at hStart
  obtain ⟨hReadable, hSame⟩ := lexemes_append_blanks (by simp) hStart.1
  exact ⟨hReadable, hSame.symm.trans hStart.2⟩

end

end HtmlTemplate.Script
