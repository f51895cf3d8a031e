import HtmlTemplate.Proofs.Script.Relexing
import Mathlib.Data.List.Chain

/-! Pieces of script text that are not read as they are when nothing is between them and the
next. No two neighbours of a text that is read are such pieces. -/
namespace HtmlTemplate.Script

/-- Whether a piece is not read as it is in front of another one: a line comment, which goes on;
a slash, with which a comment begins earlier; a sign in front of the same sign; `typeof` in front
of a word; and a number, which takes a dot along. -/
def Piece.Clings : Piece → Piece → Prop
  | .comment text, q => ['/', '/'].isPrefixOf text = true ∧ q ≠ .blank '\n'
  | .lexeme (.symbol .slash) _, .comment _ => True
  | .lexeme (.symbol .plus) _, .lexeme (.symbol .plus) _ => True
  | .lexeme (.symbol .minus) _, .lexeme (.symbol .minus) _ => True
  | .lexeme .typeof _, .lexeme _ text => text.head?.any isWordPart = true
  | .lexeme (.number _) text, .lexeme (.symbol .dot) _ => text.all isMantissa = true
  | _, _ => False

instance (p q : Piece) : Decidable (p.Clings q) := by
  unfold Piece.Clings
  split <;> infer_instance

/-- The beginning of a piece. -/
theorem Piece.Sound.first {p : Piece} (h : p.Sound) : ∃ c rest, p.text = c :: rest ∧
    match p with
    | .blank _ => Text.isBlank c = true
    | .comment _ => c = '/'
    | .lexeme l _ => l.Written c rest := by
  cases h with
  | @blank c hBlank => exact ⟨c, [], rfl, hBlank⟩
  | @comment c rest n hComment =>
      obtain ⟨body, ⟨hc, -⟩ | ⟨hc, -⟩⟩ := commentAt?_eq_some hComment <;> exact ⟨c, _, rfl, hc⟩
  | @lexeme c rest found hBlank hFound => exact ⟨c, _, rfl, written_of_lexAt hFound⟩

theorem pieces_head? (text : List Char) (q : Piece) (h : q ∈ (pieces text).head?) :
    q.text <+: text := by
  fun_cases pieces text with
  | case1 => rw [pieces_nil] at h; cases h
  | case2 c rest hBlank =>
      rw [pieces_blank hBlank] at h
      cases h
      exact ⟨rest, rfl⟩
  | case3 c rest hBlank n hComment =>
      rw [pieces_comment (by simpa using hBlank) hComment] at h
      cases h
      exact ⟨rest.drop n, by simp [Piece.text]⟩
  | case4 c rest hBlank hComment e hError =>
      rw [pieces, if_neg hBlank, hComment] at h
      dsimp only at h
      rw [hError] at h
      cases h
  | case5 c rest hBlank hComment found hFound =>
      rw [pieces_lexeme (by simpa using hBlank) hComment hFound] at h
      cases h
      exact ⟨rest.drop found.more, by simp [Piece.text]⟩

theorem head?_of_pieces {text : List Char} {q : Piece} (h : q ∈ (pieces text).head?) :
    q.text.head? = text.head? := by
  have hMem : q ∈ pieces text := List.mem_of_mem_head? h
  obtain ⟨c, rest, hText, -⟩ := (pieces_sound text q hMem).first
  obtain ⟨behind, hBehind⟩ := pieces_head? text q h
  rw [← hBehind, hText]
  rfl

theorem not_clings_comment {c : Char} {rest : List Char} {n : Nat} (h : commentAt? c rest = some n)
    {q : Piece} (hq : q ∈ (pieces (rest.drop n)).head?) :
    ¬ (Piece.comment (c :: rest.take n)).Clings q := by
  rintro ⟨hLine, hOther⟩
  obtain ⟨body, ⟨rfl, rfl, rfl⟩ | ⟨rfl, rfl, rfl⟩⟩ := commentAt?_eq_some h
  · rw [List.drop_succ_cons, drop_length_takeWhile] at hq
    have hHead := List.head?_dropWhile_not (· ≠ '\n') body
    cases hRest : body.dropWhile (· ≠ '\n') with
    | nil =>
        rw [hRest, pieces_nil] at hq
        cases hq
    | cons d later =>
        rw [hRest] at hq hHead
        obtain rfl : d = '\n' := by simpa using hHead
        rw [pieces_blank rfl] at hq
        cases hq
        exact hOther rfl
  · cases hLine

theorem clings_wordLexeme {word text : List Char} {q : Piece}
    (h : (Piece.lexeme (wordLexeme word) text).Clings q) : q.text.head?.any isWordPart = true := by
  unfold wordLexeme at h
  split at h
  case h_5 =>
    cases q with
    | lexeme m more => exact h
    | _ => exact h.elim
  all_goals exact h.elim

/-- A symbol is not found in front of a character that makes it a longer one. -/
theorem clings_symbol {s : Symbol} {c : Char} {rest text : List Char} {q : Piece}
    (hComment : commentAt? c rest = none)
    (hFound : Symbol.byLength.find? (fun s => s.text.toList.isPrefixOf (c :: rest)) = some s)
    (hSound : q.Sound) (hq : q.text.head? = (rest.drop (s.text.length - 1)).head?) :
    ¬ (Piece.lexeme (.symbol s) text).Clings q := by
  obtain ⟨d, more, hText, hFirst⟩ := hSound.first
  have hSymbol := symbol_text hFound
  rw [hText] at hq
  intro hClings
  cases s
  case slash =>
    obtain rfl : c = '/' := (List.cons.inj hSymbol).1
    cases q with
    | comment =>
        obtain rfl : d = '/' := hFirst
        obtain ⟨later, rfl⟩ := List.head?_eq_some_iff.mp hq.symm
        cases hComment
    | _ => exact hClings.elim
  case plus =>
    obtain rfl : c = '+' := (List.cons.inj hSymbol).1
    cases q with
    | lexeme m text =>
        cases m with
        | symbol t =>
            cases t with
            | plus =>
                obtain rfl : d = '+' := (List.cons.inj hFirst).1
                obtain ⟨later, rfl⟩ := List.head?_eq_some_iff.mp hq.symm
                cases hFound
            | _ => exact hClings.elim
        | _ => exact hClings.elim
    | _ => exact hClings.elim
  case minus =>
    obtain rfl : c = '-' := (List.cons.inj hSymbol).1
    cases q with
    | lexeme m text =>
        cases m with
        | symbol t =>
            cases t with
            | minus =>
                obtain rfl : d = '-' := (List.cons.inj hFirst).1
                obtain ⟨later, rfl⟩ := List.head?_eq_some_iff.mp hq.symm
                cases hFound
            | _ => exact hClings.elim
        | _ => exact hClings.elim
    | _ => exact hClings.elim
  all_goals exact hClings.elim

theorem numberLength_dot {text : List Char} (h : text.all isMantissa = true) (rest : List Char) :
    text.length < numberLength (text ++ '.' :: rest) := by
  rw [numberLength_eq, List.takeWhile_append_of_pos (List.all_eq_true.mp h),
    List.takeWhile_cons_of_pos rfl, List.length_append, List.length_cons]
  omega

/-- A number takes a dot along. -/
theorem clings_number {x : Float} {c : Char} {rest : List Char} {q : Piece} (hSound : q.Sound)
    (hq : q.text.head? = (rest.drop (numberLength (c :: rest) - 1)).head?) :
    ¬ (Piece.lexeme (.number x) (c :: rest.take (numberLength (c :: rest) - 1))).Clings q := by
  obtain ⟨d, more, hText, hFirst⟩ := hSound.first
  rw [hText] at hq
  intro hClings
  have hDot : d = '.' ∧ (c :: rest.take (numberLength (c :: rest) - 1)).all isMantissa = true := by
    cases q with
    | lexeme m text =>
        cases m with
        | symbol t =>
            cases t with
            | dot => exact ⟨(List.cons.inj hFirst).1, hClings⟩
            | _ => exact hClings.elim
        | _ => exact hClings.elim
    | _ => exact hClings.elim
  obtain ⟨rfl, hAll⟩ := hDot
  obtain ⟨later, hLater⟩ := List.head?_eq_some_iff.mp hq.symm
  have hWhole : c :: rest = (c :: rest.take (numberLength (c :: rest) - 1)) ++ '.' :: later := by
    rw [List.cons_append, ← hLater, List.take_append_drop]
  have hLong := numberLength_dot hAll later
  rw [← hWhole, List.length_cons, List.length_take] at hLong
  have hLength := length_take_numberLength (c :: rest)
  rw [List.length_take, List.length_cons] at hLength
  omega

theorem not_clings_lexeme {c : Char} {rest : List Char} {found : Lexed}
    (hComment : commentAt? c rest = none)
    (h : lexAt 0 c rest = .ok found) {q : Piece} (hSound : q.Sound)
    (hq : q.text.head? = (rest.drop found.more).head?) :
    ¬ (Piece.lexeme found.lexeme (c :: rest.take found.more)).Clings q := by
  intro hClings
  have hWord (hq : q.text.head? = (rest.drop (rest.takeWhile isWordPart).length).head?) :
      q.text.head?.any isWordPart = false := by
    rw [hq, drop_length_takeWhile]
    have hHead := List.head?_dropWhile_not isWordPart rest
    cases hLater : (rest.dropWhile isWordPart).head? with
    | none => rfl
    | some d => simpa [hLater] using hHead
  cases lexAt_eq_ok.mp h with
  | number => exact clings_number hSound hq hClings
  | string | reference | optionalChain => exact hClings
  | markedWord | word =>
      have hOther := hWord hq
      rw [clings_wordLexeme hClings] at hOther
      cases hOther
  | symbol hKind hFound => exact clings_symbol hComment hFound hSound hq hClings

/-- No piece that is read clings to the next one. -/
theorem pieces_chain (text : List Char) : (pieces text).IsChain fun p q => ¬ p.Clings q := by
  fun_induction pieces text with
  | case1 => exact .nil
  | case2 c rest hBlank ih => exact List.isChain_cons.mpr ⟨fun q _ h => h, ih⟩
  | case3 c rest hBlank n hComment ih =>
      exact List.isChain_cons.mpr ⟨fun q => not_clings_comment hComment, ih⟩
  | case4 => exact .nil
  | case5 c rest hBlank hComment found hFound ih =>
      refine List.isChain_cons.mpr ⟨fun q hq => ?_, ih⟩
      have hSound := pieces_sound _ q (List.mem_of_mem_head? hq)
      exact not_clings_lexeme hComment hFound hSound (head?_of_pieces hq)

/-! Comments with an end. -/

/-- Whether a piece is no block comment without an end. -/
def Piece.IsClosed : Piece → Prop
  | .comment text => ['/', '/'].isPrefixOf text = true ∨ isClosed text = true
  | _ => True

/-- A block comment ends where something is left behind it. -/
theorem closed_of_drop {text : List Char} (h : text.drop (blockCommentLength text) ≠ []) :
    ['*', '/'].isSuffixOf (text.take (blockCommentLength text)) = true := by
  fun_induction blockCommentLength text with
  | case1 | case2 => simp at h
  | case3 c d rest hEnd =>
      obtain ⟨rfl, rfl⟩ : c = '*' ∧ d = '/' := by simpa using hEnd
      rfl
  | case4 c d rest hOther ih =>
      rw [List.drop_succ_cons] at h
      rw [List.take_succ_cons, List.isSuffixOf_iff_suffix]
      exact (List.isSuffixOf_iff_suffix.mp (ih h)).trans (List.suffix_cons _ _)

/-- Only the last piece can be without an end. -/
theorem pieces_closed (text : List Char) : (pieces text).Pairwise fun p _ => p.IsClosed := by
  fun_induction pieces text with
  | case1 => exact .nil
  | case2 c rest hBlank ih => exact List.pairwise_cons.mpr ⟨fun _ _ => trivial, ih⟩
  | case3 c rest hBlank n hComment ih =>
      refine List.pairwise_cons.mpr ⟨fun q hq => ?_, ih⟩
      obtain ⟨body, ⟨rfl, rfl, rfl⟩ | ⟨rfl, rfl, rfl⟩⟩ := commentAt?_eq_some hComment
      · exact .inl rfl
      · refine .inr (closed_of_drop fun hNil => ?_)
        rw [List.drop_succ_cons, hNil, pieces_nil] at hq
        cases hq
  | case4 => exact .nil
  | case5 c rest hBlank hComment found hFound ih =>
      exact List.pairwise_cons.mpr ⟨fun _ _ => trivial, ih⟩

end HtmlTemplate.Script
