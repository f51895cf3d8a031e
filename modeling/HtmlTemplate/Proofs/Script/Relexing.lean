import HtmlTemplate.Proofs.Script.Lexemes

/-! Pieces of script text that are put side by side. They are read again as they are, if what
stands behind each of them leaves it as it is. -/
namespace HtmlTemplate.Script

/-- Whether a block comment has an end. -/
def isClosed (text : List Char) : Bool :=
  ['*', '/'].isSuffixOf (text.drop 2)

/-- Whether what stands behind a piece leaves it as it is. -/
def Piece.Ends (p : Piece) (behind : List Char) : Prop :=
  match p with
  | .blank _ => True
  | .comment text =>
    if ['/', '/'].isPrefixOf text then ∀ c ∈ behind.head?, c = '\n'
    else isClosed text = true ∨ behind = []
  | .lexeme l text => l.Ends text behind

section

variable {text behind : List Char}

theorem blockCommentLength_take_append
    (h : ['*', '/'].isSuffixOf (text.take (blockCommentLength text)) = true ∨ behind = []) :
    blockCommentLength (text.take (blockCommentLength text) ++ behind) =
      blockCommentLength text := by
  fun_induction blockCommentLength text with
  | case1 => rcases h with h | rfl <;> first | cases h | rfl
  | case2 c =>
      rcases h with h | rfl
      · simp [List.isSuffixOf, List.isPrefixOf] at h
      · rfl
  | case3 c d rest hEnd =>
      simp only [List.take_succ_cons, List.take_zero, List.cons_append, blockCommentLength, hEnd,
        ↓reduceIte]
  | case4 c d rest hOther ih =>
      obtain ⟨n, hSome⟩ : ∃ n, blockCommentLength (d :: rest) = n + 1 := by
        cases rest with
        | nil => exact ⟨0, rfl⟩
        | cons e later =>
            unfold blockCommentLength
            split
            · exact ⟨1, rfl⟩
            · exact ⟨_, rfl⟩
      rw [hSome, List.take_succ_cons] at ih h
      rw [hSome, List.take_succ_cons, List.take_succ_cons, List.cons_append, List.cons_append,
        blockCommentLength, if_neg hOther, ← List.cons_append, ih]
      refine h.imp_left fun hSuffix => ?_
      rw [List.take_succ_cons, List.isSuffixOf_iff_suffix, List.suffix_cons_iff] at hSuffix
      rcases hSuffix with hWhole | hLater
      · obtain ⟨hStar, hWhole⟩ := List.cons.inj hWhole
        obtain ⟨hSlash, -⟩ := List.cons.inj hWhole
        simp [← hStar, ← hSlash] at hOther
      · exact List.isSuffixOf_iff_suffix.mpr hLater

theorem commentAt?_take_append {c : Char} {rest : List Char} {n : Nat}
    (h : commentAt? c rest = some n) (hEnds : (Piece.comment (c :: rest.take n)).Ends behind) :
    commentAt? c (rest.take n ++ behind) = some n := by
  obtain ⟨body, ⟨rfl, rfl, rfl⟩ | ⟨rfl, rfl, rfl⟩⟩ := commentAt?_eq_some h
  · have hNext : ∀ c ∈ behind.head?, c = '\n' := hEnds
    have hAgain : (body.takeWhile (· ≠ '\n') ++ behind).takeWhile (· ≠ '\n') =
        body.takeWhile (· ≠ '\n') :=
      takeWhile_append_stop _ List.all_takeWhile (by simpa using hNext)
    rw [List.take_succ_cons, take_length_takeWhile, List.cons_append]
    change some (((body.takeWhile (· ≠ '\n') ++ behind).takeWhile (· ≠ '\n')).length + 1) = _
    rw [hAgain]
  · have hBody : ['*', '/'].isSuffixOf (body.take (blockCommentLength body)) = true ∨
        behind = [] := hEnds
    rw [List.take_succ_cons, List.cons_append]
    change some (blockCommentLength (body.take (blockCommentLength body) ++ behind) + 1) = _
    rw [blockCommentLength_take_append hBody]

theorem blockCommentLength_le (text : List Char) : blockCommentLength text ≤ text.length := by
  fun_induction blockCommentLength text with
  | case1 | case2 | case3 => simp
  | case4 c d rest hOther ih => exact Nat.succ_le_succ ih

theorem length_of_commentAt? {c : Char} {rest : List Char} {n : Nat}
    (h : commentAt? c rest = some n) : n ≤ rest.length := by
  obtain ⟨body, ⟨rfl, rfl, rfl⟩ | ⟨rfl, rfl, rfl⟩⟩ := commentAt?_eq_some h
  · exact Nat.succ_le_succ (List.takeWhile_prefix _).length_le
  · exact Nat.succ_le_succ (blockCommentLength_le body)

/-- Where a slash is a lexeme, no comment begins. -/
theorem commentAt?_of_lexAt {c : Char} {rest : List Char} {found : Lexed}
    (h : lexAt 0 c rest = .ok found)
    (hEnds : found.lexeme.Ends (c :: rest.take found.more) behind) :
    commentAt? c (rest.take found.more ++ behind) = none := by
  cases hComment : commentAt? c (rest.take found.more ++ behind) with
  | none => rfl
  | some n =>
      obtain ⟨hSlash, hNext⟩ : c = '/' ∧
          ∃ d body, rest.take found.more ++ behind = d :: body ∧ d ∈ ['/', '*'] := by
        obtain ⟨body, ⟨hc, hBody, -⟩ | ⟨hc, hBody, -⟩⟩ := commentAt?_eq_some hComment
        · exact ⟨hc, '/', body, hBody, by simp⟩
        · exact ⟨hc, '*', body, hBody, by simp⟩
      subst hSlash
      obtain ⟨d, body, hBody, hd⟩ := hNext
      have hKind : lexemeKind '/' rest = .symbol := rfl
      cases lexAt_eq_ok.mp h with
      | number hOther | string hOther | reference hOther | markedWord hOther | word hOther
      | optionalChain hOther => cases hKind.symm.trans hOther
      | @symbol s _ hFound =>
          have hText := symbol_text hFound
          dsimp only at hBody
          obtain ⟨hFollowers, -⟩ : s.Ends behind := hEnds
          cases s
          case slash =>
            have hBehind : behind = d :: body := hBody
            have hNext := hFollowers d (by simp [hBehind])
            simp_all [Symbol.followers]
          case slashEq =>
            have hEq : rest.take 1 = ['='] := (List.cons.inj hText).2
            have hSame : rest.take 1 ++ behind = d :: body := hBody
            rw [hEq] at hSame
            cases hSame
            exact absurd hd (by decide)
          all_goals cases (List.cons.inj hText).1

end

/-- Whether pieces, put side by side, leave each other as they are. -/
def Separate : List Piece → Prop
  | [] => True
  | p :: rest => p.Ends (rest.flatMap Piece.text) ∧ Separate rest

/-- Pieces put side by side are read again. -/
theorem pieces_of_separate {ps : List Piece} (hSound : ∀ p ∈ ps, p.Sound) (h : Separate ps) :
    pieces (ps.flatMap Piece.text) = ps := by
  induction ps with
  | nil => exact pieces_nil
  | cons p rest ih =>
      obtain ⟨hFirst, hRest⟩ := List.forall_mem_cons.mp hSound
      have hLater := ih hRest h.2
      rw [List.flatMap_cons]
      cases hFirst with
      | blank hBlank => rw [Piece.text, List.singleton_append, pieces_blank hBlank, hLater]
      | @comment c text n hComment =>
          have hAgain := commentAt?_take_append hComment h.1
          have hBlank : Text.isBlank c = false := by
            obtain ⟨body, ⟨rfl, -⟩ | ⟨rfl, -⟩⟩ := commentAt?_eq_some hComment <;> rfl
          have hLength : (text.take n).length = n :=
            List.length_take_of_le (length_of_commentAt? hComment)
          rw [Piece.text, List.cons_append, pieces_comment hBlank hAgain, List.take_left' hLength,
            List.drop_left' hLength, hLater]
      | @lexeme c text found hBlank hFound =>
          have hAgain := lexAt_take_append hFound h.1
          have hLength : (text.take found.more).length = found.more :=
            List.length_take_of_le (more_le_of_lexAt hFound)
          rw [Piece.text, List.cons_append,
            pieces_lexeme hBlank (commentAt?_of_lexAt hFound h.1) hAgain, List.take_left' hLength,
            List.drop_left' hLength, hLater]

end HtmlTemplate.Script
