import HtmlTemplate.Proofs.Script.Neighbours
import HtmlTemplate.Proofs.Source.Spaces

/-! Script text without the white space outside of quoted texts. It has the same pieces if and
only if none of its comments and references is another one without white space, and no two of its
pieces come to stand side by side of which one clings to the other. -/
namespace HtmlTemplate.Script

open Source (dropSpaces isSpace isQuote QuotesPaired)

/-- A string keeps its white space, and what stands behind it is outside of quoted texts. -/
theorem dropSpaces_stringBody {quote : Char} {text found : List Char} {n : Nat}
    (hQuote : isQuote quote = true) (h : stringBody quote text = .ok (found, n))
    (behind : List Char) :
    dropSpaces (some quote) (text.take n ++ behind) = text.take n ++ dropSpaces none behind := by
  have hSlash : quote ≠ '\\' := by
    rintro rfl
    cases hQuote
  fun_induction stringBody quote text generalizing found n with
  | case1 => cases h
  | case2 rest =>
      cases h
      rw [List.take_succ_cons, List.take_zero, List.singleton_append, Source.dropSpaces.eq_def]
      simp only [hSlash, ↓reduceIte, List.singleton_append]
  | case3 => cases h
  | case4 d rest hOther ih =>
      obtain ⟨⟨inner, m⟩, hInner, hEq⟩ := map_eq_ok.mp h
      cases hEq
      rw [List.take_succ_cons, List.take_succ_cons, List.cons_append, List.cons_append,
        Source.dropSpaces.eq_def]
      simp only [↓reduceIte, ih hInner]
      rfl
  | case5 c rest hOther hPlain ih =>
      obtain ⟨⟨inner, m⟩, hInner, hEq⟩ := map_eq_ok.mp h
      cases hEq
      rw [List.take_succ_cons, List.cons_append, Source.dropSpaces.eq_def]
      simp only [hOther, hPlain, ↓reduceIte, ih hInner]
      rfl

/-- A lexeme that is no reference has no white space to drop. -/
theorem dropSpaces_written {lexeme : Lexeme} {c : Char} {rest : List Char}
    (h : lexeme.Written c rest) (hOther : ∀ path, lexeme ≠ .reference path) (behind : List Char) :
    dropSpaces none (c :: rest ++ behind) = c :: rest ++ dropSpaces none behind := by
  have hAll {p : Char → Bool} {text : List Char} (h : text.all p = true)
      (hClass : Source.softChars.any p = false) : text.all Source.isSolid = true :=
    List.all_eq_true.mpr fun d hd =>
      of_class Source.mem_softChars (List.all_eq_true.mp h d hd) hClass
  have hWord (h : (isWordStart c = true ∨ c = '@') ∧ rest.all isWordPart = true) :
      (c :: rest).all Source.isSolid = true := by
    have hFirst : Source.isSolid c = true := by
      rcases h.1 with hStart | rfl
      · exact of_class Source.mem_softChars hStart (by decide)
      · rfl
    rw [List.all_cons, hFirst, hAll h.2 (by decide)]
    rfl
  cases lexeme with
  | number x => exact Source.dropSpaces_solid (hAll h.2 (by decide)) behind
  | string text =>
      obtain ⟨body, found, n, hQuote, hBody, rfl⟩ := h
      have hSpace : isSpace c = false := by
        rcases (by simpa [isQuote, or_assoc] using hQuote : c = '"' ∨ c = '\'' ∨ c = '\x60') with
          rfl | rfl | rfl <;> rfl
      simp only [List.cons_append, dropSpaces, hSpace, hQuote, Bool.false_eq_true, ↓reduceIte,
        dropSpaces_stringBody hQuote hBody]
  | reference path => exact absurd rfl (hOther path)
  | symbol s =>
      rw [show c :: rest = s.text.toList from h]
      refine Source.dropSpaces_solid ?_ behind
      cases s <;> decide
  | identifier | boolean | null | undefined | typeof =>
      exact Source.dropSpaces_solid (hWord h) behind
  | finish => exact h.elim

/-- What is left of a piece without its white space. -/
def Piece.packed? : Piece → Option Piece
  | .blank c => if isSpace c then none else some (.blank c)
  | .comment text => some (.comment (dropSpaces none text))
  | .lexeme l text => some (.lexeme l (dropSpaces none text))

def packed (ps : List Piece) : List Piece :=
  ps.filterMap Piece.packed?

/-- Whether a piece without its white space is the same comment or lexeme. -/
def Piece.Packs (p : Piece) : Prop :=
  QuotesPaired p.text ∧ pieces (dropSpaces none p.text) = p.packed?.toList

instance (p : Piece) : Decidable p.Packs :=
  inferInstanceAs (Decidable (_ ∧ _))

theorem lexeme?_packed (ps : List Piece) :
    (packed ps).filterMap Piece.lexeme? = ps.filterMap Piece.lexeme? := by
  unfold packed
  rw [List.filterMap_filterMap]
  congr 1
  funext p
  cases p with
  | blank c => by_cases h : isSpace c = true <;> simp [Piece.packed?, Piece.lexeme?, h]
  | _ => rfl

theorem dropSpaces_lexAt {c : Char} {rest : List Char} {found : Lexed}
    (h : lexAt 0 c rest = .ok found) (hOther : ∀ path, found.lexeme ≠ .reference path)
    (behind : List Char) : dropSpaces none (c :: rest.take found.more ++ behind) =
      c :: rest.take found.more ++ dropSpaces none behind :=
  dropSpaces_written (written_of_lexAt h) hOther behind

theorem dropSpaces_lexAt_self {c : Char} {rest : List Char} {found : Lexed}
    (h : lexAt 0 c rest = .ok found) (hOther : ∀ path, found.lexeme ≠ .reference path) :
    dropSpaces none (c :: rest.take found.more) = c :: rest.take found.more := by
  simpa [dropSpaces] using dropSpaces_lexAt h hOther []

theorem isQuote_of_isBlank {c : Char} (h : Text.isBlank c = true) : isQuote c = false := by
  simpa using of_isBlank (p := fun c => !isQuote c) (by decide) h

section

variable {p : Piece} {ps : List Piece} {text : List Char}

/-- The text of a piece loses its white space by itself. -/
theorem dropSpaces_piece (hSound : p.Sound)
    (hPaired : p.passage?.isSome = true → QuotesPaired p.text) (behind : List Char) :
    dropSpaces none (p.text ++ behind) =
      p.packed?.toList.flatMap Piece.text ++ dropSpaces none behind := by
  cases hSound with
  | @blank c hBlank =>
      by_cases hSpace : isSpace c = true
      · simp [Piece.text, Piece.packed?, hSpace, dropSpaces]
      · simp [Piece.text, Piece.packed?, hSpace, dropSpaces, isQuote_of_isBlank hBlank]
  | comment =>
      rw [(hPaired rfl).append]
      simp [Piece.packed?, Piece.text]
  | @lexeme c rest found hBlank hFound =>
      by_cases hReference : ∃ path, found.lexeme = .reference path
      · obtain ⟨path, hLexeme⟩ := hReference
        rw [(hPaired (by rw [hLexeme]; rfl)).append]
        simp [Piece.packed?, Piece.text]
      · have hOther := fun path hLexeme => hReference ⟨path, hLexeme⟩
        rw [Piece.text, dropSpaces_lexAt hFound hOther, Piece.packed?,
          dropSpaces_lexAt_self hFound hOther]
        simp [Piece.text]

/-- Blanks, and lexemes that are no references, stay what they are. -/
theorem sound_of_packed? (hSound : p.Sound) (hPacks : p.passage?.isSome = true → p.Packs) :
    ∀ q ∈ p.packed?, q.Sound := by
  have hPassage (h : p.Packs) : ∀ q ∈ p.packed?, q.Sound := by
    intro q hq
    refine pieces_sound (dropSpaces none p.text) q ?_
    rw [h.2]
    exact Option.mem_toList.mpr hq
  cases hSound with
  | @blank c hBlank =>
      by_cases hSpace : isSpace c = true
      · simp [Piece.packed?, hSpace]
      · rw [Piece.packed?, if_neg hSpace]
        rintro _ ⟨⟩
        exact .blank hBlank
  | comment hComment => exact hPassage (hPacks rfl)
  | @lexeme c rest found hBlank hFound =>
      by_cases hReference : ∃ path, found.lexeme = .reference path
      · obtain ⟨path, hLexeme⟩ := hReference
        exact hPassage (hPacks (by rw [hLexeme]; rfl))
      · have hOther := fun path hLexeme => hReference ⟨path, hLexeme⟩
        rw [Piece.packed?, dropSpaces_lexAt_self hFound hOther]
        rintro _ ⟨⟩
        exact .lexeme hBlank hFound

theorem packed_cons (p : Piece) (ps : List Piece) :
    packed (p :: ps) = p.packed?.toList ++ packed ps := by
  unfold packed
  rw [List.filterMap_cons]
  cases p.packed? <;> rfl

theorem packed_sound (hSound : ∀ p ∈ ps, p.Sound)
    (hPacks : ∀ p ∈ ps, p.passage?.isSome = true → p.Packs) : ∀ q ∈ packed ps, q.Sound := by
  intro q hq
  obtain ⟨p, hp, hPacked⟩ := List.mem_filterMap.mp hq
  exact sound_of_packed? (hSound p hp) (hPacks p hp) q hPacked

/-- Pieces lose their white space one by one. -/
theorem text_packed (hSound : ∀ p ∈ ps, p.Sound)
    (hPaired : ∀ p ∈ ps, p.passage?.isSome = true → QuotesPaired p.text) :
    dropSpaces none (ps.flatMap Piece.text) = (packed ps).flatMap Piece.text := by
  induction ps with
  | nil => rfl
  | cons p rest ih =>
      obtain ⟨hFirst, hRest⟩ := List.forall_mem_cons.mp hSound
      obtain ⟨hFirst', hRest'⟩ := List.forall_mem_cons.mp hPaired
      rw [List.flatMap_cons, dropSpaces_piece hFirst hFirst', ih hRest hRest', packed_cons,
        List.flatMap_append]

theorem isClosed_packed {q : Piece} (hSound : p.Sound) (h : p.IsClosed) (hq : p.packed? = some q) :
    q.IsClosed := by
  cases hSound with
  | @blank c hBlank =>
      by_cases hSpace : isSpace c = true
      · simp [Piece.packed?, hSpace] at hq
      · rw [Piece.packed?, if_neg hSpace] at hq
        cases hq
        trivial
  | @comment c rest n hComment =>
      cases hq
      obtain ⟨body, ⟨rfl, rfl, rfl⟩ | ⟨rfl, rfl, rfl⟩⟩ := commentAt?_eq_some hComment
      · exact .inl rfl
      · refine .inr ?_
        have hEnd : isClosed ('/' :: '*' :: body.take (blockCommentLength body)) = true :=
          h.resolve_left Bool.false_ne_true
        obtain ⟨inner, hInner⟩ := List.isSuffixOf_iff_suffix.mp hEnd
        have hBody : inner ++ ['*', '/'] = body.take (blockCommentLength body) := hInner
        have hPacked : dropSpaces none ('/' :: '*' :: (inner ++ ['*', '/'])) =
            '/' :: '*' :: (dropSpaces none inner ++ ['*', '/']) := by
          have hLast : inner ++ ['*', '/'] = (inner ++ ['*']) ++ ['/'] := by simp
          have hInside : dropSpaces none (inner ++ ['*', '/']) =
              dropSpaces none inner ++ ['*', '/'] := by
            rw [hLast, Source.dropSpaces_concat (by simp) rfl,
              Source.dropSpaces_concat (by simp) rfl]
            simp
          rw [← hInside]
          rfl
        rw [List.take_succ_cons, ← hBody, hPacked]
        exact List.isSuffixOf_iff_suffix.mpr (List.suffix_append _ _)
  | lexeme =>
      cases hq
      trivial

theorem ends_nil (p : Piece) : p.Ends [] := by
  cases p with
  | blank => trivial
  | comment text =>
      change if _ then _ else _
      split
      · exact nofun
      · exact .inr rfl
  | lexeme l text =>
      cases l with
      | symbol s => simp [Piece.Ends, Lexeme.Ends, Symbol.Ends]
      | string | reference | finish => trivial
      | _ => exact nofun

/-- Pieces of an expression that do not cling to each other leave each other as they are. -/
theorem separate_of_chain (hSound : ∀ p ∈ ps, p.Sound)
    (hAdmits : (ps.filterMap Piece.lexeme?).IsChain Lexeme.Admits)
    (hClosed : ps.Pairwise fun p _ => p.IsClosed)
    (hClings : ps.IsChain fun p q => ¬ p.Clings q) : Separate ps := by
  induction ps with
  | nil => trivial
  | cons p rest ih =>
      obtain ⟨hFirst, hRest⟩ := List.forall_mem_cons.mp hSound
      obtain ⟨hClosedFirst, hClosedRest⟩ := List.pairwise_cons.mp hClosed
      obtain ⟨hNext, hLater⟩ := List.isChain_cons.mp hClings
      have hAdmitsRest : (rest.filterMap Piece.lexeme?).IsChain Lexeme.Admits := by
        rw [List.filterMap_cons] at hAdmits
        split at hAdmits
        · exact hAdmits
        · exact hAdmits.tail
      refine ⟨?_, ih hRest hAdmitsRest hClosedRest hLater⟩
      cases rest with
      | nil => exact ends_nil p
      | cons q later =>
          rw [List.flatMap_cons]
          refine ends_of_admits hFirst (hRest q List.mem_cons_self) (hNext q rfl) ?_
            (hClosedFirst q List.mem_cons_self)
          intro l hl m hm
          rw [List.filterMap_cons, hl, List.filterMap_cons, hm] at hAdmits
          exact (List.isChain_cons_cons.mp hAdmits).1

theorem Piece.Sound.pieces_text (h : p.Sound) : pieces p.text = [p] := by
  have hPieces : pieces ([p].flatMap Piece.text) = [p] :=
    pieces_of_separate (by simpa using h) ⟨ends_nil p, trivial⟩
  simpa using hPieces

/-- A comment or a reference keeps its characters but for white space. -/
theorem exists_packed? (h : p.passage?.isSome = true) :
    ∃ q, p.packed? = some q ∧ q.text = dropSpaces none p.text := by
  cases p with
  | blank => cases h
  | comment text => exact ⟨_, rfl, rfl⟩
  | lexeme l text => exact ⟨_, rfl, rfl⟩

/-- Whether pieces are told apart without white space: no comment or reference becomes another
one, and no piece comes to stand in front of one that it clings to. -/
def Apart (ps : List Piece) : Prop :=
  (∀ p ∈ ps, p.passage?.isSome = true → p.Packs) ∧
    (packed ps).IsChain fun p q => ¬ p.Clings q

instance (ps : List Piece) : Decidable (Apart ps) :=
  inferInstanceAs (Decidable (_ ∧ _))

/-- The pieces of an expression without white space. -/
theorem pieces_dropSpaces_iff (hTexts : (pieces text).flatMap Piece.text = text)
    (hAdmits : ((pieces text).filterMap Piece.lexeme?).IsChain Lexeme.Admits)
    (hPaired : ∀ p ∈ pieces text, p.passage?.isSome = true → QuotesPaired p.text) :
    pieces (dropSpaces none text) = packed (pieces text) ↔ Apart (pieces text) := by
  constructor
  · intro hSame
    refine ⟨fun p hp hPassage => ⟨hPaired p hp hPassage, ?_⟩, ?_⟩
    · obtain ⟨q, hPacked, hText⟩ := exists_packed? hPassage
      have hMem : q ∈ pieces (dropSpaces none text) := by
        rw [hSame]
        exact List.mem_filterMap.mpr ⟨p, hp, hPacked⟩
      rw [← hText, (pieces_sound _ q hMem).pieces_text, hPacked]
      rfl
    · rw [← hSame]
      exact pieces_chain _
  · rintro ⟨hPacks, hClings⟩
    have hSound := packed_sound (pieces_sound text) hPacks
    have hText : dropSpaces none text = (packed (pieces text)).flatMap Piece.text := by
      rw [← text_packed (pieces_sound text) hPaired, hTexts]
    have hClosed : (packed (pieces text)).Pairwise fun p _ => p.IsClosed := by
      refine List.Pairwise.filterMap _ ?_ ((pieces_closed text).imp_of_mem fun {p q} hp _ h =>
        (⟨pieces_sound text p hp, h⟩ : p.Sound ∧ p.IsClosed))
      exact fun p _ h q hq _ _ => isClosed_packed h.1 h.2 hq
    rw [hText]
    rw [← lexeme?_packed] at hAdmits
    exact pieces_of_separate hSound (separate_of_chain hSound hAdmits hClosed hClings)

end

end HtmlTemplate.Script
