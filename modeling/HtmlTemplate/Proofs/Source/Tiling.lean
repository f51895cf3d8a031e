import HtmlTemplate.Proofs.Source.Pieces

/-! The tokens of a text tile it: their spans stand in order, what they cover is what they
say, and what no span covers is a head in parentheses, blanks of a control word, or a
comment. -/
namespace HtmlTemplate

/-- What a token says about the text that it comes from. The span of a head is empty and
lies behind the parentheses; a block is covered with its braces. -/
def Token.Covers (source : List Char) (t : Token) : Prop :=
  match t.kind with
  | .condition | .each => t.span.start = t.span.stop ∧ ∃ first ≤ t.span.start,
      Parenthesised (source.extract first t.span.start) ∧
      t.value.toList = Source.dropSpaces none (source.extract first t.span.start)
  | .block => source.extract t.span.start t.span.stop = '\x7b' :: t.value.toList ++ ['\x7d']
  | _ => source.extract t.span.start t.span.stop = t.value.toList

/-- Whether a place lies in markup: the text begins with it, or the word `serve` stands
somewhere before. -/
def InMarkup (mode : ScanMode) (tokens : List Token) (place : Nat) : Prop :=
  mode = .markup ∨ ∃ t ∈ tokens, t.kind = .keyword .serve ∧ t.span.stop ≤ place

/-- What the characters between two places may be if no token covers them: the parentheses
of a head, blanks behind a control word or a head, or a comment. -/
inductive Gap (mode : ScanMode) (source : List Char) (tokens : List Token) : Nat → Nat → Prop
  | head {t : Token} {start : Nat} (hToken : t ∈ tokens)
      (hKind : t.kind = .condition ∨ t.kind = .each)
      (hText : Parenthesised (source.extract start t.span.start))
      (hValue : t.value.toList = Source.dropSpaces none (source.extract start t.span.start)) :
      Gap mode source tokens start t.span.start
  | blanks {t : Token} {stop : Nat} (hToken : t ∈ tokens)
      (hKind : t.kind = .condition ∨ t.kind = .each ∨
        ∃ k, t.kind = .keyword k ∧ k.isControl = true)
      (hText : (source.extract t.span.stop stop).all Source.isSpace = true) :
      Gap mode source tokens t.span.stop stop
  | comment {start stop : Nat} (hMode : InMarkup mode tokens start)
      (hText : IsComment (source.extract start stop)) : Gap mode source tokens start stop
  | line {start stop : Nat} (hMode : ¬ InMarkup mode tokens start)
      (hText : IsLineComment (source.extract start stop) (source.drop stop)) :
      Gap mode source tokens start stop

/-- Whether the characters between two places stand apart from all tokens. -/
def Apart (tokens : List Token) (start stop : Nat) : Prop :=
  ∀ t ∈ tokens, t.span.stop ≤ start ∨ stop ≤ t.span.start

/-- Tokens that tile a text. -/
structure Tiles (mode : ScanMode) (source : List Char) (tokens : List Token) : Prop where
  within : ∀ t ∈ tokens, t.span.start ≤ t.span.stop ∧ t.span.stop ≤ source.length
  ordered : tokens.Pairwise fun first second => first.span.stop ≤ second.span.start
  covers : ∀ t ∈ tokens, t.Covers source
  gaps : ∀ place < source.length, (∃ t ∈ tokens, t.span.start ≤ place ∧ place < t.span.stop) ∨
    ∃ start stop, start ≤ place ∧ place < stop ∧ stop ≤ source.length ∧
      Apart tokens start stop ∧ Gap mode source tokens start stop
  joined : mode = .markup → (∀ t ∈ tokens, ∀ k, t.kind = .keyword k → k.isControl = false) →
    (∀ start stop, IsComment (source.extract start stop) → ¬ Apart tokens start stop) →
    tokens.flatMap (·.value.toList) = source

theorem extract_middle (front middle behind : List Char) :
    (front ++ (middle ++ behind)).extract front.length (front.length + middle.length) = middle := by
  simp [List.extract]

section

variable {mode : ScanMode} {offset : Nat} {behind : List Char} {pieces front rest : List Piece}
  {p : Piece} {t : Token}

theorem Piece.Fits.within (h : p.Fits mode offset behind) (hToken : p.token? = some t) :
    offset ≤ t.span.start ∧ t.span.start ≤ t.span.stop ∧
      t.span.stop ≤ offset + p.text.length := by
  cases p with
  | copied u =>
      cases hToken
      obtain ⟨-, -, hStart, hStop⟩ := h
      simp only [Piece.text]
      omega
  | block u =>
      cases hToken
      obtain ⟨-, hStart, hStop⟩ := h
      simp only [Piece.text, List.cons_append, List.length_cons, List.length_append,
        List.length_nil]
      omega
  | control u blanks =>
      cases hToken
      obtain ⟨-, -, hStart, hStop⟩ := h
      simp only [Piece.text, List.length_append]
      omega
  | head text u blanks =>
      cases hToken
      obtain ⟨-, -, -, -, hStart, hStop⟩ := h
      simp only [Piece.text, List.length_append]
      omega
  | comment text => cases hToken
  | line text => cases hToken

theorem Laid.within (h : Laid mode offset behind pieces) (hToken : t ∈ piecesTokens pieces) :
    offset ≤ t.span.start ∧ t.span.start ≤ t.span.stop ∧
      t.span.stop ≤ offset + (piecesText pieces).length := by
  induction pieces generalizing mode offset with
  | nil => simp [piecesTokens] at hToken
  | cons p rest ih =>
      obtain ⟨hFits, hRest⟩ := h
      simp only [piecesTokens, List.mem_filterMap, List.mem_cons] at hToken
      simp only [piecesText_cons, List.length_append]
      obtain ⟨q, rfl | hMem, hToken⟩ := hToken
      · have := hFits.within hToken
        omega
      · have := ih hRest (List.mem_filterMap.mpr ⟨q, hMem, hToken⟩)
        omega

theorem Piece.Fits.serve_lt (h : p.Fits mode offset behind) (hToken : p.token? = some t)
    (hServe : t.kind = .keyword .serve) : t.span.start < t.span.stop := by
  cases p with
  | copied u =>
      cases hToken
      obtain ⟨-, hSome, hStart, hStop⟩ := h
      have := List.length_pos_iff.mpr hSome
      omega
  | block u =>
      cases hToken
      cases h.1.symm.trans hServe
  | control u blanks =>
      cases hToken
      obtain ⟨⟨k, hKind, hControl⟩, -⟩ := h
      cases hKind.symm.trans hServe
      cases hControl
  | head text u blanks =>
      cases hToken
      obtain ⟨hKind | hKind, -⟩ := h <;> cases hKind.symm.trans hServe
  | comment text => cases hToken
  | line text => cases hToken

theorem Laid.serve_lt (h : Laid mode offset behind pieces) (hToken : t ∈ piecesTokens pieces)
    (hServe : t.kind = .keyword .serve) : t.span.start < t.span.stop := by
  obtain ⟨p, hMem, hPiece⟩ := List.mem_filterMap.mp hToken
  obtain ⟨front, rest, rfl⟩ := List.append_of_mem hMem
  exact (laid_append.mp h).2.1.serve_lt hPiece hServe

theorem Laid.ordered (h : Laid mode offset behind pieces) :
    (piecesTokens pieces).Pairwise fun first second => first.span.stop ≤ second.span.start := by
  induction pieces generalizing mode offset with
  | nil => exact .nil
  | cons p rest ih =>
      obtain ⟨hFits, hRest⟩ := h
      cases hToken : p.token? with
      | none => simpa [piecesTokens, hToken] using ih hRest
      | some t =>
          have hTokens : piecesTokens (p :: rest) = t :: piecesTokens rest := by
            simp [piecesTokens, hToken]
          rw [hTokens]
          refine .cons (fun u hu => ?_) (ih hRest)
          have hFirst := hFits.within hToken
          have hSecond := hRest.within hu
          omega

theorem Piece.Fits.modeAfter_eq_markup (h : p.Fits mode offset behind) :
    p.modeAfter mode = .markup ↔
      mode = .markup ∨ ∃ t, p.token? = some t ∧ t.kind = .keyword .serve := by
  cases p with
  | copied u => by_cases hServe : u.kind = .keyword .serve <;> simp [modeAfter, token?, hServe]
  | block u => simp [modeAfter, token?, h.1]
  | control u blanks =>
      obtain ⟨⟨k, hKind, hControl⟩, -⟩ := h
      have hServe : k ≠ .serve := by
        rintro rfl
        cases hControl
      simp [modeAfter, token?, hKind, hServe]
  | head text u blanks =>
      obtain ⟨hKind | hKind, -⟩ := h <;> simp [modeAfter, token?, hKind]
  | comment text => simp [modeAfter, token?]
  | line text => simp [modeAfter, token?]

/-- The scanner is in markup behind the pieces exactly if one of them is `serve`. -/
theorem Laid.modeBehind_eq_markup (h : Laid mode offset behind pieces) :
    modeBehind mode pieces = .markup ↔
      mode = .markup ∨ ∃ t ∈ piecesTokens pieces, t.kind = .keyword .serve := by
  induction pieces generalizing mode offset with
  | nil => simp [modeBehind, piecesTokens]
  | cons p rest ih =>
      obtain ⟨hFits, hRest⟩ := h
      have hBehind : modeBehind mode (p :: rest) = modeBehind (p.modeAfter mode) rest := rfl
      rw [hBehind, ih hRest, hFits.modeAfter_eq_markup, or_assoc]
      cases hToken : p.token? <;> simp [piecesTokens, hToken]

/-- A character of some pieces stands in one of them. -/
theorem exists_piece {place : Nat} (h : place < (piecesText pieces).length) :
    ∃ front p rest, pieces = front ++ p :: rest ∧ (piecesText front).length ≤ place ∧
      place < (piecesText front).length + p.text.length := by
  induction pieces generalizing place with
  | nil => simp at h
  | cons p pieces ih =>
      by_cases hHere : place < p.text.length
      · exact ⟨[], p, pieces, rfl, Nat.zero_le _, by simpa using hHere⟩
      · have hLater : place - p.text.length < (piecesText pieces).length := by
          rw [piecesText_cons, List.length_append] at h
          omega
        obtain ⟨front, q, rest, rfl, hStart, hStop⟩ := ih hLater
        refine ⟨p :: front, q, rest, rfl, ?_, ?_⟩ <;>
          rw [piecesText_cons, List.length_append] <;> omega

/-- A piece of a text among the others: what stands before and behind it, and that the
other tokens keep away from it. -/
structure Placed (mode : ScanMode) (source : List Char) (tokens : List Token)
    (before : List Char) (p : Piece) (behind : List Char) : Prop where
  source_eq : source = before ++ (p.text ++ behind)
  fits : ∃ here, (here = .markup ↔ InMarkup mode tokens before.length) ∧
    p.Fits here before.length behind
  around : ∀ t ∈ tokens, p.token? = some t ∨
    t.span.stop ≤ before.length ∨ before.length + p.text.length ≤ t.span.start
  mem : ∀ t, p.token? = some t → t ∈ tokens

theorem Laid.placed (h : Laid mode 0 [] (front ++ p :: rest)) :
    Placed mode (piecesText (front ++ p :: rest)) (piecesTokens (front ++ p :: rest))
      (piecesText front) p (piecesText rest) := by
  obtain ⟨hFront, hFits, hRest⟩ := laid_append.mp h
  simp only [Nat.zero_add, List.append_nil] at hFits hRest
  have hTokens (t : Token) : t ∈ piecesTokens (front ++ p :: rest) ↔
      t ∈ piecesTokens front ∨ p.token? = some t ∨ t ∈ piecesTokens rest := by
    cases hToken : p.token? <;> simp [piecesTokens, hToken, eq_comm]
  have hBefore (t : Token) (ht : t ∈ piecesTokens front) :
      t.span.stop ≤ (piecesText front).length := by
    have := hFront.within ht
    omega
  have hAfter (t : Token) (ht : t ∈ piecesTokens rest) :
      (piecesText front).length + p.text.length ≤ t.span.start :=
    (hRest.within ht).1
  constructor
  · simp
  · refine ⟨modeBehind mode front, ?_, hFits⟩
    rw [hFront.modeBehind_eq_markup]
    refine or_congr_right ⟨?_, ?_⟩
    · rintro ⟨t, ht, hServe⟩
      exact ⟨t, (hTokens t).mpr (.inl ht), hServe, hBefore t ht⟩
    · -- a `serve` that is not before the piece ends behind its start
      rintro ⟨t, ht, hServe, hStop⟩
      have hSpan := h.serve_lt ht hServe
      rcases (hTokens t).mp ht with ht | hToken | ht
      · exact ⟨t, ht, hServe⟩
      · have := hFits.within hToken
        omega
      · have := hAfter t ht
        omega
  · intro t ht
    rcases (hTokens t).mp ht with ht | hToken | ht
    · exact .inr (.inl (hBefore t ht))
    · exact .inl hToken
    · exact .inr (.inr (hAfter t ht))
  · intro t ht
    exact (hTokens t).mpr (.inr (.inl ht))

end

section

variable {mode : ScanMode} {source before behind : List Char} {tokens : List Token} {p : Piece}

theorem Token.covers_of_copied {t : Token} (hKind : t.kind.IsCopied)
    (hText : source.extract t.span.start t.span.stop = t.value.toList) : t.Covers source := by
  unfold Token.Covers
  split <;> simp_all [TokenKind.IsCopied]

theorem Token.covers_of_control {t : Token} {k : Keyword} (hKind : t.kind = .keyword k)
    (hText : source.extract t.span.start t.span.stop = t.value.toList) : t.Covers source := by
  simpa [Token.Covers, hKind] using hText

theorem Placed.covers {t : Token} (h : Placed mode source tokens before p behind)
    (hToken : p.token? = some t) : t.Covers source := by
  obtain ⟨here, -, hFits⟩ := h.fits
  have hSource := h.source_eq
  cases p with
  | copied u =>
      cases hToken
      obtain ⟨hKind, -, hStart, hStop⟩ := hFits
      refine t.covers_of_copied hKind ?_
      rw [hStart, hStop, hSource, Piece.text, extract_middle]
  | block u =>
      cases hToken
      obtain ⟨hKind, hStart, hStop⟩ := hFits
      have hLength : t.value.toList.length + 2 = (Piece.text (.block t)).length := by
        simp [Piece.text]
      simp only [Token.Covers, hKind]
      rw [hStart, hStop, hLength, hSource, extract_middle]
      rfl
  | control u blanks =>
      cases hToken
      obtain ⟨⟨k, hKind, -⟩, -, hStart, hStop⟩ := hFits
      refine t.covers_of_control hKind ?_
      rw [hStart, hStop, hSource, Piece.text, List.append_assoc, extract_middle]
  | head text u blanks =>
      cases hToken
      obtain ⟨hKind, hText, hValue, -, hStart, hStop⟩ := hFits
      have hHead : source.extract before.length t.span.start = text := by
        rw [hStart, hSource, Piece.text, List.append_assoc, extract_middle]
      have hCovers : t.span.start = t.span.stop ∧ ∃ first ≤ t.span.start,
          Parenthesised (source.extract first t.span.start) ∧
          t.value.toList = Source.dropSpaces none (source.extract first t.span.start) :=
        ⟨hStart.trans hStop.symm, before.length, by omega, hHead.symm ▸ hText, hHead.symm ▸ hValue⟩
      obtain hKind | hKind := hKind <;> simpa only [Token.Covers, hKind] using hCovers
  | comment text => cases hToken
  | line text => cases hToken

/-- Within a piece only its own token could be in the way. -/
theorem Placed.apart {start stop : Nat} (h : Placed mode source tokens before p behind)
    (hStart : before.length ≤ start) (hStop : stop ≤ before.length + p.text.length)
    (hOwn : ∀ t, p.token? = some t → t.span.stop ≤ start ∨ stop ≤ t.span.start) :
    Apart tokens start stop := by
  intro t ht
  rcases h.around t ht with hToken | hBefore | hBehind
  · exact hOwn t hToken
  · exact .inl (Nat.le_trans hBefore hStart)
  · exact .inr (Nat.le_trans hStop hBehind)

/-- The blanks at the end of a piece whose token ends before them. -/
theorem Placed.blanks_gap {t : Token} {front blanks : List Char} {place : Nat}
    (h : Placed mode source tokens before p behind) (hToken : p.token? = some t)
    (hText : p.text = front ++ blanks) (hLast : t.span.stop = before.length + front.length)
    (hKind : t.kind = .condition ∨ t.kind = .each ∨
      ∃ k, t.kind = .keyword k ∧ k.isControl = true)
    (hBlanks : blanks.all Source.isSpace = true) (hStart : t.span.stop ≤ place)
    (hStop : place < before.length + p.text.length) :
    ∃ start stop, start ≤ place ∧ place < stop ∧ stop ≤ source.length ∧
      Apart tokens start stop ∧ Gap mode source tokens start stop := by
  have hLength : t.span.stop + blanks.length = before.length + p.text.length := by
    rw [hLast, hText, List.length_append, Nat.add_assoc]
  have hExtract : source.extract t.span.stop (t.span.stop + blanks.length) = blanks := by
    rw [h.source_eq, hText, hLast, List.append_assoc, ← List.append_assoc, ← List.length_append,
      extract_middle]
  have hSource : source.length = before.length + (p.text.length + behind.length) := by
    rw [h.source_eq, List.length_append, List.length_append]
  refine ⟨t.span.stop, t.span.stop + blanks.length, hStart, by omega, by omega, ?_, ?_⟩
  · refine h.apart (by omega) (Nat.le_of_eq hLength) fun u hOwn => ?_
    cases hToken.symm.trans hOwn
    exact .inl (Nat.le_refl _)
  · exact .blanks (h.mem t hToken) hKind (hExtract.symm ▸ hBlanks)

/-- A character of a piece is covered by its token, or stands in a gap. -/
theorem Placed.gap {place : Nat} (h : Placed mode source tokens before p behind)
    (hStart : before.length ≤ place) (hStop : place < before.length + p.text.length) :
    (∃ t ∈ tokens, t.span.start ≤ place ∧ place < t.span.stop) ∨
    ∃ start stop, start ≤ place ∧ place < stop ∧ stop ≤ source.length ∧
      Apart tokens start stop ∧ Gap mode source tokens start stop := by
  obtain ⟨here, hHere, hFits⟩ := h.fits
  have hSource := h.source_eq
  have hLength : before.length + p.text.length ≤ source.length := by
    rw [hSource, List.length_append, List.length_append]
    omega
  cases p with
  | copied u =>
      obtain ⟨-, -, hFirst, hLast⟩ := hFits
      have hText : (Piece.text (.copied u)).length = u.value.toList.length := rfl
      exact .inl ⟨u, h.mem u rfl, by omega, by omega⟩
  | block u =>
      obtain ⟨-, hFirst, hLast⟩ := hFits
      have hText : (Piece.text (.block u)).length = u.value.toList.length + 2 := by
        simp [Piece.text]
      exact .inl ⟨u, h.mem u rfl, by omega, by omega⟩
  | control u blanks =>
      obtain ⟨hKind, hBlanks, hFirst, hLast⟩ := hFits
      by_cases hWord : place < u.span.stop
      · exact .inl ⟨u, h.mem u rfl, by omega, hWord⟩
      · exact .inr (h.blanks_gap rfl rfl hLast (.inr (.inr hKind)) hBlanks
          (Nat.le_of_not_lt hWord) hStop)
  | head text u blanks =>
      obtain ⟨hKind, hText, hValue, hBlanks, hFirst, hLast⟩ := hFits
      by_cases hHead : place < u.span.start
      · have hExtract : source.extract before.length u.span.start = text := by
          rw [hFirst, hSource, Piece.text, List.append_assoc, extract_middle]
        have hWithin : u.span.start ≤ before.length + (Piece.text (.head text u blanks)).length := by
          rw [Piece.text, List.length_append]
          omega
        refine .inr ⟨before.length, u.span.start, hStart, hHead, by omega, ?_, ?_⟩
        · refine h.apart (Nat.le_refl _) hWithin fun t hOwn => ?_
          cases hOwn
          exact .inr (Nat.le_refl _)
        · exact .head (h.mem u rfl) hKind (hExtract.symm ▸ hText) (hExtract.symm ▸ hValue)
      · exact .inr (h.blanks_gap rfl rfl hLast (or_assoc.mp (.inl hKind)) hBlanks
          (by omega) hStop)
  | comment text =>
      refine .inr ⟨_, _, hStart, hStop, hLength,
        h.apart (Nat.le_refl _) (Nat.le_refl _) (fun _ hOwn => by cases hOwn), ?_⟩
      · obtain ⟨rfl, hText⟩ := hFits
        refine .comment (hHere.mp rfl) ?_
        rw [hSource, extract_middle]
        exact hText
  | line text =>
      refine .inr ⟨_, _, hStart, hStop, hLength,
        h.apart (Nat.le_refl _) (Nat.le_refl _) (fun _ hOwn => by cases hOwn), ?_⟩
      · obtain ⟨rfl, hText⟩ := hFits
        refine .line (fun hMarkup => ScanMode.noConfusion (hHere.mpr hMarkup)) ?_
        rw [hSource, extract_middle, ← List.append_assoc, ← List.length_append, List.drop_left]
        exact hText

theorem flatMap_value_eq_piecesText {pieces : List Piece}
    (h : ∀ p ∈ pieces, ∃ t, p = .copied t) :
    (piecesTokens pieces).flatMap (·.value.toList) = piecesText pieces := by
  induction pieces with
  | nil => rfl
  | cons p pieces ih =>
      obtain ⟨t, rfl⟩ := h p List.mem_cons_self
      have hRest := ih fun q hq => h q (List.mem_cons_of_mem _ hq)
      simpa [piecesTokens, Piece.token?, Piece.text] using hRest

end

/-- The tokens of a text tile it, in either mode. -/
theorem Token.scan_tiles {mode : ScanMode} {source file : String} {tokens : List Token}
    (h : Token.scan mode source file = .ok tokens) : Tiles mode source.toList tokens := by
  obtain ⟨pieces, hLaid, rfl, hText, hPlain⟩ := Source.takes_all h
  replace hLaid : Laid mode 0 [] pieces := hLaid
  replace hText : source.toList = piecesText pieces := hText.symm
  rw [hText]
  have hPlaced (front : List Piece) (p : Piece) (rest : List Piece)
      (hPieces : pieces = front ++ p :: rest) :
      Placed mode (piecesText pieces) (piecesTokens pieces) (piecesText front) p
        (piecesText rest) := by
    subst hPieces
    exact hLaid.placed
  constructor
  · intro t ht
    have := hLaid.within ht
    omega
  · exact hLaid.ordered
  · intro t ht
    obtain ⟨p, hMem, hToken⟩ := List.mem_filterMap.mp ht
    obtain ⟨front, rest, hPieces⟩ := List.append_of_mem hMem
    exact (hPlaced front p rest hPieces).covers hToken
  · intro place hPlace
    obtain ⟨front, p, rest, hPieces, hStart, hStop⟩ := exists_piece hPlace
    exact (hPlaced front p rest hPieces).gap hStart hStop
  · intro hMarkup hNone hComments
    subst hMarkup
    have hKeywords : NoKeyword (piecesTokens pieces) := by
      intro t ht k hKind
      have hControl := Source.scanFrom_markup h t ht k hKind
      rw [hNone t ht k hKind] at hControl
      cases hControl
    refine flatMap_value_eq_piecesText fun p hMem => ?_
    obtain ⟨front, rest, hPieces⟩ := List.append_of_mem hMem
    have hHere := hPlaced front p rest hPieces
    cases p with
    | copied t => exact ⟨t, rfl⟩
    | comment text =>
        obtain ⟨here, -, -, hText⟩ := hHere.fits
        have hApart := hHere.apart (Nat.le_refl _) (Nat.le_refl _) fun _ hOwn => by cases hOwn
        refine absurd hApart (hComments _ _ ?_)
        rw [hHere.source_eq, extract_middle]
        exact hText
    | block t | control t blanks | head text t blanks | line text =>
        exact (hPlain rfl hKeywords _ hMem).elim

/-- A template with a head and blanks that no span covers, and both kinds of comments. -/
theorem Token.scan_tiles_of_template :
    ∃ tokens,
      Token.scan .setup "as # x\nserve (@if ( a ) \x7bb\x7d<!-- c -->)" "page" = .ok tokens ∧
      tokens.length = 9 ∧
      Tiles .setup "as # x\nserve (@if ( a ) \x7bb\x7d<!-- c -->)".toList tokens := by
  have hLength : ((Token.scan .setup "as # x\nserve (@if ( a ) \x7bb\x7d<!-- c -->)" "page").map
      List.length).toOption = some 9 := by decide +kernel
  cases hScan : Token.scan .setup "as # x\nserve (@if ( a ) \x7bb\x7d<!-- c -->)" "page" with
  | error e =>
      rw [hScan] at hLength
      cases hLength
  | ok tokens =>
      rw [hScan] at hLength
      exact ⟨tokens, rfl, Option.some.inj hLength, scan_tiles hScan⟩

end HtmlTemplate
