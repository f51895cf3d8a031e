import HtmlTemplate.Proofs.Source.Steps

/-! The two modes of the scanner. The word `serve` ends the setup statements for good:
behind it no token is a keyword but the three control words of markup. -/
namespace HtmlTemplate

/-- Whether a keyword is one of the control words of markup. -/
def Keyword.isControl : Keyword → Bool
  | .ifBranch | .elseBranch | .eachItem => true
  | _ => false

theorem Keyword.isControl_of_ofWord? {word : String} {k : Keyword}
    (h : Keyword.ofWord? word = some k) : k.isControl = false := by
  unfold Keyword.ofWord? at h
  split at h <;> simp at h <;> subst h <;> rfl

/-- Tokens that may stand in markup: none is a keyword of a setup statement. -/
def MarkupTokens (tokens : List Token) : Prop :=
  ∀ t ∈ tokens, ∀ keyword, t.kind = .keyword keyword → keyword.isControl = true

theorem markupTokens_nil : MarkupTokens [] :=
  List.forall_mem_nil _

theorem MarkupTokens.append {s t : List Token} (hs : MarkupTokens s) (ht : MarkupTokens t) :
    MarkupTokens (s ++ t) := by
  intro u hu
  rcases List.mem_append.mp hu with hLeft | hRight
  · exact hs u hLeft
  · exact ht u hRight

theorem MarkupTokens.cons {t : Token} {rest : List Token}
    (h : ∀ keyword, t.kind = .keyword keyword → keyword.isControl = true)
    (hRest : MarkupTokens rest) : MarkupTokens (t :: rest) := by
  intro u hu
  rcases List.mem_cons.mp hu with rfl | hRest'
  · exact h
  · exact hRest u hRest'

/-- A token that is no keyword at all. -/
theorem markupTokens_single {t : Token} (h : ∀ keyword, t.kind ≠ .keyword keyword) :
    MarkupTokens [t] :=
  .cons (fun keyword hKind => absurd hKind (h keyword)) markupTokens_nil

namespace Source

variable {file : String} {mode : ScanMode} {c : Cursor} {s : Scanned}

/-- A step that stays in its mode and finds nothing that begins a setup statement. -/
def Scanned.Steady (s : Scanned) (mode : ScanMode) : Prop :=
  s.mode = mode ∧ MarkupTokens s.tokens

theorem scanOptionalBlock_steady {tokens : List Token} {after : Cursor}
    (h : scanOptionalBlock file mode c = .ok (tokens, after)) : MarkupTokens tokens := by
  obtain ⟨rfl, -⟩ | ⟨token, rfl, -, hBlock⟩ := scanOptionalBlock_cases h
  · exact markupTokens_nil
  · exact markupTokens_single fun _ hKind =>
      TokenKind.noConfusion ((scanBlock_kind hBlock).symm.trans hKind)

theorem classifyTag_ne (tag : List Char) (keyword : Keyword) :
    classifyTag tag ≠ .keyword keyword := by
  rcases classifyTag_cases tag with h | h | h | h <;> rw [h] <;> exact TokenKind.noConfusion

/-- What a step does that may come upon a setup keyword: it finds nothing else, and it
goes over to markup exactly if that is `serve`. -/
theorem scanWord_cases : (scanWord file mode c).Steady mode ∨
    mode = .setup ∧ ∃ token keyword, (scanWord file mode c).tokens = [token] ∧
      token.kind = .keyword keyword ∧
      (scanWord file mode c).mode = if keyword = .serve then .markup else .setup := by
  unfold scanWord
  dsimp only
  cases mode with
  | markup => exact .inl ⟨rfl, markupTokens_single fun _ => TokenKind.noConfusion⟩
  | setup =>
      simp only [↓reduceIte]
      cases hWord : Keyword.ofWord? (String.ofList (c.rest.takeWhile isWordChar)) with
      | none => exact .inl ⟨rfl, markupTokens_single fun _ => TokenKind.noConfusion⟩
      | some keyword =>
          refine .inr ⟨trivial, _, keyword, rfl, rfl, ?_⟩
          simp only [Option.some.injEq]

/-- A step is steady, or it finds a setup keyword. -/
theorem scanStep_cases {ch : Char} (hHead : c.rest.head? = some ch)
    (h : scanStep file mode ch c = .ok s) :
    s.Steady mode ∨
    mode = .setup ∧ ∃ token keyword, s.tokens = [token] ∧ token.kind = .keyword keyword ∧
      s.mode = if keyword = .serve then .markup else .setup := by
  cases stepped_of_scanStep hHead h with
  | single hKind => exact .inl ⟨rfl, markupTokens_single fun _ => hKind.ne id⟩
  | line | comment => exact .inl ⟨rfl, markupTokens_nil⟩
  | word => exact scanWord_cases
  | string | reference | call | sigil =>
      exact .inl ⟨rfl, markupTokens_single fun _ => TokenKind.noConfusion⟩
  | tag => exact .inl ⟨rfl, markupTokens_single (classifyTag_ne _)⟩
  | raw _ _ _ _ hTexts =>
      refine .inl ⟨rfl, .cons (fun k hk => absurd hk (classifyTag_ne _ k)) ?_⟩
      rw [hTexts]
      split
      · exact markupTokens_nil
      · exact markupTokens_single fun _ => TokenKind.noConfusion
  | headed hWord _ hFound hBlock =>
      have hKind := scanHead_kind hFound
      refine .inl ⟨rfl, .cons ?_ (.cons ?_ (scanOptionalBlock_steady hBlock))⟩
      · rintro k ⟨⟩
        obtain ⟨rfl, -⟩ | ⟨rfl, -⟩ := hWord <;> rfl
      · intro k hk
        obtain ⟨-, rfl⟩ | ⟨-, rfl⟩ := hWord <;> cases hKind.symm.trans hk
  | alternative _ hBlock =>
      refine .inl ⟨rfl, .cons ?_ (scanOptionalBlock_steady hBlock)⟩
      rintro k ⟨⟩
      rfl
  | block _ _ hBlock =>
      exact .inl ⟨rfl, markupTokens_single fun _ hKind =>
        TokenKind.noConfusion ((scanBlock_kind hBlock).symm.trans hKind)⟩

/-- What holds where the text ends and is passed on from what follows a step to what the
step finds and that, holds of all the tokens of a text. -/
theorem scanFrom_induction {motive : ScanMode → Cursor → List Token → Prop}
    (nil : ∀ mode c, c.rest.head? = none → motive mode c [])
    (step : ∀ mode c ch s rest, c.rest.head? = some ch → scanStep file mode ch c = .ok s →
      scanFrom file s.mode s.cursor = .ok rest → motive s.mode s.cursor rest →
      motive mode c (s.tokens ++ rest))
    {tokens : List Token} (h : scanFrom file mode c = .ok tokens) : motive mode c tokens := by
  induction hLength : c.rest.length using Nat.strongRecOn generalizing c mode tokens with
  | ind length ih =>
      subst hLength
      rw [scanFrom.eq_def] at h
      split at h
      · next hEnd =>
        cases h
        exact nil mode c hEnd
      · next ch hHead =>
        split at h
        · cases h
        · next s hStep =>
          obtain ⟨rest, hRest, rfl⟩ := map_eq_ok.mp h
          exact step mode c ch s rest hHead hStep hRest
            (ih _ (scanStep_lt hHead hStep) hRest rfl)

/-- A scan begins with a step. -/
theorem scanFrom_of_step {ch : Char} (hHead : c.rest.head? = some ch)
    (h : scanStep file mode ch c = .ok s) :
    scanFrom file mode c = (scanFrom file s.mode s.cursor).map (s.tokens ++ ·) := by
  rw [scanFrom]
  split
  · next hEnd => cases hEnd.symm.trans hHead
  · next other hOther =>
    cases hOther.symm.trans hHead
    split
    · next hStep => cases hStep.symm.trans h
    · next found hStep =>
      cases hStep.symm.trans h
      rfl

/-- Markup has no setup keywords. -/
theorem scanFrom_markup {tokens : List Token} (h : scanFrom file .markup c = .ok tokens) :
    MarkupTokens tokens := by
  refine scanFrom_induction (motive := fun mode _ tokens => mode = .markup → MarkupTokens tokens)
    (fun _ _ _ _ => markupTokens_nil) ?_ h rfl
  intro mode c ch s rest hHead hStep _ ih hMarkup
  rcases scanStep_cases hHead hStep with ⟨hMode, hTokens⟩ | ⟨hSetup, -⟩
  · exact hTokens.append (ih (hMode.trans hMarkup))
  · cases hSetup.symm.trans hMarkup

end Source

/-- Behind `serve` a template has no setup keywords. -/
def ServesLast (tokens : List Token) : Prop :=
  ∀ token rest, token :: rest <:+ tokens → token.kind = .keyword .serve → MarkupTokens rest

theorem MarkupTokens.servesLast {tokens : List Token} (h : MarkupTokens tokens) :
    ServesLast tokens := by
  intro token rest hSuffix hServe
  have hControl := h token (hSuffix.subset List.mem_cons_self) .serve hServe
  cases hControl

theorem MarkupTokens.servesLast_cons {rest : List Token} (h : MarkupTokens rest) (t : Token) :
    ServesLast (t :: rest) := by
  intro token behind hSuffix hServe
  rcases List.suffix_cons_iff.mp hSuffix with hHere | hBehind
  · cases hHere
    exact h
  · exact h.servesLast token behind hBehind hServe

/-- Tokens none of which is `serve` may be put in front. -/
theorem ServesLast.append {tokens rest : List Token} (h : ∀ t ∈ tokens, t.kind ≠ .keyword .serve)
    (hRest : ServesLast rest) : ServesLast (tokens ++ rest) := by
  rintro token behind ⟨before, hSplit⟩ hServe
  rcases List.append_eq_append_iff.mp hSplit with ⟨tail, rfl, hTail⟩ | ⟨tail, -, rfl⟩
  · cases tail with
    | nil => exact hRest token behind ⟨[], hTail⟩ hServe
    | cons first tail =>
        cases hTail
        exact absurd hServe (h token (List.mem_append_right before List.mem_cons_self))
  · exact hRest token behind (List.suffix_append tail _) hServe

/-- If `serve` is among the tokens, only markup follows it. -/
theorem Source.scanFrom_servesLast {file : String} {mode : ScanMode} {c : Cursor}
    {tokens : List Token} (h : scanFrom file mode c = .ok tokens) : ServesLast tokens := by
  refine scanFrom_induction (motive := fun _ _ tokens => ServesLast tokens)
    (fun _ _ _ => markupTokens_nil.servesLast) ?_ h
  intro mode c ch s rest hHead hStep hRest hLast
  rcases scanStep_cases hHead hStep with ⟨-, hTokens⟩ | ⟨-, token, keyword, hToken, hKind, hMode⟩
  · apply hLast.append
    intro t ht hServe
    cases hTokens t ht .serve hServe
  · by_cases hServe : keyword = .serve
    · -- the rest is markup, and `serve` is the only token before it
      rw [if_pos hServe] at hMode
      rw [hMode] at hRest
      rw [hToken]
      exact (scanFrom_markup hRest).servesLast_cons token
    · apply hLast.append
      intro t ht hFound
      rw [hToken, List.mem_singleton] at ht
      subst ht
      exact hServe (TokenKind.keyword.inj (hKind.symm.trans hFound))

/-- So it is with every template that can be scanned. -/
theorem Token.scanTemplate_servesLast {source file : String} {tokens : List Token}
    (h : Token.scanTemplate source file = .ok tokens) : ServesLast tokens :=
  Source.scanFrom_servesLast h

end HtmlTemplate
