import HtmlTemplate.Proofs.Render.Reading
import HtmlTemplate.Proofs.Script.Bodies
import HtmlTemplate.Proofs.Script.Passages
import HtmlTemplate.Proofs.Script.Statements
import HtmlTemplate.Proofs.Session.Preamble
import HtmlTemplate.Proofs.Source.Conditional

/-! Declared functions. The braces of a declaration are found by the scanner of templates,
which knows quotes but neither the comments nor the references of script code; the text
between them is read by the parser of statements. -/
namespace HtmlTemplate

open Script (Statement IsPassage passages scriptBraces)

/-- A name that a function can be declared under. -/
structure IsFunctionName (name : String) : Prop where
  word : name.toList ≠ [] ∧ name.toList.all Source.isWordChar = true
  free : Keyword.ofWord? name = none
  unreserved : Setup.reservedNames.contains name = false

instance (name : String) : Decidable (IsFunctionName name) :=
  decidable_of_iff
    ((name.toList ≠ [] ∧ name.toList.all Source.isWordChar = true) ∧
      Keyword.ofWord? name = none ∧ Setup.reservedNames.contains name = false)
    ⟨fun h => ⟨h.1, h.2.1, h.2.2⟩, fun h => ⟨h.word, h.free, h.unreserved⟩⟩

/-- A body between its braces. -/
def bracedBody (body : String) : String :=
  "\x7b" ++ body ++ "\x7d"

/-- The declaration of a function without parameters. -/
def declaration (name body : String) : String :=
  "fn " ++ name ++ "() " ++ bracedBody body

namespace Source

variable {file : String} {c after : Cursor} {lexemes : List (TokenKind × String)}
  {text rest : List Char}

/-- What scanning setup statements from some place comes to. -/
def SetupScan (file : String) (c : Cursor) (lexemes : List (TokenKind × String)) : Prop :=
  ∃ tokens, scanFrom file .setup c = .ok tokens ∧ tokens.map Token.lexeme = lexemes

theorem setupScan_end (h : c.rest = []) : SetupScan file c [] := by
  refine ⟨[], ?_, rfl⟩
  rw [scanFrom]
  split
  · rfl
  · next hHead =>
    rw [h] at hHead
    cases hHead

theorem SetupScan.step {ch : Char} {token : Token} (hHead : c.rest.head? = some ch)
    (hStep : scanStep file .setup ch c = .ok ⟨[token], .setup, after⟩)
    (h : SetupScan file after lexemes) : SetupScan file c (token.lexeme :: lexemes) := by
  obtain ⟨tokens, hTokens, rfl⟩ := h
  refine ⟨token :: tokens, ?_, rfl⟩
  rw [scanFrom_of_step hHead hStep, hTokens]
  rfl

/-- A scan that goes through began with a step. -/
theorem scanFrom_eq_ok {mode : ScanMode} {ch : Char} {tokens : List Token}
    (hHead : c.rest.head? = some ch) (h : scanFrom file mode c = .ok tokens) :
    ∃ s more, scanStep file mode ch c = .ok s ∧ tokens = s.tokens ++ more := by
  rw [scanFrom] at h
  split at h
  · next hEnd => cases hEnd.symm.trans hHead
  · next other hOther =>
    cases hOther.symm.trans hHead
    split at h
    · cases h
    · next s hStep =>
      obtain ⟨more, -, rfl⟩ := map_eq_ok.mp h
      exact ⟨s, more, hStep, rfl⟩

theorem SetupScan.single {ch : Char} {kind : TokenKind} (hRest : c.rest = ch :: rest)
    (hStep : scanStep file .setup ch c = .ok (scanSingle file kind ch .setup c))
    (h : ∀ after : Cursor, after.rest = rest → SetupScan file after lexemes) :
    SetupScan file c ((kind, String.ofList [ch]) :: lexemes) := by
  refine SetupScan.step (by rw [hRest]; rfl) hStep (h _ ?_)
  rw [Cursor.rest_skip, hRest]
  rfl

/-- A word that does not begin the markup. -/
theorem SetupScan.word {kind : TokenKind} (hText : text ≠ []) (hWord : text.all isWordChar = true)
    (hBehind : ∀ ch, rest.head? = some ch → isWordChar ch = false)
    (hKind : Keyword.ofWord? (String.ofList text) = none ∧ kind = .text ∨
      ∃ k, k ≠ .serve ∧ Keyword.ofWord? (String.ofList text) = some k ∧ kind = .keyword k)
    (hRest : c.rest = text ++ rest)
    (h : ∀ after : Cursor, after.rest = rest → SetupScan file after lexemes) :
    SetupScan file c ((kind, String.ofList text) :: lexemes) := by
  obtain ⟨first, others, rfl⟩ := List.exists_cons_of_ne_nil hText
  have hFirst : isWordChar first = true := by
    simp only [List.all_cons, Bool.and_eq_true] at hWord
    exact hWord.1
  have hTaken : c.rest.takeWhile isWordChar = first :: others := by
    rw [hRest, List.takeWhile_append_of_pos (List.all_eq_true.mp hWord)]
    cases rest with
    | nil => simp
    | cons ch _ => simp [hBehind ch rfl]
  have hScanned : scanWord file .setup c =
      ⟨[(c.token file kind (first :: others) (first :: others).length).1], .setup,
        c.skip (first :: others).length⟩ := by
    unfold scanWord
    dsimp only
    rw [hTaken, if_pos rfl]
    rcases hKind with ⟨hNone, rfl⟩ | ⟨k, hServe, hSome, rfl⟩
    · rw [hNone]
      rfl
    · rw [hSome, if_neg (by simpa using hServe)]
      rfl
  have hStep : scanStep file .setup first c = .ok (scanWord file .setup c) := by
    have hSpace : isSpace first ≠ true := fun hSpace => by
      rw [isWordChar_of_isSpace hSpace] at hFirst
      cases hFirst
    have hMark : ¬(first = '#' && ScanMode.setup = ScanMode.setup) = true := by
      simp only [decide_true, Bool.and_true, decide_eq_true_eq]
      rintro rfl
      cases hFirst
    unfold scanStep
    rw [if_neg hSpace, if_neg hMark, if_neg (by simp), if_pos hFirst]
  exact SetupScan.step (by rw [hRest]; rfl) (hStep.trans (congrArg _ hScanned))
    (h _ (Cursor.rest_skip_length hRest))

/-- Braces that enclose a text are one token. -/
theorem SetupScan.block (hText : scriptBraces.Encloses text)
    (hRest : c.rest = '\x7b' :: (text ++ '\x7d' :: rest))
    (h : ∀ after : Cursor, after.rest = rest → SetupScan file after lexemes) :
    SetupScan file c ((.block, String.ofList text) :: lexemes) := by
  have hTaken : enclosed? (braces .setup) 0 none (c.rest.drop 1) = some (text ++ ['\x7d']) := by
    have hFound := enclosed?_append hText rest
    rw [List.append_assoc] at hFound
    rw [hRest]
    exact hFound
  have hSplit : c.rest = ('\x7b' :: (text ++ ['\x7d'])) ++ rest := by simp [hRest]
  have hStep : scanStep file .setup '\x7b' c =
      .ok ⟨[(c.token file .block text ((text ++ ['\x7d']).length + 1)).1], .setup,
        c.skip ((text ++ ['\x7d']).length + 1)⟩ := by
    unfold scanStep scanBlock
    rw [hTaken]
    dsimp only
    rw [List.dropLast_concat]
    rfl
  have hBehind : (c.skip ((text ++ ['\x7d']).length + 1)).rest = rest := by
    rw [Cursor.rest_skip, hSplit]
    exact List.drop_left' rfl
  exact SetupScan.step (by rw [hRest]; rfl) hStep (h _ hBehind)

end Source

section

variable {file name body : String}

/-- Braces scan as one block exactly if they enclose what is between them. -/
theorem scan_bracedBody_iff (file body : String) :
    (∃ token, Token.scan .setup (bracedBody body) file = .ok [token] ∧
      token.lexeme = (.block, body)) ↔ scriptBraces.Encloses body.toList := by
  have hRest : (Cursor.start (bracedBody body).toList).rest =
      '\x7b' :: (body.toList ++ '\x7d' :: []) := by
    simp [Cursor.start, bracedBody]
  constructor
  · rintro ⟨token, hScan, hLexeme⟩
    obtain ⟨s, more, hStep, hTokens⟩ := Source.scanFrom_eq_ok (by rw [hRest]; rfl) hScan
    unfold Source.scanStep Source.scanBlock at hStep
    rw [hRest] at hStep
    cases hTaken : Source.enclosed? (Source.braces .setup) 0 none (body.toList ++ ['\x7d']) with
    | none =>
        rw [List.drop_one, List.tail_cons, hTaken] at hStep
        cases hStep
    | some taken =>
        rw [List.drop_one, List.tail_cons, hTaken] at hStep
        cases hStep
        obtain ⟨rfl, -⟩ := List.cons_eq_cons.mp hTokens
        obtain ⟨front, rfl⟩ := Source.enclosed?_last hTaken
        have hFront : String.ofList front = body := by
          simpa [Token.lexeme, Cursor.token] using congrArg Prod.snd hLexeme
        rwa [← hFront, String.toList_ofList] at hTaken ⊢
  · intro hBody
    have hScan : Source.SetupScan file (Cursor.start (bracedBody body).toList)
        [(.block, String.ofList body.toList)] :=
      .block hBody hRest fun _ => Source.setupScan_end
    obtain ⟨tokens, hTokens, hLexemes⟩ := hScan
    obtain ⟨token, rfl, hLexeme⟩ := List.map_eq_singleton_iff.mp hLexemes
    exact ⟨token, hTokens, by simpa using hLexeme⟩

/-- The tokens of a declaration. -/
theorem scan_declaration (hName : IsFunctionName name) (hBody : scriptBraces.Encloses body.toList)
    (file : String) :
    ∃ tokens, Token.scanTemplate (declaration name body) file = .ok tokens ∧
      tokens.map Token.lexeme = [(.keyword .function, "fn"), (.blank, " "), (.text, name),
        (.openParen, "("), (.closeParen, ")"), (.blank, " "), (.block, body)] := by
  have hRest : (Cursor.start (declaration name body).toList).rest =
      "fn".toList ++ ' ' :: (name.toList ++ '(' :: ')' :: ' ' :: '\x7b' ::
        (body.toList ++ '\x7d' :: [])) := by
    simp [Cursor.start, declaration, bracedBody]
  obtain ⟨⟨hText, hWord⟩, hFree, -⟩ := hName
  have hScan : Source.SetupScan file (Cursor.start (declaration name body).toList)
      [(.keyword .function, String.ofList "fn".toList), (.blank, String.ofList [' ']),
        (.text, String.ofList name.toList), (.openParen, String.ofList ['(']),
        (.closeParen, String.ofList [')']), (.blank, String.ofList [' ']),
        (.block, String.ofList body.toList)] := by
    refine .word (by decide) (by decide) (by rintro _ ⟨⟩; rfl)
      (.inr ⟨.function, by decide, rfl, rfl⟩) hRest fun c₁ h₁ => ?_
    refine .single h₁ rfl fun c₂ h₂ => ?_
    refine .word hText hWord (by rintro _ ⟨⟩; rfl) (.inl ⟨by simpa using hFree, rfl⟩) h₂
      fun c₃ h₃ => ?_
    refine .single h₃ rfl fun c₄ h₄ => ?_
    refine .single h₄ rfl fun c₅ h₅ => ?_
    refine .single h₅ rfl fun c₆ h₆ => ?_
    exact .block hBody h₆ fun c₇ h₇ => Source.setupScan_end h₇
  obtain ⟨tokens, hTokens, hLexemes⟩ := hScan
  refine ⟨tokens, hTokens, hLexemes.trans ?_⟩
  simp only [String.ofList_toList]

end

/-! Reading a declaration. -/

/-- A blank in front of what is expected does not matter. -/
theorem Reading.Finds.expect_blank {endAt : Location} {kind : TokenKind}
    {expectation : Expectation} {blank token : Token} {rest : List Token}
    (hBlank : blank.kind = .blank) (hKind : token.kind = kind) (hOther : kind ≠ .blank) :
    (Reading.expect endAt kind expectation).Finds (blank :: token :: rest) token rest :=
  .expect_of_dropBlanks (by simp [dropBlanks, hBlank, hKind, hOther]) hKind

theorem readParams_none {endAt : Location} {names : List String} {closing : Token}
    {rest : List Token} (h : closing.kind = .closeParen) :
    (Setup.readParams endAt names).Finds (closing :: rest) names.reverse rest := by
  unfold Reading.Finds
  rw [Setup.readParams]
  simp [h]

section

variable {name body : String} {program : List Statement}

theorem compile_eq_ok (name : String) (params : List String)
    (h : Statement.parseAll body = .ok program) :
    Function.compile name params body = .ok (.script name params program) := by
  rw [Function.compile, h]

/-- A declaration is read as the function of its body. -/
theorem preamble_declaration {tokens : List Token} (hName : IsFunctionName name)
    (hBody : Statement.parseAll body = .ok program)
    (hTokens : tokens.map Token.lexeme = [(.keyword .function, "fn"), (.blank, " "), (.text, name),
      (.openParen, "("), (.closeParen, ")"), (.blank, " "), (.block, body)]) (endAt : Location) :
    preamble endAt tokens = ([.declare (.script name [] program)], .ok []) := by
  simp only [List.map_eq_cons_iff, List.map_eq_nil_iff, Token.lexeme, Prod.mk.injEq] at hTokens
  obtain ⟨word, _, rfl, ⟨hWord, -⟩, blank, _, rfl, ⟨hBlank, -⟩, title, _, rfl, ⟨hTitle, hValue⟩,
    opening, _, rfl, ⟨hOpening, -⟩, closing, _, rfl, ⟨hClosing, -⟩, gap, _, rfl, ⟨hGap, -⟩,
    block, _, rfl, ⟨hBlock, hText⟩, rfl⟩ := hTokens
  have hRead : (Setup.readFunction endAt).Finds [blank, title, opening, closing, gap, block]
      (.declare (.script name [] program)) [] := by
    refine .bind (.expect_blank hBlank hTitle (by decide)) ?_
    rw [hValue, if_neg (by simpa using hName.unreserved)]
    refine .bind (.expect hOpening (by decide)) ?_
    refine .bind (readParams_none hClosing) ?_
    refine .bind (.expect_blank hGap hBlock (by decide)) ?_
    rw [hText, compile_eq_ok name _ hBody]
    exact .ofExcept rfl
  rw [preamble_setup hWord rfl, hRead.1]
  dsimp only
  rw [hRead.2, preamble]

end

/-- A function body can be declared: between its braces it is one block, and a function with
that body is declared as the program of the body. -/
structure Declares (body : String) (program : List Statement) : Prop where
  scanned : ∀ file, ∃ token, Token.scan .setup (bracedBody body) file = .ok [token] ∧
    token.lexeme = (.block, body)
  declared : ∀ name file endAt, IsFunctionName name →
    ∃ tokens, Token.scanTemplate (declaration name body) file = .ok tokens ∧
      preamble endAt tokens = ([.declare (.script name [] program)], .ok [])

theorem declares_of_encloses {body : String} {program : List Statement}
    (h : Statement.parseAll body = .ok program) (hBody : scriptBraces.Encloses body.toList) :
    Declares body program where
  scanned file := (scan_bracedBody_iff file body).mpr hBody
  declared name file endAt hName := by
    obtain ⟨tokens, hTokens, hLexemes⟩ := scan_declaration hName hBody file
    exact ⟨tokens, hTokens, preamble_declaration hName h hLexemes endAt⟩

/-- Given the comments and references that may stand in it, every function body can be
declared exactly if braces enclose each of these. Strings, blocks and objects are never in
the way. -/
theorem declares_iff_passages_enclosed {stock : List Char → Prop}
    (hStock : ∀ text, stock text → IsPassage text) :
    (∀ body program, Statement.parseAll body = .ok program →
      (∀ text ∈ passages body.toList, stock text) → Declares body program) ↔
      ∀ text, stock text → scriptBraces.Encloses text := by
  constructor
  · intro h text hText
    obtain ⟨program, hProgram⟩ := (hStock text hText).parseAll
    have hOnly : ∀ t ∈ passages (String.ofList text).toList, stock t := by
      rw [String.toList_ofList, (hStock text hText).passages]
      exact List.forall_mem_singleton.mpr hText
    have hScanned := (h (String.ofList text) program hProgram hOnly).scanned ""
    rw [scan_bracedBody_iff, String.toList_ofList] at hScanned
    exact hScanned
  · intro h body program hProgram hPassages
    exact declares_of_encloses hProgram
      (Script.encloses_of_parseAll hProgram fun t ht => h t (hPassages t ht))

/-- Bodies with a note in them and no other comment can be declared; the note may hold braces
and quotes. -/
theorem note_declared :
    IsPassage "// \x7b \"a\" \x7d".toList ∧
      ∀ body program, Statement.parseAll body = .ok program →
        (∀ text ∈ passages body.toList, text = "// \x7b \"a\" \x7d".toList) →
          Declares body program := by
  have hStock : IsPassage "// \x7b \"a\" \x7d".toList := .inl (by decide +kernel)
  refine ⟨hStock, (declares_iff_passages_enclosed ?_).mpr ?_⟩
  · rintro _ rfl
    exact hStock
  · rintro _ rfl
    decide +kernel

/-- A body whose comment has an apostrophe in it. -/
def apostropheBody : String :=
  "\n  // it's one\n  return true;\n"

/-- It is a program, but cannot be declared. -/
theorem apostropheBody_not_declared :
    ∃ program, Statement.parseAll apostropheBody = .ok program ∧
      ¬Declares apostropheBody program := by
  have hWellFormed : Script.WellFormedStatements [.giveBack (some (.boolean ⟨0, 0⟩ true))] := by
    simp [Script.WellFormedStatements, Statement.WellFormed, Script.Expr.WellFormed]
  have hLexemes : (Script.pieces apostropheBody.toList).filterMap Script.Piece.lexeme? =
      Script.printStatements [.giveBack (some (.boolean ⟨0, 0⟩ true))] := by decide +kernel
  obtain ⟨ts, x, hSpells, hTokens⟩ :=
    Script.parserTokens_of_pieces (by decide +kernel) hLexemes
  obtain ⟨program, -, hRead⟩ := Script.readsBack_program hWellFormed ts hSpells
  refine ⟨program, ?_, fun h => ?_⟩
  · have hProgram := hRead [⟨.finish, x⟩] (by simp [Script.NotElse])
    rw [Script.statements_finish] at hProgram
    rw [Statement.parseAll, hTokens]
    exact hProgram.trans (congrArg Except.ok (List.append_nil program))
  · have hScanned := (scan_bracedBody_iff "" _).mp (h.scanned "")
    exact absurd hScanned (by decide +kernel)

end HtmlTemplate
