import HtmlTemplate.Proofs.Render.ServedBody
import HtmlTemplate.Proofs.Session.Preamble
import HtmlTemplate.Proofs.Source.Declaration

/-! Pages that import a component and serve a body. -/
namespace HtmlTemplate

/-- A name that a component can be imported under. -/
structure IsComponentName (name : List Char) : Prop where
  word : name ≠ [] ∧ name.all Source.isWordChar = true
  free : Keyword.ofWord? (String.ofList name) = none

/-- The statement that imports a component, with a blank behind it. -/
def importText (name path : List Char) : List Char :=
  "as".toList ++ ' ' :: (name ++ ' ' :: ("import".toList ++ ' ' :: '\'' :: (path ++ ['\'', ' '])))

/-- What the scanner makes of that statement. -/
def importLexemes (name path : List Char) : List (TokenKind × String) :=
  [(.keyword .asName, "as"), (.blank, " "), (.text, String.ofList name), (.blank, " "),
    (.keyword .importPath, "import"), (.blank, " "),
    (.string, String.ofList ('\'' :: (path ++ ['\'']))), (.blank, " ")]

namespace Source

variable {file : String} {c : Cursor} {lexemes : List (TokenKind × String)}
  {text rest : List Char} {quote : Char}

theorem closeQuote?_of_not_mem (hQuote : quote ∉ text) (hEscape : '\\' ∉ text)
    (behind : List Char) :
    closeQuote? quote (text ++ quote :: behind) = some (text ++ [quote]) := by
  induction text with
  | nil =>
      rw [List.nil_append, closeQuote?.eq_def]
      exact if_pos rfl
  | cons ch text ih =>
      obtain ⟨hFirst, hRest⟩ := List.ne_and_not_mem_of_not_mem_cons hQuote
      obtain ⟨hPlain, hLater⟩ := List.ne_and_not_mem_of_not_mem_cons hEscape
      rw [List.cons_append, closeQuote?.eq_def]
      dsimp only
      rw [if_neg (Ne.symm hFirst), if_neg (Ne.symm hPlain), ih hRest hLater]
      rfl

/-- A quoted path is one token. -/
theorem SetupScan.string (hQuote : '\'' ∉ text) (hEscape : '\\' ∉ text)
    (hRest : c.rest = '\'' :: (text ++ '\'' :: rest))
    (h : ∀ after : Cursor, after.rest = rest → SetupScan file after lexemes) :
    SetupScan file c ((.string, String.ofList ('\'' :: (text ++ ['\'']))) :: lexemes) := by
  have hTaken : closeQuote? '\'' (c.rest.drop 1) = some (text ++ ['\'']) := by
    rw [hRest]
    exact closeQuote?_of_not_mem hQuote hEscape rest
  have hSplit : c.rest = ('\'' :: (text ++ ['\''])) ++ rest := by simp [hRest]
  have hStep : scanStep file .setup '\'' c =
      .ok ⟨[(c.token file .string ('\'' :: (text ++ ['\''])) ((text ++ ['\'']).length + 1)).1],
        .setup, c.skip ((text ++ ['\'']).length + 1)⟩ := by
    unfold scanStep scanString
    rw [hTaken]
    rfl
  have hBehind : (c.skip ((text ++ ['\'']).length + 1)).rest = rest := by
    rw [Cursor.rest_skip, hSplit]
    exact List.drop_left' rfl
  exact SetupScan.step (by rw [hRest]; rfl) hStep (h _ hBehind)

/-- The served body ends the template. -/
theorem setupScan_serveText {body : List Char} (h : Yields (Lexed lexemes) body [')'])
    (file : String) (hRest : c.rest = serveText body) :
    SetupScan file c (serveLexemes lexemes) := by
  obtain ⟨tokens, inner, closing, hScan, hServes, rfl⟩ := scanFrom_serveText h file hRest
  exact ⟨tokens, hScan, hServes.lexemes⟩

end Source

theorem not_mem_of_isComponentPath {path : List Char} (h : Setup.isComponentPath path = true) :
    '\'' ∉ path ∧ '\\' ∉ path := by
  have hAll : ∀ ch ∈ path, ch = ':' ∨ (Text.isWordCharacter ch || ch = '.' || ch = '-' ||
      ch = '/' || ch = ' ') = true := by
    unfold Setup.isComponentPath at h
    rw [List.all_eq_true] at h
    intro ch hMem
    split at h
    · rcases List.mem_cons.mp hMem with rfl | hLater
      · exact .inl rfl
      · exact .inr (h ch hLater)
    · exact .inr (h ch hMem)
  constructor
  · intro hMem
    exact absurd (hAll _ hMem) (by decide)
  · intro hMem
    exact absurd (hAll _ hMem) (by decide)

/-- The tokens of a page that imports a component and serves a body. -/
theorem scanTemplate_importText {name path body : List Char} {lexemes : List (TokenKind × String)}
    (hName : IsComponentName name) (hPath : Setup.isComponentPath path = true)
    (h : Yields (Lexed lexemes) body [')']) (file : String) :
    ∃ tokens, Token.scanTemplate (String.ofList (importText name path ++ serveText body)) file =
        .ok tokens ∧ tokens.map Token.lexeme = importLexemes name path ++ serveLexemes lexemes := by
  obtain ⟨hQuote, hEscape⟩ := not_mem_of_isComponentPath hPath
  have hRest : (Cursor.start (String.ofList (importText name path ++ serveText body)).toList).rest =
      "as".toList ++ ' ' :: (name ++ ' ' :: ("import".toList ++ ' ' :: '\'' :: (path ++
        '\'' :: ' ' :: serveText body))) := by
    simp [Cursor.start, importText]
  have hScan : Source.SetupScan file
      (Cursor.start (String.ofList (importText name path ++ serveText body)).toList)
      ((.keyword .asName, String.ofList "as".toList) :: (.blank, String.ofList [' ']) ::
        (.text, String.ofList name) :: (.blank, String.ofList [' ']) ::
        (.keyword .importPath, String.ofList "import".toList) :: (.blank, String.ofList [' ']) ::
        (.string, String.ofList ('\'' :: (path ++ ['\'']))) :: (.blank, String.ofList [' ']) ::
        serveLexemes lexemes) := by
    refine .word (by decide) (by decide) (by rintro _ ⟨⟩; rfl)
      (.inr ⟨.asName, by decide, rfl, rfl⟩) hRest fun c₁ h₁ => ?_
    refine .single h₁ rfl fun c₂ h₂ => ?_
    refine .word hName.word.1 hName.word.2 (by rintro _ ⟨⟩; rfl) (.inl ⟨hName.free, rfl⟩) h₂
      fun c₃ h₃ => ?_
    refine .single h₃ rfl fun c₄ h₄ => ?_
    refine .word (by decide) (by decide) (by rintro _ ⟨⟩; rfl)
      (.inr ⟨.importPath, by decide, rfl, rfl⟩) h₄ fun c₅ h₅ => ?_
    refine .single h₅ rfl fun c₆ h₆ => ?_
    refine .string hQuote hEscape h₆ fun c₇ h₇ => ?_
    refine .single h₇ rfl fun c₈ h₈ => ?_
    exact Source.setupScan_serveText h file h₈
  obtain ⟨tokens, hTokens, hLexemes⟩ := hScan
  refine ⟨tokens, hTokens, hLexemes.trans ?_⟩
  simp only [String.ofList_toList]
  rfl

/-- It is read as the import, and what is served behind it. -/
theorem preamble_importText {name path : List Char} {lexemes : List (TokenKind × String)}
    {tokens : List Token} (hPath : Setup.isComponentPath path = true)
    (h : tokens.map Token.lexeme = importLexemes name path ++ serveLexemes lexemes)
    (endAt : Location) :
    ∃ location served body closing, preamble endAt tokens =
        ([.importComponent (String.ofList name) (String.ofList path) location], .ok served) ∧
      ServesBody served body closing ∧ Lexed lexemes body := by
  obtain ⟨front, served, rfl, hFront, hServed⟩ := List.map_eq_append_iff.mp h
  obtain ⟨body, closing, hServes, hBody⟩ := servesBody_of_lexemes hServed
  simp only [importLexemes, List.map_eq_cons_iff, List.map_eq_nil_iff, Token.lexeme,
    Prod.mk.injEq] at hFront
  obtain ⟨word, _, rfl, ⟨hWord, -⟩, blank, _, rfl, ⟨hBlank, -⟩, title, _, rfl, ⟨hTitle, hName⟩,
    gap, _, rfl, ⟨hGap, -⟩, second, _, rfl, ⟨hSecond, -⟩, space, _, rfl, ⟨hSpace, -⟩, literal, _,
    rfl, ⟨hLiteral, hValue⟩, last, _, rfl, ⟨hLast, -⟩, rfl⟩ := hFront
  have hUnquoted : (Text.unquote? literal.value.toList).filter Setup.isComponentPath =
      some path := by
    have hInner : Text.unquote? ('\'' :: (path ++ ['\''])) = some path := by
      simp [Text.unquote?]
    rw [hValue, String.toList_ofList, hInner, Option.filter_eq_some_iff]
    exact ⟨rfl, hPath⟩
  have hRead : (Setup.readImport endAt).Finds
      (blank :: title :: gap :: second :: space :: literal :: last :: served)
      (.importComponent title.value (String.ofList path) literal.location) (last :: served) := by
    refine .bind (.expect_blank hBlank hTitle (by decide)) ?_
    refine .bind (.expect_blank hGap hSecond (by decide)) ?_
    refine .bind (.expect_blank hSpace hLiteral (by decide)) ?_
    rw [hUnquoted]
    exact ⟨rfl, rfl⟩
  refine ⟨literal.location, served, body, closing, ?_, hServes, hBody⟩
  obtain ⟨⟨serve, _, _, rfl, hServe, -⟩, -⟩ := hServes
  simp only [List.cons_append, List.nil_append]
  rw [preamble_setup hWord rfl, hRead.1]
  dsimp only
  rw [hRead.2, preamble_blank hLast, preamble_serve (congrArg Prod.fst hServe), hName]

namespace FreshPage

variable (page : FreshPage)

/-- The session of a page behind its import. -/
def importing (name : String) (found : Imported) : Session :=
  page.session.addComponent page.start.context.scopes name found

/-- The component that has been imported. -/
def imported (name : String) (found : Imported) : Component :=
  page.session.importedComponent page.start.context.scopes name found

theorem component?_importing (name : String) (found : Imported) :
    (page.importing name found).component? page.start.context.scopes name =
      some (page.imported name found) := by
  have hLocal : (page.importing name found).components.lookupLocal?
      page.start.context.scopes.components name = some (page.imported name found) :=
    List.lookup_cons_self
  rw [Session.component?, ScopeArena.lookup?, hLocal]

/-- Neither the page nor its component has registered files. -/
theorem entries_importing (name : String) (found : Imported) :
    ((page.importing name found).stylesheets.entries page.start.context.scopes.stylesheets = [] ∧
      (page.importing name found).scripts.entries page.start.context.scopes.scripts = []) ∧
    ((page.importing name found).stylesheets.entries
        (page.imported name found).scopes.stylesheets = [] ∧
      (page.importing name found).scripts.entries (page.imported name found).scopes.scripts = []) :=
  ⟨⟨rfl, rfl⟩, rfl, rfl⟩

variable {page} {text : List Char} {final : Session} {served body : List Token} {closing : Token}

/-- A page that imports a component and only serves a body, and registers no files. -/
theorem parsed_of_import {name path : String} {location : Location} {found : Imported}
    (hPreamble : preamble page.start.endLocation page.tokens =
      ([.importComponent name path location], .ok served))
    (hFound : importSource page.resolve page.file path location = .ok found)
    (h : ServesBody served body closing)
    (hWalk : ∀ inner : Rendering, inner.context = page.start.context →
      inner.rest = body ++ [closing] →
      Rendering.walk (page.session.nested page.resolve) true inner (page.importing name found) =
        prepend text
          (Rendering.walk (page.session.nested page.resolve) true (inner.moveTo [closing]) final))
    (hStylesheets : final.stylesheets.entries page.start.context.scopes.stylesheets = [])
    (hScripts : final.scripts.entries page.start.context.scopes.scripts = []) :
    page.parsed = .ok text := by
  have hRun : Setup.runAll page.resolve page.start.context [.importComponent name path location]
      page.session = (.ok (), page.importing name found) := by
    have hStatement : (Setup.importComponent name path location).run page.resolve
        page.start.context page.session = (.ok (), page.importing name found) := by
      rw [Setup.run, Setup.defineComponent_eq]
      rw [show page.start.context.file = page.file from rfl, hFound]
      rfl
    simp only [Setup.runAll, hStatement]
  obtain ⟨after, hStatements⟩ := Rendering.statements_servesBody
    (r := page.start.moveTo served) (page.session.nested page.resolve) page.resolve [] h hWalk
  have hTemplate := statements_eq_preamble (page.session.nested page.resolve) page.resolve []
    page.start page.session
  rw [show page.start.rest = page.tokens from rfl, hPreamble] at hTemplate
  dsimp only at hTemplate
  rw [hRun] at hTemplate
  dsimp only at hTemplate
  rw [hStatements] at hTemplate
  have hResult := congrArg Prod.fst hTemplate
  unfold parsed Rendering.template
  exact hResult.trans (Rendering.link_of_none hStylesheets hScripts)

end FreshPage

end HtmlTemplate
