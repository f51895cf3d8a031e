import HtmlTemplate.Proofs.Assets.Page
import HtmlTemplate.Proofs.Render.Copying

/-! Templates that end with `serve ( … )`: how they are scanned, and that they give what the
markup between the parentheses gives. -/
namespace HtmlTemplate

/-- The end of a template that serves a body. -/
def serveText (body : List Char) : List Char :=
  "serve (".toList ++ (body ++ [')'])

/-- What the scanner makes of it. -/
def serveLexemes (body : List (TokenKind × String)) : List (TokenKind × String) :=
  (.keyword .serve, "serve") :: (.blank, " ") :: (.openParen, "(") ::
    (body ++ [(.closeParen, ")")])

/-- The tokens of a template from `serve` on: the body between parentheses. -/
structure ServesBody (tokens body : List Token) (closing : Token) : Prop where
  shape : ∃ serve blank opening, tokens = serve :: blank :: opening :: (body ++ [closing]) ∧
    serve.lexeme = (.keyword .serve, "serve") ∧ blank.lexeme = (.blank, " ") ∧
    opening.lexeme = (.openParen, "(")
  closes : closing.lexeme = (.closeParen, ")")

theorem ServesBody.lexemes {tokens body : List Token} {closing : Token}
    (h : ServesBody tokens body closing) :
    tokens.map Token.lexeme = serveLexemes (body.map Token.lexeme) := by
  obtain ⟨⟨serve, blank, opening, rfl, hServe, hBlank, hOpening⟩, hClosing⟩ := h
  simp [serveLexemes, hServe, hBlank, hOpening, hClosing]

theorem servesBody_of_lexemes {tokens : List Token} {lexemes : List (TokenKind × String)}
    (h : tokens.map Token.lexeme = serveLexemes lexemes) :
    ∃ body closing, ServesBody tokens body closing ∧ Lexed lexemes body := by
  obtain ⟨serve, _, rfl, hServe, hRest⟩ := List.map_eq_cons_iff.mp h
  obtain ⟨blank, _, rfl, hBlank, hRest⟩ := List.map_eq_cons_iff.mp hRest
  obtain ⟨opening, _, rfl, hOpening, hRest⟩ := List.map_eq_cons_iff.mp hRest
  obtain ⟨body, last, rfl, hBody, hLast⟩ := List.map_eq_append_iff.mp hRest
  obtain ⟨closing, rfl, hClosing⟩ := lexed_single hLast
  exact ⟨body, closing, ⟨⟨serve, blank, opening, rfl, hServe, hBlank, hOpening⟩, hClosing⟩, hBody⟩

namespace Source

variable {file : String} {c after : Cursor} {tokens : List Token} {text behind : List Char}

/-- The word `serve` begins the markup. -/
theorem scanFrom_serveWord (file : String) (hRest : c.rest = "serve".toList ++ behind)
    (hBehind : ∀ ch, behind.head? = some ch → isWordChar ch = false) :
    ∃ (serve : Token) (after : Cursor), serve.lexeme = (.keyword .serve, "serve") ∧
      after.rest = behind ∧
      scanFrom file .setup c = (scanFrom file .markup after).map ([serve] ++ ·) := by
  have hTaken : c.rest.takeWhile isWordChar = "serve".toList := by
    have hWord : ∀ ch ∈ "serve".toList, isWordChar ch = true :=
      List.all_eq_true.mp (by decide)
    rw [hRest, List.takeWhile_append_of_pos hWord]
    cases behind with
    | nil => rfl
    | cons ch _ => simp [hBehind ch rfl]
  have hStep : scanStep file .setup 's' c = .ok
      ⟨[(c.token file (.keyword .serve) "serve".toList 5).1], .markup, c.skip 5⟩ := by
    have hWord : scanWord file .setup c =
        ⟨[(c.token file (.keyword .serve) "serve".toList 5).1], .markup, c.skip 5⟩ := by
      unfold scanWord
      rw [hTaken]
      rfl
    rw [← hWord]
    rfl
  exact ⟨_, _, congrArg (Prod.mk _) String.ofList_toList, Cursor.rest_skip_length hRest,
    scanFrom_of_step (by rw [hRest]; rfl) hStep⟩

/-- A served body is scanned as markup in front of the parenthesis that closes it. -/
theorem scanFrom_serveText {P : List Token → Prop} {body : List Char} (h : Yields P body [')'])
    (file : String) (hRest : c.rest = serveText body) :
    ∃ tokens inner closing, scanFrom file .setup c = .ok tokens ∧
      ServesBody tokens inner closing ∧ P inner := by
  have hText : c.rest = "serve".toList ++ ([' '] ++ (['('] ++ (body ++ [')']))) := hRest
  obtain ⟨serve, middle, hServe, hMiddle, hScan⟩ :=
    scanFrom_serveWord file hText (by rintro _ ⟨⟩; rfl)
  have hParens : Yields (fun tokens => ∃ opening inner closing,
      tokens = opening :: (inner ++ [closing]) ∧ opening.lexeme = (.openParen, "(") ∧ P inner ∧
        closing.lexeme = (.closeParen, ")")) (['('] ++ (body ++ [')'])) [] := by
    have hClose : Yields (fun tokens => ∃ inner closing, tokens = inner ++ [closing] ∧ P inner ∧
        closing.lexeme = (.closeParen, ")")) (body ++ [')']) [] :=
      h.concat (found_char rfl (by decide) (by decide) []).yields fun inner closing hP hClosing =>
        ⟨inner, closing, rfl, hP, hClosing⟩
    refine (found_char rfl (by decide) (by decide) _).yields.cons hClose ?_
    rintro opening _ hOpening ⟨inner, closing, rfl, hP, hClosing⟩
    exact ⟨opening, inner, closing, rfl, hOpening, hP, hClosing⟩
  have hMarkup : Yields (fun tokens => ∃ blank opening inner closing,
      tokens = blank :: opening :: (inner ++ [closing]) ∧ blank.lexeme = (.blank, " ") ∧
        opening.lexeme = (.openParen, "(") ∧ P inner ∧ closing.lexeme = (.closeParen, ")"))
      ([' '] ++ (['('] ++ (body ++ [')']))) [] := by
    refine (found_char rfl (by decide) (by decide) _).yields.cons hParens ?_
    rintro blank _ hBlank ⟨opening, inner, closing, rfl, hRest⟩
    exact ⟨blank, opening, inner, closing, rfl, hBlank, hRest⟩
  obtain ⟨_, after, hScans, hAfter, blank, opening, inner, closing, rfl, hBlank, hOpening, hP,
    hClosing⟩ := hMarkup file middle (by rw [hMiddle, List.append_nil])
  refine ⟨serve :: blank :: opening :: (inner ++ [closing]), inner, closing, ?_,
    ⟨⟨serve, blank, opening, rfl, hServe, hBlank, hOpening⟩, hClosing⟩, hP⟩
  rw [hScan, hScans.scanFrom_eq hAfter]
  rfl

end Source

theorem Token.scanTemplate_serveText {P : List Token → Prop} {body : List Char}
    (h : Yields P body [')']) (file : String) :
    ∃ tokens inner closing,
      Token.scanTemplate (String.ofList (serveText body)) file = .ok tokens ∧
        ServesBody tokens inner closing ∧ P inner :=
  Source.scanFrom_serveText h file (c := .start _) String.toList_ofList

namespace Rendering

section

variable {nested : Nested} {resolve : Resolver} {html text : List Char} {r : Rendering}
  {session final : Session} {body : List Token} {closing : Token}

/-- The parenthesis that closes the body of `serve`. -/
theorem walk_closing {below : List Pending} {p : Pending} (hRest : r.rest = [closing])
    (hClosing : closing.kind = .closeParen) (hOpened : r.opened = [])
    (hOuter : r.outer = p :: below) (hParen : p.isParen = true) :
    walk nested true r session = (.ok [], { r.moveTo [] with outer := below }, session) := by
  have hStep : (r.moveTo []).step session true closing =
      (.close, { r.moveTo [] with outer := below }) := by
    rw [step, hClosing]
    simp [closeParen, moveTo, hOpened, hOuter, hParen]
  exact walk_of_close hRest (by rw [hClosing]; rfl) hStep rfl rfl

/-- A template that only serves a body gives what the body gives. -/
theorem statements_servesBody (nested : Nested) (resolve : Resolver) (html : List Char)
    (h : ServesBody r.rest body closing)
    (hWalk : ∀ inner : Rendering, inner.context = r.context → inner.rest = body ++ [closing] →
      walk nested true inner session =
        prepend text (walk nested true (inner.moveTo [closing]) final)) :
    ∃ after, statements nested resolve html r session =
      (r.link final (html ++ text), after, final) := by
  obtain ⟨⟨serve, blank, opening, hRest, hServe, hBlank, hOpening⟩, hClosing⟩ := h
  obtain ⟨hServe, -⟩ := Prod.mk.inj hServe
  obtain ⟨hBlank, -⟩ := Prod.mk.inj hBlank
  obtain ⟨hOpening, -⟩ := Prod.mk.inj hOpening
  obtain ⟨hClosing, -⟩ := Prod.mk.inj hClosing
  have hDropped : dropBlanks (r.moveTo (blank :: opening :: (body ++ [closing]))).rest =
      opening :: (body ++ [closing]) := by
    simp [dropBlanks, hBlank, hOpening]
  have hOpened := openServe_eq_ok hDropped hOpening
  let inner : Rendering :=
    { r with
      rest := body ++ [closing], opened := [],
      outer := ⟨.paren, opening⟩ :: r.opened ++ r.outer }
  have hServed : Rendering.serve nested (r.moveTo (blank :: opening :: (body ++ [closing])))
      session = (.ok text, { inner.moveTo [] with outer := r.opened ++ r.outer }, final) := by
    have hInner : Rendering.serve nested (r.moveTo (blank :: opening :: (body ++ [closing])))
        session = walk nested true inner session := by
      unfold Rendering.serve
      rw [hOpened]
      rfl
    rw [hInner, hWalk inner rfl rfl,
      walk_closing (r := inner.moveTo [closing]) rfl hClosing rfl rfl rfl]
    exact congrArg (fun found => (Except.ok found, _)) (List.append_nil text)
  refine ⟨{ inner.moveTo [] with outer := r.opened ++ r.outer }, ?_⟩
  rw [statements_serve hRest hServe, hServed]
  exact statements_nil rfl

/-- Nothing is linked where nothing has been registered. -/
theorem link_of_none (hStylesheets : session.stylesheets.entries r.context.scopes.stylesheets = [])
    (hScripts : session.scripts.entries r.context.scopes.scripts = []) :
    r.link session html = .ok html := by
  unfold link
  simp [hStylesheets, hScripts, linkAssets]

/-- A component that only serves a body which is copied. -/
theorem renderComponent_servesBody {k : Component} (session : Session)
    (h : ServesBody k.tokens body closing)
    (hCopied : ∀ session scopes, Copied session scopes body)
    (hStylesheets : session.stylesheets.entries k.scopes.stylesheets = [])
    (hScripts : session.scripts.entries k.scopes.scripts = []) (nested : Nested)
    (resolve : Resolver) (bag : Bag) :
    renderComponent nested resolve k bag session =
      (.ok (substitute bag (valuesText body)), session) := by
  let r := Rendering.start k.tokens ⟨bag, k.scopes, k.file⟩
  have hBody (inner : Rendering) (_ : inner.context = r.context)
      (hRest : inner.rest = body ++ [closing]) : walk nested true inner session =
        prepend (valuesText body) (walk nested true (inner.moveTo [closing]) session) :=
    hCopied session _ nested true inner [closing] rfl hRest
  obtain ⟨after, hStatements⟩ := statements_servesBody (r := r) nested resolve [] h hBody
  have hLink : r.link session (valuesText body) = .ok (valuesText body) :=
    link_of_none hStylesheets hScripts
  rw [List.nil_append, hLink] at hStatements
  exact congrArg (fun done => (done.1.map (substitute bag), done.2.2)) hStatements

end

end Rendering

namespace FreshPage

variable (page : FreshPage)

/-- A page starts without components. -/
theorem component?_session (name : String) :
    page.session.component? page.start.context.scopes name = none := by
  unfold Session.component?
  rw [ScopeArena.lookup?]
  rfl

/-- And without files. -/
theorem entries_session :
    page.session.stylesheets.entries page.start.context.scopes.stylesheets = [] ∧
      page.session.scripts.entries page.start.context.scopes.scripts = [] :=
  ⟨rfl, rfl⟩

variable {page} {text : List Char} {final : Session} {body : List Token} {closing : Token}

/-- A page that only serves a body and registers no files. -/
theorem parsed_servesBody (h : ServesBody page.tokens body closing)
    (hWalk : ∀ inner : Rendering, inner.context = page.start.context →
      inner.rest = body ++ [closing] →
      Rendering.walk (page.session.nested page.resolve) true inner page.session =
        prepend text
          (Rendering.walk (page.session.nested page.resolve) true (inner.moveTo [closing]) final))
    (hStylesheets : final.stylesheets.entries page.start.context.scopes.stylesheets = [])
    (hScripts : final.scripts.entries page.start.context.scopes.scripts = []) :
    page.parsed = .ok text := by
  obtain ⟨after, hStatements⟩ := Rendering.statements_servesBody (r := page.start)
    (page.session.nested page.resolve) page.resolve [] h hWalk
  unfold parsed Rendering.template
  rw [hStatements]
  exact Rendering.link_of_none hStylesheets hScripts

end FreshPage

end HtmlTemplate
