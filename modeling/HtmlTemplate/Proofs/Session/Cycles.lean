import HtmlTemplate.Proofs.Render.Termination
import HtmlTemplate.Proofs.Session.Evolution
import HtmlTemplate.Proofs.Session.History

/-! Imports in a circle. Templates each of which begins what it serves with a component of the
next are given up at the depth limit, however long the circle is and whatever has happened in the
session before. -/
namespace HtmlTemplate

/-- The component that is served first, blanks aside: what is served begins with a tag that closes
itself. -/
def servedFirst? : List Token → Option String
  | [] => none
  | _ :: inside =>
    match dropBlanks inside with
    | [] => none
    | opening :: body =>
      match dropBlanks body with
      | [] => none
      | tag :: _ =>
        if opening.kind = .openParen ∧ tag.kind = .selfClosingTag then tag.element? else none

theorem servedFirst?_eq_some {served : List Token} {name : String}
    (h : servedFirst? served = some name) :
    ∃ serve inside opening body tag behind, served = serve :: inside ∧
      dropBlanks inside = opening :: body ∧ opening.kind = .openParen ∧
      dropBlanks body = tag :: behind ∧ tag.kind = .selfClosingTag ∧ tag.element? = some name := by
  unfold servedFirst? at h
  split at h
  · cases h
  · next serve inside =>
    split at h
    · cases h
    · next opening body hOpening =>
      split at h
      · cases h
      · next tag behind hTag =>
        split at h
        · next hKinds =>
          exact ⟨serve, inside, opening, body, tag, behind, rfl, hOpening, hKinds.1, hTag,
            hKinds.2, h⟩
        · cases h

namespace Setup

/-- The path from which a name is imported first. -/
def importedFrom? (name : String) : List Setup → Option String
  | [] => none
  | .importComponent other path _ :: rest =>
    if other = name then some path else importedFrom? name rest
  | _ :: rest => importedFrom? name rest

theorem imported?_of_importedFrom? (resolve : Resolver) {file name path : String}
    {statements : List Setup} (h : importedFrom? name statements = some path) :
    ∃ location, imported? resolve file name statements =
      some (importSource resolve file path location) := by
  fun_induction importedFrom? name statements with
  | case1 => cases h
  | case2 path location rest =>
      cases h
      exact ⟨location, if_pos rfl⟩
  | case3 other path location rest hOther ih =>
      obtain ⟨location, hImported⟩ := ih h
      exact ⟨location, (if_neg hOther).trans hImported⟩
  | case4 statement rest hOther ih =>
      obtain ⟨location, hImported⟩ := ih h
      refine ⟨location, Eq.trans ?_ hImported⟩
      rw [imported?_cons]
      cases statement with
      | importComponent other path location => cases hOther other path location rfl
      | _ => rfl

end Setup

/-- The path of the component that a template serves first. -/
def Imported.next? (found : Imported) : Option String :=
  found.preamble.2.toOption.bind fun served =>
    (servedFirst? served).bind fun name => Setup.importedFrom? name found.preamble.1

/-- Imports, each by a file and a path, that never lead out of themselves: each resolves to a
template that serves a component first which it imports by one of them. -/
def Resolver.Circular (resolve : Resolver) (imports : String → String → Prop) : Prop :=
  ∀ file path, imports file path → ∃ source tokens next, resolve file path = .ok source ∧
    Token.scanTemplate source.text source.path = .ok tokens ∧
    (⟨source.path, tokens⟩ : Imported).next? = some next ∧ imports source.path next

/-- A template that serves a component first which it imports by one of some paths. -/
def Imported.GoesOn (imports : String → String → Prop) (found : Imported) : Prop :=
  ∃ next, found.next? = some next ∧ imports found.file next

namespace Rendering

variable {nested : Nested} {session : Session}

/-- A walk that fails behind some blanks fails in front of them. -/
theorem walk_eq_error_of_dropBlanks {serve : Bool} {r : Rendering} {e : RenderError}
    (h : (walk nested serve (r.moveTo (dropBlanks r.rest)) session).1 = .error e) :
    (walk nested serve r session).1 = .error e := by
  induction hRest : r.rest generalizing r with
  | nil =>
      rw [hRest] at h
      have hSame : r.moveTo [] = r := by rw [← hRest]; rfl
      rwa [show dropBlanks [] = [] from rfl, hSame] at h
  | cons token rest ih =>
      by_cases hBlank : token.kind = .blank
      · have hStep : (r.moveTo rest).step session serve token =
            (.emit token.value.toList, r.moveTo rest) := by
          unfold step
          rw [hBlank]
        have hDropped : dropBlanks r.rest = dropBlanks rest := by
          simp [hRest, dropBlanks, hBlank]
        have hBehind : (walk nested serve (r.moveTo rest) session).1 = .error e := by
          apply ih _ rfl
          rwa [hDropped] at h
        rw [walk_of_ok hRest (by rw [hBlank]; rfl) hStep rfl rfl, hBehind]
        rfl
      · have hSame : r.moveTo (dropBlanks r.rest) = r := by
          have hDropped : dropBlanks (token :: rest) = token :: rest := by
            simp [dropBlanks, hBlank]
          rw [hRest, hDropped, ← hRest]
          rfl
        rwa [hSame] at h

/-- A walk fails at a tag whose component does. -/
theorem walk_eq_error_of_component (serve : Bool) {r : Rendering} {tag : Token}
    {behind : List Token} {name : String} {k : Component} (hRest : r.rest = tag :: behind)
    (hKind : tag.kind = .selfClosingTag) (hName : tag.element? = some name)
    (hFound : session.component? r.context.scopes name = some k)
    (hFails : ∀ bag, ∃ e, (nested r.context (.component k bag) tag session).1 = .error e) :
    ∃ e, (walk nested serve r session).1 = .error e := by
  obtain ⟨⟨inner, text⟩, hParts, rfl⟩ := Option.map_eq_some_iff.mp hName
  have hStep : (r.moveTo behind).step session serve tag =
      (.run (.component k (attributeBag r.context.bag text)) tag, r.moveTo behind) := by
    unfold step
    rw [hKind]
    simp only [closedElement, hParts, moveTo_context, hFound]
  obtain ⟨e, hError⟩ := hFails (attributeBag r.context.bag text)
  rcases hDone : nested r.context (.component k (attributeBag r.context.bag text)) tag session
    with ⟨result, final⟩
  rw [hDone] at hError
  cases hError
  exact ⟨e, by rw [walk_of_error hRest (by rw [hKind]; rfl) hStep hDone]⟩

/-- So do statements whose `serve` begins with such a tag. -/
theorem statements_eq_error_of_component (resolve : Resolver) (html : List Char) {r : Rendering}
    {name : String} {k : Component} (hFirst : servedFirst? r.rest = some name)
    (hServe : ∃ token rest, r.rest = token :: rest ∧ token.kind = .keyword .serve)
    (hFound : session.component? r.context.scopes name = some k)
    (hFails : ∀ context bag token, ∃ e,
      (nested context (.component k bag) token session).1 = .error e) :
    ∃ e, (statements nested resolve html r session).1 = .error e := by
  obtain ⟨serve, inside, opening, body, tag, behind, hRest, hOpening, hParen, hTag, hTagKind,
    hName⟩ := servedFirst?_eq_some hFirst
  have hKind : serve.kind = .keyword .serve := by
    obtain ⟨_, _, hFront, hKind⟩ := hServe
    cases hRest.symm.trans hFront
    exact hKind
  have hOpened := openServe_eq_ok (r := r.moveTo inside) hOpening hParen
  obtain ⟨e, hError⟩ := walk_eq_error_of_component true
    (r := ((r.moveTo inside).openServe.2.enter).moveTo (tag :: behind)) rfl hTagKind hName
    (by rw [hOpened]; exact hFound) (fun bag => hFails _ bag tag)
  refine ⟨e, ?_⟩
  have hServed : (Rendering.serve nested (r.moveTo inside) session).1 = .error e := by
    unfold Rendering.serve
    rw [hOpened] at hError ⊢
    exact walk_eq_error_of_dropBlanks (hTag ▸ hError)
  rw [statements_serve hRest hKind]
  revert hServed
  rcases Rendering.serve nested (r.moveTo inside) session with ⟨result, after, final⟩
  rintro ⟨⟩
  rfl

end Rendering

section

variable {resolve : Resolver} {imports : String → String → Prop}

/-- What is imported by one of the paths goes on to another. -/
theorem Resolver.Circular.goesOn (h : resolve.Circular imports) {file path : String}
    {location : Location} {found : Imported} (hPath : imports file path)
    (hFound : importSource resolve file path location = .ok found) : found.GoesOn imports := by
  obtain ⟨source, tokens, next, hResolve, hTokens, hNext, hImports⟩ := h file path hPath
  unfold importSource at hFound
  simp only [hResolve, hTokens] at hFound
  cases hFound
  exact ⟨next, hNext, hImports⟩

/-- Where the preamble of a component has succeeded, each name that it imports is bound to what
the first import of that name leads to. -/
theorem Session.Carried.bound {session prepared : Session} {k : Component}
    (h : Carried resolve session k [] k.source.preamble.1 [] (.ok (), prepared)) {name : String}
    {result : Except RenderError Imported}
    (hImport : k.source.imported? resolve name = some result) :
    ∃ l, prepared.Knows l ∧ prepared.component? k.scopes name = some l ∧
      result = .ok l.source := by
  obtain ⟨seen, hProgress⟩ := h.progress rfl
  by_cases hSeen : name ∈ seen
  · obtain ⟨l, hBound⟩ := hProgress.bound name hSeen
    refine ⟨l, ⟨_, _, hBound⟩, ?_, ?_⟩
    · exact (ScopeArena.lookup?_of_root _ h.owns.components.2 name).trans hBound
    · exact Option.some.inj (hImport.symm.trans (h.owns.imported name l hBound))
  · cases hImport.symm.trans (hProgress.ahead name hSeen)

/-- A template that goes on in a circle fails if the next one on it does. -/
theorem renderComponent_eq_error_of_next (hCircular : resolve.Circular imports) {nested : Nested}
    (hNext : ∀ (middle : Session) (l : Component), middle.Sound resolve → middle.Knows l →
      l.source.GoesOn imports → ∀ context bag token,
        ∃ e, (nested context (.component l bag) token middle).1 = .error e)
    {session : Session} {k : Component} (hSound : session.Sound resolve)
    (hOwns : session.Owns resolve k) (hGoesOn : k.source.GoesOn imports) (bag : Bag) :
    ∃ e, (renderComponent nested resolve k bag session).1 = .error e := by
  obtain ⟨path, hPath, hImports⟩ := hGoesOn
  obtain ⟨served, hServed, hPath⟩ := Option.bind_eq_some_iff.mp hPath
  obtain ⟨name, hFirst, hPath⟩ := Option.bind_eq_some_iff.mp hPath
  rw [toOption_eq_some] at hServed
  obtain ⟨location, hImport⟩ := Setup.imported?_of_importedFrom? resolve hPath
  have hCarried := Session.preamble_carried (c := ⟨bag, k.scopes, k.file⟩) hSound hOwns rfl rfl
  rw [renderComponent_eq_preamble, hServed]
  revert hCarried
  rcases Setup.runAll resolve ⟨bag, k.scopes, k.file⟩ k.source.preamble.1 session with
    ⟨result, prepared⟩
  intro hCarried
  cases result with
  | error e => exact ⟨e, rfl⟩
  | ok _ =>
      obtain ⟨l, hKnows, hFound, hSource⟩ := hCarried.bound hImport
      have hServe := (preamble_eq_ok hServed).2.resolve_left (by rintro rfl; cases hFirst)
      obtain ⟨e, hError⟩ := Rendering.statements_eq_error_of_component resolve []
        (r := (Rendering.start k.tokens ⟨bag, k.scopes, k.file⟩).moveTo served) hFirst hServe hFound
        (hNext prepared l hCarried.sound hKnows (hCircular.goesOn hImports hSource))
      refine ⟨e, ?_⟩
      dsimp only
      rw [hError]
      rfl

/-- A component on a circle is given up with any number of levels: at the last one it is refused,
and on the others it fails because the next one does. -/
theorem nestedWithin_eq_error (hCircular : resolve.Circular imports) (levels : Nat)
    {session : Session} {k : Component} (hSound : session.Sound resolve)
    (hKnows : session.Knows k) (hGoesOn : k.source.GoesOn imports) (context : Context) (bag : Bag)
    (token : Token) :
    ∃ e, (nestedWithin resolve levels context (.component k bag) token session).1 = .error e := by
  induction levels generalizing session k context bag token with
  | zero => exact ⟨_, rfl⟩
  | succ levels ih =>
      have hEntered := hSound.opens session.opens_enter
      have hKnown := (session.opens_enter.knows_iff k).mpr hKnows
      exact renderComponent_eq_error_of_next hCircular
        (fun _ _ hMiddle hOther hNext _ _ _ => ih hMiddle hOther hNext _ _ _) hEntered
        (hEntered.owns hKnown) hGoesOn bag

/-- So is a page that leads into a circle. -/
theorem render_eq_error (hCircular : resolve.Circular imports) (options : Options)
    {source path : String} {tokens : List Token} (bag : Bag)
    (hTokens : Token.scanTemplate source path = .ok tokens)
    (hGoesOn : Imported.GoesOn imports ⟨path, tokens⟩) :
    ∃ e, options.render resolve source bag path = .error e := by
  let opened := (Session.start options.maxDepth).pageScopes
  let nested := opened.1.nested resolve
  let r := Rendering.start tokens ⟨options.visibleBag bag, opened.2, path⟩
  have hStart := Session.sound_start resolve options.maxDepth
  obtain ⟨e, hError⟩ : ∃ e, ((r.template nested resolve opened.1).1.map
      (substitute (options.visibleBag bag))) = .error e := by
    apply renderComponent_eq_error_of_next hCircular (k := ⟨"", tokens, path, opened.2⟩)
    · exact hStart.opens (Session.opens_pageScopes _)
    · exact hStart.owns_pageScopes tokens path
    · exact hGoesOn
    · intro middle l hMiddle hKnows hNext context bag token
      exact nestedWithin_eq_error hCircular options.maxDepth hMiddle hKnows hNext context bag token
  have hFails : (r.template nested resolve opened.1).1 = .error e := by
    revert hError
    cases (r.template nested resolve opened.1).1 with
    | error e => exact fun h => congrArg Except.error (Except.error.inj h)
    | ok text => exact nofun
  refine ⟨e, ?_⟩
  unfold Options.render
  rw [hTokens]
  show ((r.template nested resolve opened.1).1.map _).map String.ofList = _
  rw [hFails]
  rfl

/-- Imports in a circle always end in an error, and rendering always ends. A component that is
imported by a path on a circle is never rendered to a text, whatever has happened in its session,
with whatever parameters, limit and levels, and neither is a page that begins with one. And what
rendering asks for has fewer levels left, or as many levels and fewer tokens and items: the
recursion that asks its session how deep it is has one solution, which is how work is rendered. -/
theorem circular_imports_fail (hCircular : resolve.Circular imports) {limit : Nat} {h : History}
    (hLeads : History.Leads resolve ⟨Session.start limit, []⟩ h) {file path : String}
    {location : Location} {k : Component} (hKnows : h.session.Knows k) (hPath : imports file path)
    (hImport : importSource resolve file path location = .ok k.source) :
    (∀ levels context bag token, ∃ e,
      (nestedWithin resolve levels context (.component k bag) token h.session).1 = .error e) ∧
    (∀ (options : Options) source path tokens bag, Token.scanTemplate source path = .ok tokens →
      Imported.GoesOn imports ⟨path, tokens⟩ →
      ∃ e, options.render resolve source bag path = .error e) ∧
    (∀ a b : Activity, b ∈ a.asks resolve → Prod.Lex (· < ·) (· < ·) b.budget a.budget) ∧
    (nestedByDepth resolve).Counts resolve ∧
    ∀ nested : Nested, nested.Counts resolve → nested = nestedByDepth resolve := by
  have hSound := (hLeads.valid (History.valid_start resolve limit)).1.sound
  refine ⟨?_, ?_, ?_, nestedByDepth_counts resolve, fun _ hCounts => hCounts.eq_nestedByDepth⟩
  · intro levels context bag token
    exact nestedWithin_eq_error hCircular levels hSound hKnows (hCircular.goesOn hPath hImport)
      context bag token
  · intro options source path tokens bag hTokens hGoesOn
    exact render_eq_error hCircular options bag hTokens hGoesOn
  · intro a b hAsks
    exact (Activity.asked_of_mem_asks hAsks).less

end

/-- Two files, each of which serves the other. -/
def pingText : String :=
  "as Pong import 'pong' serve (\n<Pong /> again)"

def pongText : String :=
  "link '/a.css' as Ping import 'ping' serve (<Ping x=\"1\" />)"

def pingPong : Resolver :=
  fun _ path => if path = "ping" then .ok ⟨"ping", pingText⟩ else .ok ⟨"pong", pongText⟩

/-- A page that has imported one of the two. -/
def pingPage : History :=
  ⟨((Setup.importComponent "Ping" "ping" ⟨"page", 1, 1⟩).run pingPong ⟨[], ⟨0, 0, 0, 0⟩, "page"⟩
    (Session.start 64).pageScopes.1).2, [⟨0, 0, 0, 0⟩]⟩

/-- What that page has imported. -/
def pingComponent : Component :=
  (pingPage.session.components.lookupLocal? 0 "Ping").get (by decide +kernel)

theorem pingPong_circular : pingPong.Circular fun _ path => path = "ping" ∨ path = "pong" := by
  rintro file path (rfl | rfl)
  · exact ⟨_, (Token.scanTemplate pingText "ping").toOption.getD [], "pong", rfl,
      by decide +kernel, by decide +kernel, .inr rfl⟩
  · exact ⟨_, (Token.scanTemplate pongText "pong").toOption.getD [], "ping", rfl,
      by decide +kernel, by decide +kernel, .inl rfl⟩

/-- A circle of two files is given up with every number of levels. -/
theorem circular_imports_fail_of_ping :
    (pingPong.Circular fun _ path => path = "ping" ∨ path = "pong") ∧
    History.Leads pingPong ⟨Session.start 64, []⟩ pingPage ∧
    pingPage.session.Knows pingComponent ∧
    importSource pingPong "page" "ping" ⟨"page", 1, 1⟩ = .ok pingComponent.source ∧
    ∀ levels bag, ∃ e, (nestedWithin pingPong levels ⟨[], ⟨0, 0, 0, 0⟩, "page"⟩
      (.component pingComponent bag) ⟨.selfClosingTag, "<Ping />", ⟨0, 8, 1, 1⟩, "page"⟩
      pingPage.session).1 = .error e := by
  have hLeads : History.Leads pingPong ⟨Session.start 64, []⟩ pingPage :=
    .step (.step (.refl _) (.openPage _)) (.setup _ _ _ List.mem_cons_self)
  have hKnows : pingPage.session.Knows pingComponent :=
    ⟨0, "Ping", (Option.some_get _).symm⟩
  have hImport : importSource pingPong "page" "ping" ⟨"page", 1, 1⟩ = .ok pingComponent.source := by
    have hTokens : Token.scanTemplate pingText "ping" = .ok pingComponent.tokens := by
      decide +kernel
    have hFile : pingComponent.file = "ping" := by decide +kernel
    have hSource : pingComponent.source = ⟨"ping", pingComponent.tokens⟩ :=
      congrArg (Imported.mk · pingComponent.tokens) hFile
    have hResolve : pingPong "page" "ping" = .ok ⟨"ping", pingText⟩ := rfl
    unfold importSource
    simp only [hResolve, hTokens, hSource]
  refine ⟨pingPong_circular, hLeads, hKnows, hImport, ?_⟩
  intro levels bag
  exact (circular_imports_fail pingPong_circular hLeads hKnows (.inl rfl) hImport).1 levels _ bag _

end HtmlTemplate
