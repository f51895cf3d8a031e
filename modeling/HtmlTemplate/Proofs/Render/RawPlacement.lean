import HtmlTemplate.Proofs.Markup.Escaping
import HtmlTemplate.Proofs.Render.Importing
import HtmlTemplate.Proofs.Render.Verbatim
import HtmlTemplate.Proofs.Render.Writing

/-! Raw elements in every place. A page on which nothing stands but a raw element, be it in the
body itself, in a branch, in a loop or in the content or the template of a component, shows the
element as it was written. -/
namespace HtmlTemplate

open Source

/-- What a page is rendered with. -/
def Options.pageContext (options : Options) (bag : Bag) (path : String) : Context :=
  ⟨options.visibleBag bag, (Session.start options.maxDepth).pageScopes.2, path⟩

/-- The session that it begins with. -/
def Options.pageSession (options : Options) : Session :=
  (Session.start options.maxDepth).pageScopes.1

/-- A page with a raw element in some place and no other markup, and what it should show. -/
inductive RawPlaced (options : Options) (resolve : Resolver) (bag : Bag) (path : String)
    (content : List Char) : (source document : List Char) → Prop where
  | served : RawPlaced options resolve bag path content (serveText (rawText content))
      (rawText content)
  | branch {k : Conditional} {holds : Bool} (hWellFormed : k.WellFormed)
      (hHolds : (options.pageContext bag path).conditionHolds options.pageSession k.value =
        .ok holds)
      (hSelected : k.selected holds = rawText content) :
      RawPlaced options resolve bag path content (serveText k.text) (rawText content ++ k.kept)
  | loop {l : Iteration} {head : LoopHead} (hWellFormed : l.WellFormed)
      (hHead : l.GoesOver (options.pageContext bag path) head)
      (hBlock : l.block = rawText content) :
      RawPlaced options resolve bag path content (serveText l.text)
        (List.replicate head.items.length (rawText content)).flatten
  | component {name importPath tag attributes : List Char} {file : String}
      (hName : IsComponentName name) (hPath : Setup.isComponentPath importPath = true)
      (hFound : resolve path (String.ofList importPath) =
        .ok ⟨file, String.ofList (serveText (rawText content))⟩)
      (hTag : IsTag tag) (hKind : classifyTag tag = .selfClosingTag)
      (hParts : tagParts? tag = some (name, attributes)) :
      RawPlaced options resolve bag path content (importText name importPath ++ serveText tag)
        (rawText content)
  | element {name importPath opening closing : List Char} {file : String}
      (hName : IsComponentName name) (hPath : Setup.isComponentPath importPath = true)
      (hFound : resolve path (String.ofList importPath) =
        .ok ⟨file, String.ofList (serveText (rawText content))⟩)
      (hOpening : IsTag opening) (hOpens : opened? opening = some name)
      (hRaw : isRawElement (String.ofList name) = false) (hClosing : IsTag closing)
      (hCloses : closed? closing = some name) :
      RawPlaced options resolve bag path content
        (importText name importPath ++ serveText (opening ++ closing)) (rawText content)
  | slot {name importPath opening closing : List Char} {file : String}
      (hName : IsComponentName name) (hPath : Setup.isComponentPath importPath = true)
      (hFound : resolve path (String.ofList importPath) =
        .ok ⟨file, String.ofList (serveText "@(slot)".toList)⟩)
      (hOpening : IsTag opening) (hOpens : opened? opening = some name)
      (hRaw : isRawElement (String.ofList name) = false) (hClosing : IsTag closing)
      (hCloses : closed? closing = some name) (hFree : bag.get? "slot" = none) :
      RawPlaced options resolve bag path content
        (importText name importPath ++ serveText (opening ++ (rawText content ++ closing)))
        (rawText content)

/-! The bag of the component. -/

namespace Bag

theorem get?_extend_of_none (bag : Bag) {other : Bag} {name : String}
    (h : other.get? name = none) : (bag.extend other).get? name = bag.get? name := by
  unfold Bag.extend
  induction other generalizing bag with
  | nil => rfl
  | cons entry rest ih =>
      rw [get?] at h
      split at h
      · cases h
      · next hKey =>
        rw [List.foldl_cons, ih _ h, get?_insert, if_neg hKey]

end Bag

section

variable {options : Options} {resolve : Resolver} {bag : Bag} {path : String}
  {content source document : List Char}

theorem get?_visibleBag_of_none {name : String} (hName : rawKey ≠ name) (h : bag.get? name = none) :
    (options.visibleBag bag).get? name = none := by
  unfold Options.visibleBag Bag.sanitize
  split
  · rw [Bag.get?_insert, if_neg hName, Data.get?_escapeFields, h]
    rfl
  · exact h

/-- A slot that nothing else is bound to. -/
theorem resolveReference_slot (e : Element) {user : Bag} (h : user.get? "slot" = none)
    (inner : List Char) :
    (resolveReference (e.parameters user inner) "slot".toList).toList = substitute user inner := by
  have hSlot : (e.parameters user inner).get? "slot" = some (.ofChars (substitute user inner)) := by
    unfold Element.parameters wrapBag
    rw [Bag.get?_extend_of_none _ h, Bag.get?_insert, if_pos rfl]
  have hSegments : pathSegments "slot" = ["slot"] := by decide +kernel
  have hLookup : (e.parameters user inner).lookup? "slot" =
      some (.ofChars (substitute user inner)) := by
    unfold Bag.lookup?
    rw [hSegments]
    dsimp only
    rw [hSlot]
    rfl
  have hTrim : Text.trim "slot".toList = "slot".toList := by decide +kernel
  have hSplit : Text.splitFirst? "||".toList "slot".toList = none := by decide +kernel
  unfold resolveReference
  dsimp only
  rw [hTrim, hSplit]
  dsimp only
  rw [String.ofList_toList, hLookup]
  exact String.toList_ofList

theorem not_mem_rawText {c : Char} (hContent : c ∉ content) (hOpening : c ∉ "<style>".toList)
    (hClosing : c ∉ "</style>".toList) : c ∉ rawText content := by
  unfold rawText
  intro hMem
  rcases List.mem_append.mp hMem with hFirst | hRest
  · exact hOpening hFirst
  · exact (List.mem_append.mp hRest).elim hContent hClosing

theorem rawText_ne_nil : rawText content ≠ [] := by
  unfold rawText
  exact List.append_ne_nil_of_left_ne_nil (by decide) _

theorem substitute_replicate (hContent : StaysRaw "style".toList content) (bag : Bag) (n : Nat) :
    substitute bag (List.replicate n (rawText content)).flatten =
      (List.replicate n (rawText content)).flatten := by
  induction n with
  | zero => exact substitute_nil bag
  | succ n ih => rw [List.replicate_succ, List.flatten_cons, substitute_rawText hContent, ih]

theorem substitute_rawText_single (hContent : StaysRaw "style".toList content) (bag : Bag) :
    substitute bag (rawText content) = rawText content := by
  have hText := substitute_rawText hContent bag []
  rwa [substitute_nil, List.append_nil] at hText

/-- In each turn of a loop there is the same. -/
theorem fillItems_rawText (hContent : StaysRaw "style".toList content) (bag : Bag)
    (binding : String) (items : List Data) : fillItems (rawText content) bag binding items =
      (List.replicate items.length (rawText content)).flatten := by
  unfold fillItems
  simp only [substitute_rawText_single hContent]
  rw [List.flatMap_def, List.map_const', List.length_zipIdx]

/-- The white space that a branch leaves is none of the characters that matter. -/
theorem Conditional.not_mem_kept {k : Conditional} (h : k.WellFormed) {c : Char}
    (hSpace : isSpace c = false) : c ∉ k.kept := by
  unfold Conditional.kept
  split
  · exact List.not_mem_nil
  · intro hMem
    exact absurd (List.all_eq_true.mp h.trailing c hMem) (by rw [hSpace]; exact nofun)

/-- A page is what it is parsed to, with its parameters put in and without marks. -/
theorem render_of_parsed {tokens : List Token} {html : List Char}
    (hScan : Token.scanTemplate (String.ofList source) path = .ok tokens)
    (hParsed : FreshPage.parsed ⟨resolve, options.maxDepth, tokens, options.visibleBag bag, path⟩ =
      .ok html)
    (hDocument : unshield (substitute (options.visibleBag bag) html) = document) :
    options.render resolve (String.ofList source) bag path = .ok (String.ofList document) := by
  rw [FreshPage.render_eq_parsed options resolve _ bag path hScan, hParsed, ← hDocument]
  rfl

/-- A page that serves a body whose tokens write a text. -/
theorem render_of_writes {P : List Token → Prop} {body html : List Char} {final : Session}
    (hYields : Yields P body [')'])
    (hWrites : ∀ tokens, P tokens → Writes (options.pageSession.nested resolve)
      (options.pageContext bag path) options.pageSession tokens html final)
    (hStylesheets : final.stylesheets.entries
      (Session.start options.maxDepth).pageScopes.2.stylesheets = [])
    (hScripts : final.scripts.entries (Session.start options.maxDepth).pageScopes.2.scripts = [])
    (hDocument : unshield (substitute (options.visibleBag bag) html) = document) :
    options.render resolve (String.ofList (serveText body)) bag path =
      .ok (String.ofList document) := by
  obtain ⟨tokens, inner, closing, hScan, hServes, hInner⟩ :=
    Token.scanTemplate_serveText hYields path
  refine render_of_parsed hScan ?_ hDocument
  exact FreshPage.parsed_servesBody hServes (fun r hContext hRest =>
    hWrites inner hInner true r closing (congrArg Prod.fst hServes.closes) hContext hRest)
    hStylesheets hScripts

/-- A page that serves a component's elements, whose template serves a body that is copied. -/
theorem render_of_fills {name importPath body ctext html : List Char} {file : String}
    {lexemes : List (TokenKind × String)} (hName : IsComponentName name)
    (hPath : Setup.isComponentPath importPath = true)
    (hFound : resolve path (String.ofList importPath) = .ok ⟨file, String.ofList (serveText ctext)⟩)
    (hFilled : Found (fun tokens => ∀ session scopes, Copied session scopes tokens) ctext [')'])
    (hYields : Yields (Lexed lexemes) body [')'])
    (hWrites : ∀ session k tokens,
      session.component? (options.pageContext bag path).scopes (String.ofList name) = some k →
      k.Fills resolve session.enter ctext → session.depth = 0 →
      session.maxDepth = options.maxDepth → Lexed lexemes tokens →
      Writes (session.nested resolve) (options.pageContext bag path) session tokens html session)
    (hDocument : unshield (substitute (options.visibleBag bag) html) = document) :
    options.render resolve (String.ofList (importText name importPath ++ serveText body)) bag path =
      .ok (String.ofList document) := by
  obtain ⟨tokens, hScan, hLexemes⟩ := scanTemplate_importText hName hPath hYields path
  let page : FreshPage := ⟨resolve, options.maxDepth, tokens, options.visibleBag bag, path⟩
  obtain ⟨location, served, inner, closing, hPreamble, hServes, hInner⟩ :=
    preamble_importText hPath hLexemes page.start.endLocation
  obtain ⟨ctokens, cinner, cclosing, hCScan, hCServes, rfl, hCopied⟩ :=
    Token.scanTemplate_serveText hFilled file
  let found : Imported := ⟨file, ctokens⟩
  have hSource : importSource page.resolve page.file (String.ofList importPath) location =
      .ok found := by
    unfold importSource
    rw [show page.resolve page.file (String.ofList importPath) = _ from hFound]
    dsimp only
    rw [hCScan]
  have hEntries := page.entries_importing (String.ofList name) found
  have hFills : (page.imported (String.ofList name) found).Fills resolve
      (page.importing (String.ofList name) found).enter (valuesText cinner) := fun nested bag =>
    Rendering.renderComponent_servesBody (page.importing (String.ofList name) found).enter
      hCServes hCopied
      hEntries.2.1 hEntries.2.2 nested resolve bag
  refine render_of_parsed hScan ?_ hDocument
  refine FreshPage.parsed_of_import hPreamble hSource hServes (fun r hContext hRest => ?_)
    hEntries.1.1 hEntries.1.2
  exact hWrites (page.importing (String.ofList name) found) _ inner
    (page.component?_importing (String.ofList name) found) hFills rfl rfl hInner true r closing
    (congrArg Prod.fst hServes.closes) hContext hRest

/-- A raw element is found as tokens that are copied. -/
theorem copied_rawText (h : StaysRaw "style".toList content) (behind : List Char) :
    Found (fun tokens => ∀ session scopes, Copied session scopes tokens) (rawText content) behind :=
  (found_rawText h behind).imp fun _ hLexed => copied_rawLexemes hLexed

/-- By itself, it is markup that is copied. -/
theorem scanMarkup_rawText (h : StaysRaw "style".toList content) (file : String) :
    ∃ tokens, Token.scanMarkup (String.ofList (rawText content)) file = .ok tokens ∧
      valuesText tokens = rawText content ∧ ∀ session scopes, Copied session scopes tokens := by
  obtain ⟨tokens, after, hScans, hAfter, hValues, hCopied⟩ := copied_rawText h [] file
    (.start (String.ofList (rawText content)).toList)
    ((String.toList_ofList).trans (List.append_nil _).symm)
  exact ⟨tokens, hScans.scanFrom_eq hAfter, hValues, hCopied⟩

/-- What it comes to in the template of the component. -/
theorem substitute_slot_of_none (e : Element) {user : Bag} (h : user.get? "slot" = none)
    (inner : List Char) : substitute (e.parameters user inner) "@(slot)".toList =
      shield (substitute user inner) := by
  have hInner : referenceInner? "slot)".toList = some ("slot".toList, []) := by decide
  have hReference := substitute_reference (e.parameters user inner) hInner
  rw [substitute_nil, List.append_nil, resolveReference_slot e h] at hReference
  exact hReference

theorem lexemesText_rawLexemes (content : List Char) :
    lexemesText (rawLexemes content) = rawText content := by
  unfold lexemesText rawLexemes rawText contentLexemes
  split
  · next hNone =>
    subst hNone
    rfl
  · simp

/-- A reference is copied as it stands. -/
theorem found_slot : Found (fun tokens => ∀ session scopes, Copied session scopes tokens)
    "@(slot)".toList [')'] := by
  have hEnclosed : enclosed? plainParens 0 none "slot)".toList = some "slot)".toList := by decide
  refine (found_reference hEnclosed [')']).imp fun tokens hLexed session scopes => ?_
  obtain ⟨t, rfl, hLexeme⟩ := lexed_single hLexed
  exact copied_reference (value_of_lexeme hLexeme).1

/-- The element of a component, written with two tags around markup that is copied. -/
theorem writes_paired {name opening closing ctext : List Char} {k : Component} {context : Context}
    {session : Session} {lexemes : List (TokenKind × String)} {tokens : List Token}
    (hOpens : opened? opening = some name) (hRaw : isRawElement (String.ofList name) = false)
    (hCloses : closed? closing = some name)
    (hInner : ∀ inner, Lexed lexemes inner → (∀ session scopes, Copied session scopes inner) ∧
      Balances (·.opens (String.ofList name)) (·.closes (String.ofList name)) 0 inner)
    (hFound : session.component? context.scopes (String.ofList name) = some k)
    (hFills : k.Fills resolve session.enter ctext) (hDepth : session.depth < session.maxDepth)
    (hTokens : Lexed ((classifyTag opening, String.ofList opening) ::
      (lexemes ++ [(classifyTag closing, String.ofList closing)])) tokens) :
    ∃ e : Element, Writes (session.nested resolve) context session tokens
      (substitute (e.parameters context.bag (lexemesText lexemes)) ctext) session := by
  obtain ⟨hKind, attributes, hParts⟩ := opened?_eq_some_iff.mp hOpens
  obtain ⟨hLastKind, hName⟩ := closed?_eq_some_iff.mp hCloses
  obtain ⟨t, _, rfl, hTag, hRest⟩ := List.map_eq_cons_iff.mp hTokens
  obtain ⟨inner, last, rfl, hLexed, hLast⟩ := List.map_eq_append_iff.mp hRest
  obtain ⟨u, rfl, hClose⟩ := lexed_single hLast
  obtain ⟨hTagKind, hTagValue⟩ := value_of_lexeme hTag
  obtain ⟨hCloseKind, hCloseValue⟩ := value_of_lexeme hClose
  obtain ⟨hCopied, hBalanced⟩ := hInner inner hLexed
  let e : Element := ⟨t, String.ofList name, attributes, inner, u⟩
  have hInvokes : e.Invokes session context.scopes k := by
    refine ⟨hTagKind.trans hKind, ?_, hRaw, hFound, hBalanced, ?_⟩
    · rw [hTagValue, String.toList_ofList, hParts]
    · simp [Token.closes, Token.closedElement?, e, hCloseKind, hLastKind, hCloseValue, hName]
  refine ⟨e, ?_⟩
  have hWrites := Element.writes hInvokes (hCopied _ _) hFills hDepth
  rwa [valuesText_of_lexed hLexed] at hWrites

/-- A page with such an element. -/
theorem render_of_paired {name importPath opening closing ctext inner html : List Char}
    {file : String} {lexemes : List (TokenKind × String)} (hDepth : 0 < options.maxDepth)
    (hName : IsComponentName name) (hPath : Setup.isComponentPath importPath = true)
    (hFound : resolve path (String.ofList importPath) = .ok ⟨file, String.ofList (serveText ctext)⟩)
    (hFilled : Found (fun tokens => ∀ session scopes, Copied session scopes tokens) ctext [')'])
    (hOpening : IsTag opening) (hOpens : opened? opening = some name)
    (hRaw : isRawElement (String.ofList name) = false) (hClosing : IsTag closing)
    (hCloses : closed? closing = some name)
    (hInner : Found (Lexed lexemes) inner (closing ++ [')']))
    (hTokens : ∀ tokens, Lexed lexemes tokens → (∀ session scopes, Copied session scopes tokens) ∧
      Balances (·.opens (String.ofList name)) (·.closes (String.ofList name)) 0 tokens)
    (hHtml : ∀ e : Element, substitute (e.parameters (options.visibleBag bag) (lexemesText lexemes))
      ctext = html)
    (hDocument : unshield (substitute (options.visibleBag bag) html) = document) :
    options.render resolve
      (String.ofList (importText name importPath ++ serveText (opening ++ (inner ++ closing)))) bag
        path = .ok (String.ofList document) := by
  have hFirst := rawName?_of_opened? hOpens hRaw
  have hLast := rawName?_of_closed? hCloses
  have hYields : Yields (Lexed ((classifyTag opening, String.ofList opening) ::
      (lexemes ++ [(classifyTag closing, String.ofList closing)])))
      (opening ++ (inner ++ closing)) [')'] := by
    refine Found.yields (Found.between (found_tag hOpening hFirst _) hInner
      (found_tag hClosing hLast _) fun t u tokens hTag hClose hLexed => ?_)
    unfold Lexed at hLexed ⊢
    simp [hTag, hClose, hLexed]
  refine render_of_fills hName hPath hFound hFilled hYields ?_ hDocument
  intro session k tokens hComponent hFills hZero hMax hLexed
  obtain ⟨e, hWrites⟩ := writes_paired hOpens hRaw hCloses hTokens hComponent hFills
    (by rw [hZero, hMax]; exact hDepth) hLexed
  have hBag : (options.pageContext bag path).bag = options.visibleBag bag := rfl
  rwa [hBag, hHtml e] at hWrites

/-- Neither substitution nor what is done last with marks changes a raw element. -/
theorem shown_rawText (hContent : StaysRaw "style".toList content) (hMark : shieldMark ∉ content)
    (bag : Bag) : unshield (substitute bag (rawText content)) = rawText content := by
  rw [substitute_rawText_single hContent, unshield_eq_self_iff]
  exact not_mem_rawText hMark (by decide) (by decide)

/-- A raw element in the block that a branch takes. -/
theorem render_rawBranch {k : Conditional} {holds : Bool} (hDepth : 0 < options.maxDepth)
    (hContent : StaysRaw "style".toList content) (hMark : shieldMark ∉ content)
    (hWellFormed : k.WellFormed)
    (hHolds : (options.pageContext bag path).conditionHolds options.pageSession k.value = .ok holds)
    (hSelected : k.selected holds = rawText content) :
    options.render resolve (String.ofList (serveText k.text)) bag path =
      .ok (String.ofList (rawText content ++ k.kept)) := by
  obtain ⟨inner, hScan, hValues, hCopied⟩ := scanMarkup_rawText hContent path
  have hYields : Yields (Lexed k.lexemes) k.text [')'] :=
    yields_of_scansTo fun file _ => k.scansTo file hWellFormed
  have hWrites (tokens : List Token) (h : Lexed k.lexemes tokens) :
      Writes (options.pageSession.nested resolve) (options.pageContext bag path)
        options.pageSession tokens (rawText content ++ k.kept) _ :=
    hValues ▸ Conditional.writes h hHolds (hSelected ▸ rawText_ne_nil) hDepth
      (hSelected ▸ hScan) hCopied
  have hKept (c : Char) (hSpace : isSpace c = false) : c ∉ k.kept :=
    Conditional.not_mem_kept hWellFormed hSpace
  refine render_of_writes hYields hWrites rfl rfl ?_
  rw [substitute_rawText hContent, substitute_of_not_mem _ (hKept '@' (by decide)),
    unshield_eq_self_iff, List.mem_append, not_or]
  exact ⟨not_mem_rawText hMark (by decide) (by decide), hKept shieldMark (by decide)⟩

/-- A raw element in the block of a loop, once for each item. -/
theorem render_rawLoop {l : Iteration} {head : LoopHead} (hDepth : 0 < options.maxDepth)
    (hContent : StaysRaw "style".toList content) (hMark : shieldMark ∉ content)
    (hWellFormed : l.WellFormed) (hHead : l.GoesOver (options.pageContext bag path) head)
    (hBlock : l.block = rawText content) :
    options.render resolve (String.ofList (serveText l.text)) bag path =
      .ok (String.ofList (List.replicate head.items.length (rawText content)).flatten) := by
  obtain ⟨inner, hScan, hValues, hCopied⟩ := scanMarkup_rawText hContent path
  have hYields : Yields (Lexed l.lexemes) l.text [')'] :=
    yields_of_scansTo fun file _ => Iteration.scansTo file hWellFormed
  have hWrites (tokens : List Token) (h : Lexed l.lexemes tokens) :
      Writes (options.pageSession.nested resolve) (options.pageContext bag path)
        options.pageSession tokens (fillItems (rawText content) (options.visibleBag bag)
          head.binding head.items) _ :=
    hValues ▸ Iteration.writes h hHead hDepth (hBlock ▸ hScan) hCopied
  refine render_of_writes hYields hWrites rfl rfl ?_
  rw [fillItems_rawText hContent, substitute_replicate hContent, unshield_eq_self_iff]
  intro hMem
  obtain ⟨part, hPart, hInPart⟩ := List.mem_flatten.mp hMem
  rw [List.eq_of_mem_replicate hPart] at hInPart
  exact not_mem_rawText hMark (by decide) (by decide) hInPart

/-- A raw element in the template of a component that is used without content. -/
theorem render_rawComponent {name importPath tag attributes : List Char} {file : String}
    (hDepth : 0 < options.maxDepth) (hContent : StaysRaw "style".toList content)
    (hMark : shieldMark ∉ content) (hName : IsComponentName name)
    (hPath : Setup.isComponentPath importPath = true)
    (hFound : resolve path (String.ofList importPath) =
      .ok ⟨file, String.ofList (serveText (rawText content))⟩)
    (hTag : IsTag tag) (hKind : classifyTag tag = .selfClosingTag)
    (hParts : tagParts? tag = some (name, attributes)) :
    options.render resolve (String.ofList (importText name importPath ++ serveText tag)) bag path =
      .ok (String.ofList (rawText content)) := by
  have hRaw : rawName? tag = none := by simp [rawName?, opened?, hKind]
  refine render_of_fills hName hPath hFound (copied_rawText hContent [')'])
    (found_tag hTag hRaw _).yields ?_ (shown_rawText hContent hMark _)
  intro session k tokens hComponent hFills hZero hMax hLexed
  obtain ⟨t, rfl, hLexeme⟩ := lexed_single hLexed
  obtain ⟨hTokenKind, hValue⟩ := value_of_lexeme hLexeme
  have hWrites := writes_closedElement (hTokenKind.trans hKind) (by rw [hValue, hParts])
    hComponent hFills (by rw [hZero, hMax]; exact hDepth)
  rwa [substitute_rawText_single hContent] at hWrites

/-- A raw element as the content of a component that shows its content. -/
theorem render_rawSlot {name importPath opening closing : List Char} {file : String}
    (hDepth : 0 < options.maxDepth) (hContent : StaysRaw "style".toList content)
    (hMark : shieldMark ∉ content) (hName : IsComponentName name)
    (hPath : Setup.isComponentPath importPath = true)
    (hFound : resolve path (String.ofList importPath) =
      .ok ⟨file, String.ofList (serveText "@(slot)".toList)⟩)
    (hOpening : IsTag opening) (hOpens : opened? opening = some name)
    (hRaw : isRawElement (String.ofList name) = false) (hClosing : IsTag closing)
    (hCloses : closed? closing = some name) (hFree : bag.get? "slot" = none) :
    options.render resolve (String.ofList (importText name importPath ++
      serveText (opening ++ (rawText content ++ closing)))) bag path =
        .ok (String.ofList (rawText content)) := by
  have hUser : (options.visibleBag bag).get? "slot" = none :=
    get?_visibleBag_of_none (by decide) hFree
  have hSlot (e : Element) : substitute
      (e.parameters (options.visibleBag bag) (lexemesText (rawLexemes content)))
        "@(slot)".toList = rawText (shield content) := by
    refine (substitute_slot_of_none e hUser _).trans ?_
    rw [lexemesText_rawLexemes, substitute_rawText_single hContent, shield_rawText]
  refine render_of_paired hDepth hName hPath hFound found_slot hOpening hOpens hRaw hClosing
    hCloses (found_rawText hContent _) (fun tokens hLexed =>
      ⟨copied_rawLexemes hLexed, balances_rawLexemes hLexed hRaw⟩) hSlot ?_
  rw [substitute_rawText_single (hContent.shield hMark), ← shield_rawText, unshield_shield]
  exact not_mem_rawText hMark (by decide) (by decide)

/-- Raw elements are verbatim in every placement. -/
theorem Options.render_rawPlaced (hDepth : 0 < options.maxDepth)
    (hContent : StaysRaw "style".toList content) (hMark : shieldMark ∉ content)
    (h : RawPlaced options resolve bag path content source document) :
    options.render resolve (String.ofList source) bag path = .ok (String.ofList document) := by
  cases h with
  | served =>
      have hWrites (tokens : List Token) (h : valuesText tokens = rawText content ∧
          ∀ session scopes, Copied session scopes tokens) :
          Writes (options.pageSession.nested resolve) (options.pageContext bag path)
            options.pageSession tokens (rawText content) options.pageSession :=
        h.1 ▸ Copied.writes (h.2 _ _)
      exact render_of_writes (copied_rawText hContent [')']) hWrites rfl rfl
        (shown_rawText hContent hMark _)
  | branch hWellFormed hHolds hSelected =>
      exact render_rawBranch hDepth hContent hMark hWellFormed hHolds hSelected
  | loop hWellFormed hHead hBlock =>
      exact render_rawLoop hDepth hContent hMark hWellFormed hHead hBlock
  | component hName hPath hFound hTag hKind hParts =>
      exact render_rawComponent hDepth hContent hMark hName hPath hFound hTag hKind hParts
  | @element name importPath opening closing file hName hPath hFound hOpening hOpens hRaw hClosing
      hCloses =>
      have hNone (tokens : List Token) (hLexed : Lexed [] tokens) :
          (∀ session scopes, Copied session scopes tokens) ∧
            Balances (·.opens (String.ofList name)) (·.closes (String.ofList name)) 0 tokens := by
        obtain rfl : tokens = [] := List.map_eq_nil_iff.mp hLexed
        exact ⟨fun _ _ => copied_nil, balances_nil_iff.mpr rfl⟩
      have hRendered := render_of_paired hDepth hName hPath hFound (copied_rawText hContent [')'])
        hOpening hOpens hRaw hClosing hCloses (found_nil (P := Lexed []) rfl) hNone
        (fun e => substitute_rawText_single hContent _)
        (shown_rawText hContent hMark (options.visibleBag bag))
      rwa [List.nil_append] at hRendered
  | slot hName hPath hFound hOpening hOpens hRaw hClosing hCloses hFree =>
      exact render_rawSlot hDepth hContent hMark hName hPath hFound hOpening hOpens hRaw hClosing
        hCloses hFree

end

/-- Every import leads to a component that shows its content. -/
def wrapping : Resolver :=
  fun _ path => .ok ⟨path, String.ofList (serveText "@(slot)".toList)⟩

/-- A page with a raw element as the content of such a component. -/
def wrappedText (content : List Char) : List Char :=
  importText "Wrap".toList "wrap".toList ++
    serveText ("<Wrap>".toList ++ (rawText content ++ "</Wrap>".toList))

theorem rawPlaced_wrappedText (options : Options) (bag : Bag) (hFree : bag.get? "slot" = none)
    (content : List Char) :
    RawPlaced options wrapping bag "page" content (wrappedText content) (rawText content) := by
  have hName : IsComponentName "Wrap".toList := ⟨by decide, by decide +kernel⟩
  have hPath : Setup.isComponentPath "wrap".toList = true := by decide +kernel
  have hOpening : IsTag "<Wrap>".toList := ⟨⟨"Wrap".toList, rfl, by decide⟩, by decide⟩
  have hOpens : opened? "<Wrap>".toList = some "Wrap".toList := by decide +kernel
  have hRaw : isRawElement (String.ofList "Wrap".toList) = false := by decide +kernel
  have hClosing : IsTag "</Wrap>".toList := ⟨⟨"/Wrap".toList, rfl, by decide⟩, by decide⟩
  have hCloses : closed? "</Wrap>".toList = some "Wrap".toList := by decide +kernel
  have hFound : wrapping "page" (String.ofList "wrap".toList) =
    .ok ⟨String.ofList "wrap".toList, String.ofList (serveText "@(slot)".toList)⟩ := rfl
  exact .slot hName hPath hFound hOpening hOpens hRaw hClosing hCloses hFree

/-- Content that looks like a reference, a branch, a comment, a call and a brace. -/
def trickyStyle : List Char :=
  "@(a)@if (b) \x7b<!--@f()".toList

/-- As the content of a component it is shown as it was written. -/
theorem render_trickyStyle : 0 < ({} : Options).maxDepth ∧ StaysRaw "style".toList trickyStyle ∧
    shieldMark ∉ trickyStyle ∧
    RawPlaced {} wrapping [] "page" trickyStyle (wrappedText trickyStyle) (rawText trickyStyle) ∧
    ({} : Options).render wrapping (String.ofList (wrappedText trickyStyle)) [] "page" =
      .ok (String.ofList (rawText trickyStyle)) := by
  have hDepth : 0 < ({} : Options).maxDepth := by decide
  have hContent : StaysRaw "style".toList trickyStyle := by decide +kernel
  have hMark : shieldMark ∉ trickyStyle := by decide +kernel
  have hPlaced := rawPlaced_wrappedText {} [] rfl trickyStyle
  exact ⟨hDepth, hContent, hMark, hPlaced, Options.render_rawPlaced hDepth hContent hMark hPlaced⟩

/-- A user who has a slot of its own does not see the content at all. -/
theorem content_not_shown : ¬∀ (bag : Bag) (content : List Char), StaysRaw "style".toList content →
    shieldMark ∉ content →
      ({} : Options).render wrapping (String.ofList (wrappedText content)) bag "page" =
        .ok (String.ofList (rawText content)) := by
  intro h
  have hShown := h [("slot", .string "x")] [] (by decide) (by decide)
  have hRendered : ({} : Options).render wrapping (String.ofList (wrappedText []))
      [("slot", .string "x")] "page" = .ok "x" := toOption_eq_some.mp (by decide +kernel)
  exact absurd (hRendered.symm.trans hShown) (by decide +kernel)

end HtmlTemplate
