import HtmlTemplate.Proofs.Raw.Markup
import HtmlTemplate.Proofs.Raw.Source
import HtmlTemplate.Proofs.Render.Templates
import HtmlTemplate.Proofs.Session.Growth

/-! Rendering where the raw data is in reach and where it is not. Templates that cannot
name the raw data keep everything plain that they put into a session or write, and so the
two renderings go on in lockstep. -/
namespace HtmlTemplate

open Text (Plain)

/-- A component whose tokens are all plain. -/
def Component.Plain (k : Component) : Prop := ∀ t ∈ k.tokens, t.Plain

/-- A resolver that finds plain sources. -/
def PlainResolver (resolve : Resolver) : Prop :=
  ∀ file path found, resolve file path = .ok found → Plain found.text.toList

/-- All that the templates of a session have put into it is plain. -/
structure Session.Plain (session : Session) : Prop where
  components : session.components.Binds Component.Plain
  stylesheets : session.stylesheets.Binds fun path => Text.Plain path.toList
  scripts : session.scripts.Binds fun path => Text.Plain path.toList
  functions : session.functions.Binds Function.Plain

namespace Session

variable {session after : Session}

theorem plain_start (limit : Nat) : (start limit).Plain where
  components := ScopeArena.binds_empty
  stylesheets := ScopeArena.binds_empty
  scripts := ScopeArena.binds_empty
  functions := ScopeArena.binds_empty

theorem Plain.opens (h : session.Plain) (hOpens : session.Opens after) : after.Plain where
  components := h.components.opens hOpens.components
  stylesheets := h.stylesheets.opens hOpens.stylesheets
  scripts := h.scripts.opens hOpens.scripts
  functions := h.functions.opens hOpens.functions

theorem Plain.defineFunction (h : session.Plain) (scopes : Scopes) {f : Function} (hf : f.Plain) :
    (Setup.defineFunction scopes session f).Plain :=
  { h with functions := h.functions.define _ _ hf }

theorem Plain.defineFunctions (h : session.Plain) (scopes : Scopes) {fs : List Function}
    (hAll : ∀ f ∈ fs, f.Plain) : (fs.foldl (Setup.defineFunction scopes) session).Plain := by
  induction fs generalizing session with
  | nil => exact h
  | cons f rest ih =>
      obtain ⟨hFirst, hRest⟩ := List.forall_mem_cons.mp hAll
      exact ih (h.defineFunction scopes hFirst) hRest

theorem Plain.registerAsset (h : session.Plain) (scopes : Scopes) {path : String}
    (hPath : Text.Plain path.toList) (kind : AssetKind) :
    (Setup.registerAsset scopes session path kind).Plain := by
  cases kind with
  | stylesheet => exact { h with stylesheets := h.stylesheets.define _ _ hPath }
  | script => exact { h with scripts := h.scripts.define _ _ hPath }

theorem Plain.addComponent (h : session.Plain) (importer : Scopes) (name : String)
    {found : Imported} (hTokens : ∀ t ∈ found.tokens, t.Plain) :
    (session.addComponent importer name found).Plain := by
  have hOpened := h.opens (session.opens_componentScopes importer)
  have hComponent : (session.importedComponent importer name found).Plain := hTokens
  exact { hOpened with components := hOpened.components.define _ _ hComponent }

end Session

theorem plain_importSource {resolve : Resolver} (hResolve : PlainResolver resolve)
    {file path : String} {location : Location} {found : Imported}
    (h : importSource resolve file path location = .ok found) : ∀ t ∈ found.tokens, t.Plain := by
  unfold importSource at h
  split at h
  · cases h
  · next source hSource =>
    split at h
    · cases h
    · next tokens hTokens =>
      cases h
      exact Token.plain_scan (hResolve file path source hSource) hTokens

theorem plain_withAssetExtension {path : String} (h : Plain path.toList) (kind : AssetKind) :
    Plain (withAssetExtension path kind.extension).toList := by
  unfold withAssetExtension
  dsimp only
  split
  · exact h
  · rw [String.toList_append, String.toList_append, Text.plain_append]
    refine ⟨h, ?_⟩
    cases kind <;> decide

namespace Setup

/-- A statement that puts nothing but plain things into a session. -/
def Plain : Setup → Prop
  | .useFunctions group => ∀ b ∈ group, b.KeepsPlain
  | .importComponent _ _ _ => True
  | .linkAsset _ path => Text.Plain path.toList
  | .declare f => f.Plain

section

variable {endAt : Location} {tokens : List Token} {statement : Setup}
  (hTokens : ∀ t ∈ tokens, t.Plain)

theorem plain_of_readUse (h : (readUse endAt tokens).value = .ok statement) : statement.Plain := by
  unfold readUse at h
  obtain ⟨name, -, h⟩ := Reading.bind_value_eq_ok.mp h
  cases hGroup : Builtin.group? name.value with
  | none =>
      rw [hGroup] at h
      cases h
  | some group =>
      rw [hGroup] at h
      cases h
      exact Builtin.plain_group hGroup

theorem plain_of_readImport (h : (readImport endAt tokens).value = .ok statement) :
    statement.Plain := by
  unfold readImport at h
  obtain ⟨name, -, h⟩ := Reading.bind_value_eq_ok.mp h
  obtain ⟨word, -, h⟩ := Reading.bind_value_eq_ok.mp h
  obtain ⟨literal, -, h⟩ := Reading.bind_value_eq_ok.mp h
  cases hPath : (Text.unquote? literal.value.toList).filter isComponentPath with
  | none =>
      rw [hPath] at h
      cases h
  | some path =>
      rw [hPath] at h
      cases h
      trivial

include hTokens

theorem plain_of_readAsset {kind : AssetKind}
    (h : (readAsset endAt kind tokens).value = .ok statement) : statement.Plain := by
  unfold readAsset at h
  obtain ⟨literal, hLiteral, h⟩ := Reading.bind_value_eq_ok.mp h
  have hText : literal.Plain := hTokens literal (Reading.expect_value_eq_ok hLiteral).2
  cases hPath : (Text.unquote? literal.value.toList).filter isAssetPath with
  | none =>
      rw [hPath] at h
      cases h
  | some path =>
      rw [hPath] at h
      cases h
      have hInner : Text.Plain path := hText.unquote (Option.filter_eq_some_iff.mp hPath).1
      exact plain_withAssetExtension (Text.plain_ofList.mpr hInner) kind

theorem plain_of_readFunction (h : (readFunction endAt tokens).value = .ok statement) :
    statement.Plain := by
  unfold readFunction at h
  obtain ⟨name, hName, h⟩ := Reading.bind_value_eq_ok.mp h
  split at h
  · cases h
  · obtain ⟨paren, -, h⟩ := Reading.bind_value_eq_ok.mp h
    obtain ⟨params, -, h⟩ := Reading.bind_value_eq_ok.mp h
    obtain ⟨body, hBody, h⟩ := Reading.bind_value_eq_ok.mp h
    have hText : body.Plain := by
      refine hTokens body ?_
      have hMem := (Reading.expect_value_eq_ok hBody).2
      exact Reading.mem_of_mem_rest (Reading.mem_of_mem_rest (Reading.mem_of_mem_rest hMem))
    cases hCompiled : Function.compile name.value params body.value with
    | error e =>
        rw [hCompiled] at h
        cases h
    | ok f =>
        rw [hCompiled] at h
        cases h
        exact Function.plain_of_compile hText hCompiled

/-- What is read from plain tokens puts nothing but plain things into a session. -/
theorem plain_of_reader {keyword : Keyword} {reader : Reading Setup}
    (hReader : reader? endAt keyword = some reader) (h : (reader tokens).value = .ok statement) :
    statement.Plain := by
  cases keyword with
  | useModule =>
      cases hReader
      exact plain_of_readUse h
  | asName =>
      cases hReader
      exact plain_of_readImport h
  | linkPath =>
      cases hReader
      exact plain_of_readAsset hTokens h
  | importPath =>
      cases hReader
      exact plain_of_readAsset hTokens h
  | function =>
      cases hReader
      exact plain_of_readFunction hTokens h
  | serve => cases hReader
  | ifBranch => cases hReader
  | elseBranch => cases hReader
  | eachItem => cases hReader

end

theorem plain_run {resolve : Resolver} (hResolve : PlainResolver resolve) (context : Context)
    {session : Session} (hSession : session.Plain) {statement : Setup} (h : statement.Plain) :
    (statement.run resolve context session).2.Plain := by
  cases statement with
  | useFunctions group => exact hSession.defineFunctions _ (List.forall_mem_map.mpr h)
  | importComponent name path location =>
      unfold run
      dsimp only
      rw [defineComponent_eq]
      split
      · exact hSession
      · split
        · exact hSession
        · next found hFound =>
          exact hSession.addComponent _ name (plain_importSource hResolve hFound)
  | linkAsset kind path => exact hSession.registerAsset _ h kind
  | declare f => exact hSession.defineFunction _ h

/-- A statement takes no notice of parameters. -/
theorem run_withBag (resolve : Resolver) (context : Context) (bag : Bag) (session : Session)
    (statement : Setup) :
    statement.run resolve { context with bag } session = statement.run resolve context session := by
  cases statement <;> rfl

end Setup

/-! Assets that are linked. -/

theorem plain_splitHead {html before head : List Char} (h : Plain html)
    (hSplit : splitHead? html = some (before, head)) : Plain before ∧ Plain head := by
  induction html generalizing before with
  | nil => cases hSplit
  | cons c rest ih =>
      obtain ⟨hFirst, hRest⟩ := Text.plain_cons.mp h
      unfold splitHead? at hSplit
      split at hSplit
      · split at hSplit
        · cases hSplit
          exact ⟨Text.plain_nil, h⟩
        · cases hSplit
      · obtain ⟨⟨inner, behind⟩, hFound, hEq⟩ := Option.map_eq_some_iff.mp hSplit
        cases hEq
        obtain ⟨hInner, hHead⟩ := ih hRest hFound
        exact ⟨Text.plain_cons.mpr ⟨hFirst, hInner⟩, hHead⟩

theorem plain_splitLinkPlace {head : List Char} (h : Plain head) :
    Plain (splitLinkPlace head).1 ∧ Plain (splitLinkPlace head).2 := by
  unfold splitLinkPlace
  split
  · next before after hTitle =>
    obtain ⟨hBefore, hAfter⟩ := h.splitFirst hTitle
    exact ⟨Text.plain_append.mpr ⟨hBefore, by decide⟩, hAfter⟩
  · exact ⟨Text.plain_append.mpr ⟨h.takeWhile _, by decide⟩, h.drop _⟩

theorem AssetKind.plain_tag {path : String} (h : Plain path.toList) (kind : AssetKind) :
    Plain (kind.tag path).toList := by
  cases kind with
  | stylesheet =>
      unfold tag
      rw [String.toList_append, String.toList_append]
      exact Text.plain_append.mpr ⟨Text.plain_append.mpr ⟨by decide, h⟩, by decide⟩
  | script =>
      unfold tag
      rw [String.toList_append, String.toList_append]
      exact Text.plain_append.mpr ⟨Text.plain_append.mpr ⟨by decide, h⟩, by decide⟩

theorem AssetKind.plain_tags {paths : List String} (h : ∀ path ∈ paths, Plain path.toList)
    (kind : AssetKind) : Plain ((paths.map kind.tag).flatMap String.toList) := by
  rw [List.flatMap_def]
  apply Text.plain_flatten.mpr
  intro text hText
  obtain ⟨tag, hTag, rfl⟩ := List.mem_map.mp hText
  obtain ⟨path, hPath, rfl⟩ := List.mem_map.mp hTag
  exact kind.plain_tag (h path hPath)

theorem plain_linkAssets {html text : List Char} {stylesheets scripts : List String}
    (h : Plain html) (hStylesheets : ∀ path ∈ stylesheets, Plain path.toList)
    (hScripts : ∀ path ∈ scripts, Plain path.toList)
    (hLinked : linkAssets html stylesheets scripts = .ok text) : Plain text := by
  unfold linkAssets at hLinked
  split at hLinked
  · cases hLinked
    exact h
  · split at hLinked
    · cases hLinked
    · next before head hSplit =>
      cases hLinked
      obtain ⟨hBefore, hHead⟩ := plain_splitHead h hSplit
      obtain ⟨hUpTo, hAfter⟩ := plain_splitLinkPlace hHead
      rw [List.flatMap_append]
      have hTags := Text.plain_append.mpr ⟨AssetKind.stylesheet.plain_tags hStylesheets,
        AssetKind.script.plain_tags hScripts⟩
      have hHeaded := Text.plain_append.mpr ⟨Text.plain_append.mpr ⟨hBefore, hUpTo⟩, hTags⟩
      exact Text.plain_append.mpr ⟨hHeaded, hAfter⟩

/-! The two renderings. -/

/-- Two contexts that differ in the raw data of their bags alone. -/
structure Context.Twins (c d : Context) : Prop where
  scopes_eq : c.scopes = d.scopes
  file_eq : c.file = d.file
  bags : c.bag.Twins d.bag

theorem Context.Twins.environment {c d : Context} (h : c.Twins d) {session : Session}
    (hSession : session.Plain) : (c.environment session).Twins (d.environment session) where
  value_same name hName := h.bags.same name hName
  value_plain name v hName hFound := h.bags.plain name v hName hFound
  path_same _ hPath := h.bags.lookup?_eq hPath
  path_plain _ _ hPath hFound := h.bags.plain_lookup? hPath hFound
  function_same := by
    unfold Context.environment Environment.ofBag
    rw [h.scopes_eq]
  function_plain _ _ hFound := hSession.functions.of_lookup? hFound

section

variable {c d : Context} {session : Session} {t : Token} (h : c.Twins d)
  (hSession : session.Plain) (hToken : t.Plain)

include h hToken

theorem loopHead_twin :
    c.loopHead t = d.loopHead t ∧
      ∀ head, c.loopHead t = .ok head → ∀ item ∈ head.items, item.Plain := by
  have hText : Plain ((insideParens? t.value.toList).getD t.value.toList) := by
    cases hInside : insideParens? t.value.toList with
    | none => exact hToken
    | some inside => exact plain_insideParens hToken hInside
  unfold Context.loopHead
  dsimp only
  cases hSplit : Text.splitFirst? [':'] ((insideParens? t.value.toList).getD t.value.toList) with
  | none => exact ⟨rfl, nofun⟩
  | some parts =>
      obtain ⟨path, binding⟩ := parts
      have hPath : Plain (String.ofList path).toList :=
        Text.plain_ofList.mpr (hText.splitFirst hSplit).1
      dsimp only
      rw [← h.bags.lookup?_eq hPath]
      split
      · exact ⟨rfl, nofun⟩
      · split
        · exact ⟨rfl, nofun⟩
        · split
          · next items hItems =>
            refine ⟨rfl, ?_⟩
            rintro _ ⟨⟩
            exact Data.plain_array.mp (h.bags.plain_lookup? hPath hItems)
          · exact ⟨rfl, nofun⟩

include hSession

theorem conditionHolds_twin :
    c.conditionHolds session t.value = d.conditionHolds session t.value := by
  have hTrimmed := Text.Plain.trim hToken
  have hInner : Plain (String.ofList ((insideParens? (Text.trim t.value.toList)).getD
      (Text.trim t.value.toList))).toList := by
    apply Text.plain_ofList.mpr
    cases hInside : insideParens? (Text.trim t.value.toList) with
    | none => exact hTrimmed
    | some inside => exact plain_insideParens hTrimmed hInside
  unfold Context.conditionHolds
  dsimp only
  rw [(Script.evaluate_twin (h.environment hSession) hInner).1]

theorem callText_twin :
    c.callText session t = d.callText session t ∧
      ∀ text, c.callText session t = .ok text → Plain text := by
  obtain ⟨hSame, hPlain⟩ := invokeCall_twin (h.environment hSession) hToken
  unfold Context.callText
  dsimp only
  rw [h.scopes_eq, ← hSame]
  split
  · exact ⟨rfl, nofun⟩
  · split
    · next value hValue =>
      refine ⟨rfl, ?_⟩
      rintro _ ⟨⟩
      refine plain_shield (Data.plain_stringify ?_)
      rintro _ ⟨⟩
      exact hPlain value hValue
    · exact ⟨rfl, nofun⟩

end

/-- Two renderings of templates that cannot name the raw data. They have the same session
and are never cut off. -/
def rawLockstep : Lockstep where
  Sessions p := ∃ session : Session, session.Plain ∧ p = (session, session)
  Later _ _ := True
  Contexts _ c d := c.Twins d
  Components _ k l := k = l ∧ k.Plain
  Bags a b := a.Twins b
  Text := Plain
  Piece := Token.Plain
  Head head := ∀ item ∈ head.items, item.Plain
  Cut _ := False
  later_refl _ := trivial
  later_trans _ _ := trivial
  contexts_later _ h := h
  components_later _ h := h
  file_eq h := h.file_eq
  bags_of_contexts h := h.bags
  contexts_withBag h hBags := ⟨h.scopes_eq, h.file_eq, hBags⟩
  components_found := by
    rintro _ c d ⟨session, hSession, rfl⟩ hContexts name
    dsimp only
    rw [← hContexts.scopes_eq]
    cases hFound : session.component? c.scopes name with
    | none => exact .none
    | some k => exact .some ⟨rfl, hSession.components.of_lookup? hFound⟩
  blocks := by
    rintro _ c d ⟨session, hSession, rfl⟩ hContexts
    dsimp only
    rw [← hContexts.scopes_eq]
    exact ⟨⟨_, hSession.opens (session.opens_blockScopes c.scopes), rfl⟩, trivial, rfl,
      hContexts.file_eq, hContexts.bags⟩
  enter := by
    rintro _ ⟨session, hSession, rfl⟩
    exact ⟨⟨_, hSession.opens session.opens_enter, rfl⟩, trivial⟩
  leave := by
    rintro _ ⟨session, hSession, rfl⟩
    exact ⟨⟨_, hSession.opens session.opens_leave, rfl⟩, trivial⟩
  callText_eq := by
    rintro _ c d t ⟨session, hSession, rfl⟩ hContexts hToken
    exact (callText_twin hContexts hSession hToken).1
  text_of_call := by
    rintro _ c d t text ⟨session, hSession, rfl⟩ hContexts hToken hText
    exact (callText_twin hContexts hSession hToken).2 text hText
  conditionHolds_eq := by
    rintro _ c d t ⟨session, hSession, rfl⟩ hContexts hToken
    exact conditionHolds_twin hContexts hSession hToken
  loopHead_eq hContexts hToken := (loopHead_twin hContexts hToken).1
  head_of_loop hContexts hToken := (loopHead_twin hContexts hToken).2 _
  attributes hBags hToken hParts := attributeBag_twin hBags (plain_tagParts hToken hParts)
  wrap hBags hUser hSlot := (hBags.insert "slot" (Data.plain_ofChars.mpr hSlot)).extend hUser
  forItem hBags hHead hItem _ :=
    (hBags.insert _ (hHead _ hItem)).insert loopIndexName (Data.plain_ofInt _)
  substitute_eq hBags hText := (substitute_twin hBags hText).1
  text_substitute hBags hText := (substitute_twin hBags hText).2
  text_nil := Text.plain_nil
  text_append hs ht := Text.plain_append.mpr ⟨hs, ht⟩
  text_of_piece h := h
  pieces_of_block hToken _ hTokens := Token.plain_scan hToken hTokens

section

variable {resolve : Resolver} (hResolve : PlainResolver resolve)

include hResolve

theorem raw_setup_alike (t : Token) : rawLockstep.SetupAlike resolve t := by
  rintro _ c d keyword endAt reader tokens statement ⟨session, hSession, rfl⟩ hContexts _ _
    hReader hTokens hRead
  have hStatement := Setup.plain_of_reader hTokens hReader hRead
  have hAfter := Setup.plain_run hResolve c hSession hStatement
  have hSame : statement.run resolve d session = statement.run resolve c session := by
    have hContext : d = { c with bag := d.bag } := by
      rw [hContexts.scopes_eq, hContexts.file_eq]
    rw [hContext, Setup.run_withBag]
  dsimp only
  rw [hSame]
  revert hAfter
  rcases statement.run resolve c session with ⟨result, after⟩
  intro hAfter
  cases result with
  | error e => exact .error ⟨after, hAfter, rfl⟩ trivial
  | ok _ => exact .ok trivial ⟨after, hAfter, rfl⟩ trivial

end

theorem raw_links_alike (p : Session × Session) {c d : Context} (h : c.Twins d) :
    rawLockstep.LinksAlike p c d := by
  rintro _ html r rfl _ ⟨session, hSession, rfl⟩ hHtml
  refine ⟨?_, ?_⟩
  · unfold Rendering.link Rendering.withContext
    dsimp only
    rw [h.scopes_eq, h.file_eq]
  · intro text hText
    unfold Rendering.link at hText
    dsimp only at hText
    split at hText
    · next linked hLinked =>
      cases hText
      refine plain_linkAssets hHtml ?_ ?_ hLinked
      · exact List.forall_mem_map.mpr (hSession.stylesheets _)
      · exact List.forall_mem_map.mpr (hSession.scripts _)
    · cases hText

theorem raw_nested_alike {resolve : Resolver} (hResolve : PlainResolver resolve) (levels : Nat) :
    rawLockstep.Alike (nestedWithin resolve levels) (nestedWithin resolve levels) := by
  refine Lockstep.nestedWithin_alike 0 ?_ ?_ levels
  · rintro _ c d task other token ⟨session, hSession, rfl⟩ _ _
    exact .error ⟨session, hSession, rfl⟩ trivial
  · rintro left right hNested p k _ a b hSessions ⟨rfl, hComponent⟩ hBags
    have hContexts : (⟨a, k.scopes, k.file⟩ : Context).Twins ⟨b, k.scopes, k.file⟩ :=
      ⟨rfl, rfl, hBags⟩
    exact Lockstep.renderComponent_alike hNested (raw_setup_alike hResolve) rfl hSessions
      hContexts (raw_links_alike p hContexts) hComponent

/-- Templates that cannot name the raw data give the same page with two bags that differ
in it alone. -/
theorem render_twin {options : Options} {resolve : Resolver} (hResolve : PlainResolver resolve)
    {source : String} (hSource : Plain source.toList) {a b : Bag}
    (h : (options.visibleBag a).Twins (options.visibleBag b)) (path : String) :
    options.render resolve source a path = options.render resolve source b path := by
  unfold Options.render
  cases hTokens : Token.scanTemplate source path with
  | error e => rfl
  | ok tokens =>
      let opened := (Session.start options.maxDepth).pageScopes
      have hContexts : (⟨options.visibleBag a, opened.2, path⟩ : Context).Twins
          ⟨options.visibleBag b, opened.2, path⟩ := ⟨rfl, rfl, h⟩
      have hSession : opened.1.Plain :=
        (Session.plain_start options.maxDepth).opens (Session.opens_pageScopes _)
      have hPage := Lockstep.document_alike (p := (opened.1, opened.1))
        (raw_nested_alike hResolve options.maxDepth) (raw_setup_alike hResolve) tokens
        ⟨opened.1, hSession, rfl⟩ hContexts (raw_links_alike _ hContexts)
        (Token.plain_scan hSource hTokens)
      have hSame := hPage.eq_of_uncut fun _ _ => id
      exact congrArg (Except.map String.ofList) hSame

end HtmlTemplate
