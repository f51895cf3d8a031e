import HtmlTemplate.Proofs.Session.Preamble
import Mathlib.Control.Monad.Basic

/-! Setup statements as transactions. What a statement changes is settled before anything is
changed: it has been read to its end, its path resolved, what it imports scanned and its
function compiled by then. So a statement that fails leaves the session as it was, and what is
left of a template that fails was made by statements that were carried out in full. -/
namespace HtmlTemplate

/-- What a setup statement changes in a session. An import changes nothing where its name is
taken. -/
inductive Change where
  | nothing
  | functions (fs : List Function)
  | component (name : String) (found : Imported)
  | asset (kind : AssetKind) (path : String)

/-- The session with a change that the template with some frames makes. -/
def Change.apply (scopes : Scopes) (session : Session) : Change → Session
  | .nothing => session
  | .functions fs => fs.foldl (Setup.defineFunction scopes) session
  | .component name found => session.addComponent scopes name found
  | .asset kind path => Setup.registerAsset scopes session path kind

namespace Setup

/-- What a statement is going to change, or why it fails. -/
def prepare (resolve : Resolver) (context : Context) (session : Session) :
    Setup → Except RenderError Change
  | .useFunctions group => .ok (.functions (group.map Function.builtin))
  | .importComponent name path location =>
    if (session.components.lookupLocal? context.scopes.components name).isSome then .ok .nothing
    else (importSource resolve context.file path location).map (.component name)
  | .linkAsset kind path => .ok (.asset kind path)
  | .declare f => .ok (.functions [f])

variable {resolve : Resolver} {context : Context} {session after : Session}

theorem run_eq_prepare (statement : Setup) :
    statement.run resolve context session =
      match statement.prepare resolve context session with
      | .error e => (.error e, session)
      | .ok change => (.ok (), change.apply context.scopes session) := by
  cases statement with
  | useFunctions group => rfl
  | importComponent name path location =>
      unfold run prepare
      dsimp only
      rw [defineComponent_eq]
      split
      · rfl
      · cases importSource resolve context.file path location <;> rfl
  | linkAsset kind path => rfl
  | declare f => rfl

theorem run_failed {statement : Setup} {e : RenderError}
    (h : statement.run resolve context session = (.error e, after)) : after = session := by
  rw [run_eq_prepare] at h
  split at h <;> cases h
  rfl

/-- What failing statements leave was made by those in front of the one that fails. -/
theorem runAll_failed {statements : List Setup} {e : RenderError}
    (h : runAll resolve context statements session = (.error e, after)) :
    ∃ carried failed later, statements = carried ++ failed :: later ∧
      runAll resolve context carried session = (.ok (), after) ∧
      failed.run resolve context after = (.error e, after) := by
  induction statements generalizing session with
  | nil => cases h
  | cons statement rest ih =>
      unfold runAll at h
      rcases hRun : statement.run resolve context session with ⟨result, middle⟩
      rw [hRun] at h
      cases result with
      | error e =>
          cases h
          obtain rfl := run_failed hRun
          exact ⟨[], statement, rest, rfl, rfl, hRun⟩
      | ok _ =>
          obtain ⟨carried, failed, later, rfl, hCarried, hFailed⟩ := ih h
          refine ⟨statement :: carried, failed, later, rfl, ?_, hFailed⟩
          unfold runAll
          rw [hRun]
          exact hCarried

end Setup

namespace Rendering

variable {nested : Nested} {resolve : Resolver} {html : List Char} {r : Rendering}
  {session : Session}

/-- What the statement that comes next is going to change, or why it fails, be it that it cannot
be read. -/
def prepare (resolve : Resolver) (reader : Reading Setup) (r : Rendering) (session : Session) :
    Except RenderError Change :=
  match (r.read reader).1 with
  | .error e => .error e
  | .ok statement => statement.prepare resolve r.context session

theorem prepare_of_read {reader : Reading Setup} {statement : Setup}
    (h : (r.read reader).1 = .ok statement) :
    r.prepare resolve reader session = statement.prepare resolve r.context session := by
  unfold prepare
  rw [h]

theorem setup_eq_prepare (reader : Reading Setup) :
    setup resolve reader r session =
      match r.prepare resolve reader session with
      | .error e => (.error e, (r.read reader).2, session)
      | .ok change => (.ok (), (r.read reader).2, change.apply r.context.scopes session) := by
  have hContext : (r.read reader).2.context = r.context := rfl
  unfold setup prepare
  dsimp only
  cases (r.read reader).1 with
  | error e => rfl
  | ok statement =>
      rw [hContext]
      dsimp only
      rw [Setup.run_eq_prepare]
      cases statement.prepare resolve r.context session <;> rfl

/-- A template whose setup statements fail leaves what the statements before have made. -/
theorem statements_failed {e : RenderError} {after : Session}
    (h : Setup.runAll resolve r.context (preamble r.endLocation r.rest).1 session =
      (.error e, after)) :
    (statements nested resolve html r session).1 = .error e ∧
    (statements nested resolve html r session).2.2 = after ∧
    ∃ carried, carried <+: (preamble r.endLocation r.rest).1 ∧
      Setup.runAll resolve r.context carried session = (.ok (), after) := by
  have hDone := statements_eq_preamble nested resolve html r session
  rw [h] at hDone
  obtain ⟨carried, failed, later, hSplit, hCarried, -⟩ := Setup.runAll_failed h
  exact ⟨congrArg Prod.fst hDone, congrArg Prod.snd hDone, carried,
    hSplit ▸ List.prefix_append _ _, hCarried⟩

/-- A setup statement that fails ends its template and leaves the session as it was; any other
changes in the session what has been settled before, and the template goes on. -/
theorem setup_atomic {token : Token} {rest : List Token} {keyword : Keyword}
    {reader : Reading Setup} (hRest : r.rest = token :: rest)
    (hKind : token.kind = .keyword keyword)
    (hReader : Setup.reader? r.endLocation keyword = some reader) :
    (∀ e after final, setup resolve reader (r.moveTo rest) session = (.error e, after, final) →
      final = session ∧ statements nested resolve html r session = (.error e, after, session)) ∧
    ∀ after final, setup resolve reader (r.moveTo rest) session = (.ok (), after, final) →
      (∃ change, (r.moveTo rest).prepare resolve reader session = .ok change ∧
        final = change.apply r.context.scopes session) ∧
      statements nested resolve html r session = statements nested resolve html after final := by
  rw [statements_setup hRest hKind hReader, setup_eq_prepare]
  cases hPrepared : (r.moveTo rest).prepare resolve reader session with
  | error e =>
      refine ⟨fun e' after final hDone => ?_, fun after final hDone => ?_⟩
      · cases hDone
        exact ⟨rfl, rfl⟩
      · cases hDone
  | ok change =>
      refine ⟨fun e after final hDone => ?_, fun after final hDone => ?_⟩
      · cases hDone
      · cases hDone
        exact ⟨⟨change, rfl, rfl⟩, rfl⟩

end Rendering

/-- Every import leads to a component with a tag that does not end. -/
def unfinishedSource : Resolver :=
  fun _ path => .ok ⟨path, "serve (<p"⟩

/-- What a page that imports a component goes on with behind `as`. -/
def importBehindAs : List Token :=
  [⟨.text, "Card", ⟨3, 7, 1, 4⟩, "page"⟩, ⟨.keyword .importPath, "import", ⟨8, 14, 1, 9⟩, "page"⟩,
    ⟨.string, "'card'", ⟨15, 21, 1, 16⟩, "page"⟩]

/-- A page that imports a component. -/
def importingAs : Rendering :=
  .start (⟨.keyword .asName, "as", ⟨0, 2, 1, 1⟩, "page"⟩ :: importBehindAs)
    ⟨[], ⟨0, 0, 0, 0⟩, "page"⟩

/-- How that page fails where what it imports ends within a tag. -/
def tagNotEnded : RenderError :=
  .scan ⟨.unterminatedTag, ⟨"card", 1, 9⟩⟩

/-- An import of a source that cannot be scanned opens no frame and defines nothing. -/
theorem setup_atomic_of_unfinished_source :
    importingAs.rest = ⟨.keyword .asName, "as", ⟨0, 2, 1, 1⟩, "page"⟩ :: importBehindAs ∧
    ∃ after, Rendering.setup unfinishedSource (Setup.readImport importingAs.endLocation)
        (importingAs.moveTo importBehindAs) (Session.start 64).pageScopes.1 =
          (.error tagNotEnded, after, (Session.start 64).pageScopes.1) ∧
      Rendering.statements (nestedWithin unfinishedSource 64) unfinishedSource [] importingAs
        (Session.start 64).pageScopes.1 =
          (.error tagNotEnded, after, (Session.start 64).pageScopes.1) := by
  have hScan : Token.scanTemplate "serve (<p" "card" =
      .error ⟨.unterminatedTag, ⟨"card", 1, 9⟩⟩ := by decide +kernel
  have hRead : ((importingAs.moveTo importBehindAs).read
      (Setup.readImport importingAs.endLocation)).1 =
        .ok (.importComponent "Card" "card" ⟨"page", 1, 16⟩) := rfl
  have hSource : unfinishedSource "page" "card" = .ok ⟨"card", "serve (<p"⟩ := rfl
  have hImport : importSource unfinishedSource "page" "card" ⟨"page", 1, 16⟩ =
      .error tagNotEnded := by
    unfold importSource
    simp only [hSource, hScan]
    rfl
  have hPrepared : (importingAs.moveTo importBehindAs).prepare unfinishedSource
      (Setup.readImport importingAs.endLocation) (Session.start 64).pageScopes.1 =
        .error tagNotEnded :=
    (Rendering.prepare_of_read hRead).trans (congrArg (Except.map _) hImport)
  obtain ⟨after, hDone⟩ : ∃ after, Rendering.setup unfinishedSource
      (Setup.readImport importingAs.endLocation) (importingAs.moveTo importBehindAs)
      (Session.start 64).pageScopes.1 =
        (.error tagNotEnded, after, (Session.start 64).pageScopes.1) :=
    ⟨_, by rw [Rendering.setup_eq_prepare, hPrepared]⟩
  exact ⟨rfl, after, hDone, ((Rendering.setup_atomic rfl rfl rfl).1 _ _ _ hDone).2⟩

end HtmlTemplate
