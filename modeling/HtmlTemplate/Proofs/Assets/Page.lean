import HtmlTemplate.Proofs.Assets.Account
import HtmlTemplate.Proofs.Assets.Place
import HtmlTemplate.Proofs.Result
import HtmlTemplate.Render.Page

/-! Files reach their page once. A template that is rendered as a page in a session of its
own registers files, and so do the components that it invokes in branches, loops and
contents, at any depth. None of them links anything. The page does when all else is
rendered: every file once, in the order of the first registrations. -/
namespace HtmlTemplate

/-- A template that is rendered as a page in a session of its own. -/
structure FreshPage where
  resolve : Resolver
  limit : Nat
  tokens : List Token
  bag : Bag
  file : String

namespace FreshPage

variable (page : FreshPage)

def session : Session :=
  (Session.start page.limit).pageScopes.1

def start : Rendering :=
  .start page.tokens ⟨page.bag, (Session.start page.limit).pageScopes.2, page.file⟩

/-- What the page comes to, with its files linked. -/
def parsed : Except RenderError (List Char) :=
  (page.start.template (page.session.nested page.resolve) page.resolve page.session).1

/-- What comes of its statements before anything is linked. -/
def served : Served :=
  page.start.unlinked (page.session.nested page.resolve) (eventsWithin page.resolve page.limit)
    page.resolve [] page.session

/-- The files of a kind that are registered while the page is rendered, by the page or by any
component, each as often as that happens. -/
def paths (kind : AssetKind) : List String :=
  registeredPaths kind page.served.events

/-- Some file is registered while the page is rendered. -/
def Registers : Prop :=
  ∃ kind, page.paths kind ≠ []

/-- What a template is rendered to as a page is made of what it is parsed to. -/
theorem render_eq_parsed (options : Options) (resolve : Resolver) (source : String) (bag : Bag)
    (path : String) {tokens : List Token} (h : Token.scanTemplate source path = .ok tokens) :
    options.render resolve source bag path =
      (FreshPage.parsed ⟨resolve, options.maxDepth, tokens, options.visibleBag bag, path⟩).map
        fun html => String.ofList (unshield (substitute (options.visibleBag bag) html)) := by
  unfold Options.render
  rw [h]
  let page : FreshPage := ⟨resolve, options.maxDepth, tokens, options.visibleBag bag, path⟩
  change (page.parsed.map fun html => unshield (substitute _ html)).map String.ofList = _
  cases page.parsed <;> rfl

theorem holds_start : page.session.Holds page.start.context.scopes :=
  ⟨(ScopeArena.lone_alloc .empty).1, (ScopeArena.lone_alloc .empty).1,
    (ScopeArena.lone_alloc .empty).1, (ScopeArena.lone_alloc .empty).1⟩

/-- What happens while the page is rendered accounts for what it lists then. -/
theorem page_accounts :
    Accounts page.resolve [] page.served.events page.session
      (page.served.result, page.served.session) :=
  Rendering.unlinked_accounts (told_within page.resolve page.limit) [] page.start
    (Session.keeps_start page.limit) page.holds_start

/-- The page is parsed to what is served, with the files linked that have been registered. -/
theorem parsed_eq : page.parsed = page.served.result >>= fun html =>
    (linkAssets html (page.paths .stylesheet).eraseDups (page.paths .script).eraseDups).mapError
      fun e => .runtime (.missingHead e) ⟨page.file, 1, 1⟩ := by
  have hLinked : page.parsed =
      page.served.result >>= page.start.link page.served.session :=
    congrArg Prod.fst (Rendering.statements_eq_unlinked [] page.start page.session)
  have hPaths (kind : AssetKind) (hPage : page.start.context.scopes.assets kind = 0) :
      page.served.session.paths page.start.context.scopes kind = (page.paths kind).eraseDups :=
    page.page_accounts.keeps.paths_eq hPage
  rw [hLinked]
  refine bind_congr_ok fun html _ => ?_
  rw [Rendering.link_eq_mapError, hPaths .stylesheet rfl, hPaths .script rfl]
  rfl

theorem registers_iff : page.Registers ↔
    ¬((page.paths .stylesheet).eraseDups = [] ∧ (page.paths .script).eraseDups = []) := by
  have hNone (paths : List String) : paths.eraseDups = [] ↔ paths = [] := by
    cases paths with
    | nil => simp
    | cons path rest => simp [List.eraseDups_cons]
  rw [hNone, hNone]
  constructor
  · rintro ⟨kind, hSome⟩ ⟨hStylesheets, hScripts⟩
    cases kind with
    | stylesheet => exact hSome hStylesheets
    | script => exact hSome hScripts
  · intro hSome
    by_cases hStylesheets : page.paths .stylesheet = []
    · exact ⟨.script, fun hScripts => hSome ⟨hStylesheets, hScripts⟩⟩
    · exact ⟨.stylesheet, hStylesheets⟩

/-- The page wants a head if it has been rendered and there is something to link in it. -/
theorem missingHead_iff : (∃ e, page.parsed = .error e ∧ e.IsMissingHead) ↔
    ∃ body, page.served.result = .ok body ∧ page.Registers ∧ ¬HasHead body := by
  have hClean := page.page_accounts.clean
  rw [page.parsed_eq]
  cases hBody : page.served.result with
  | error e =>
      constructor
      · rintro ⟨_, ⟨⟩, hMissing⟩
        exact absurd hMissing (hClean.not_isMissingHead hBody)
      · exact nofun
  | ok body =>
      have hFails := @linkAssets_eq_error_iff body (page.paths .stylesheet).eraseDups
        (page.paths .script).eraseDups
      rw [← page.registers_iff] at hFails
      constructor
      · rintro ⟨_, hError, -⟩
        obtain ⟨missing, hMissing, -⟩ := mapError_eq_error.mp hError
        exact ⟨body, rfl, hFails.mp ⟨missing, hMissing⟩⟩
      · rintro ⟨_, ⟨⟩, hSome⟩
        obtain ⟨missing, hMissing⟩ := hFails.mpr hSome
        exact ⟨_, mapError_eq_error.mpr ⟨missing, hMissing, rfl⟩, trivial⟩

/-- Files reach the page once. Every component that is invoked while a page is rendered gives
its fragment with nothing linked into it and does not fail for want of a head. The page is
parsed to what it serves, with each file that is registered linked once, under its path
with its extension, in the order of the first registrations. It fails for want of a head
just when it has been rendered, there are files to link and it has none. -/
theorem files_linked_once :
    (∀ levels k bag session, .invoked levels k bag session ∈ page.served.events →
      (renderComponent (nestedWithin page.resolve levels) page.resolve k bag session).1 =
        k.fragment page.resolve levels bag session ∧
      ∀ e, (renderComponent (nestedWithin page.resolve levels) page.resolve k bag session).1 =
        .error e → ¬e.IsMissingHead) ∧
    (∀ kind, ∀ path ∈ page.paths kind, ∃ written : String, isAssetPath written.toList = true ∧
      path = withAssetExtension written kind.extension) ∧
    (∀ html, page.parsed = .ok html ↔ ∃ body, page.served.result = .ok body ∧
      Linked (page.paths .stylesheet).eraseDups (page.paths .script).eraseDups body html) ∧
    ((∃ e, page.parsed = .error e ∧ e.IsMissingHead) ↔
      ∃ body, page.served.result = .ok body ∧ page.Registers ∧ ¬HasHead body) := by
  have hSound := page.page_accounts.sound
  refine ⟨?_, ?_, ?_, page.missingHead_iff⟩
  · intro levels k bag session hInvoked
    exact hSound _ hInvoked
  · intro kind path hPath
    exact hSound _ (mem_registeredPaths.mp hPath)
  · intro html
    rw [page.parsed_eq, bind_eq_ok]
    simp only [mapError_eq_ok, linkAssets_eq_ok_iff]

/-- A page that shares a file with a component, which is invoked twice. -/
example : (({} : Options).render
    (fun _ path => .ok ⟨path, "link '/a' link './b.css' import '/c' serve (<i>@(slot)</i>)"⟩)
    "as c import 'c' link './b' serve (<HEAD><title>t</title></HEAD><c>x</c><c>y</c>)" []
    "page").toOption = some ("<HEAD><title>t</title>" ++
      "\n<link rel=\"stylesheet\" href=\"./b.css\" />" ++
      "\n<link rel=\"stylesheet\" href=\"/a.css\" />" ++
      "\n<script src=\"/c.js\" defer></script></HEAD><i>x</i><i>y</i>") := by
  decide +kernel

/-- On the way the two stylesheets are registered anew at each use of the component. -/
example : FreshPage.paths
    ⟨fun _ path => .ok ⟨path, "link '/a' link './b.css' import '/c' serve (<i>@(slot)</i>)"⟩, 2,
      ((Token.scanTemplate "as c import 'c' link './b' serve (<c>x</c><c>y</c>)"
        "page").toOption).getD [], [], "page"⟩ .stylesheet =
      ["./b.css", "/a.css", "./b.css", "/a.css", "./b.css"] := by
  decide +kernel

end FreshPage

end HtmlTemplate
