import HtmlTemplate.Proofs.Render.Lockstep
import HtmlTemplate.Render.Page

/-! Two renderings of one template in step. What a lockstep must know for that is how
setup statements are carried out by both and what both link. -/
namespace HtmlTemplate

namespace Rendering

theorem read_withContext {α : Type} (r : Rendering) (c : Context) (m : Reading α) :
    (r.withContext c).read m = ((r.read m).1, (r.read m).2.withContext c) := rfl

theorem openServe_withContext (r : Rendering) (c : Context) :
    (r.withContext c).openServe = (r.openServe.1, r.openServe.2.withContext c) := by
  unfold openServe read
  simp only [withContext]
  cases (Reading.expect r.endLocation .openParen .serveParen r.rest).value <;> rfl

theorem openServe_context (r : Rendering) : r.openServe.2.context = r.context := by
  unfold openServe
  split <;> next found =>
    have hContext := congrArg (fun result => result.2.context) found
    exact hContext.symm

/-- The parenthesis that `serve` opens, blanks in front of it aside. -/
theorem openServe_eq_ok {r : Rendering} {opening : Token} {body : List Token}
    (hOpening : dropBlanks r.rest = opening :: body) (hParen : opening.kind = .openParen) :
    r.openServe = (.ok (), { r.moveTo body with opened := ⟨.paren, opening⟩ :: r.opened }) := by
  have hFinds : (Reading.expect r.endLocation .openParen .serveParen).Finds r.rest opening body :=
    .expect_of_dropBlanks hOpening hParen
  obtain ⟨hValue, hRest⟩ := hFinds
  unfold openServe read
  dsimp only
  rw [hValue, hRest]
  rfl

theorem serve_context (nested : Nested) (r : Rendering) (session : Session) :
    (serve nested r session).2.1.context = r.context := by
  have hOpened := r.openServe_context
  unfold serve
  dsimp only
  split
  · rw [walk_context]
    exact hOpened
  · exact hOpened

/-- What is expected in the place of a statement where there is something else. -/
def expectedStatement : TokenKind → Expectation
  | .keyword keyword => .setupKeyword (some keyword)
  | _ => .setupKeyword none

section

variable {nested : Nested} {resolve : Resolver} {html : List Char} {r : Rendering}
  {session : Session} {token : Token} {rest : List Token}

theorem statements_nil (h : r.rest = []) :
    statements nested resolve html r session = (r.link session html, r, session) := by
  rw [statements.eq_def]
  split
  · rfl
  · next found => rw [h] at found; cases found

variable (hRest : r.rest = token :: rest)

include hRest

theorem statements_blank (hKind : token.kind = .blank) :
    statements nested resolve html r session =
      statements nested resolve html (r.moveTo rest) session := by
  rw [statements.eq_def]
  split
  · next found => rw [hRest] at found; cases found
  · next found =>
    rw [hRest] at found
    cases found
    simp only [hKind]
    rfl

/-- The walk through the body of `serve`, and the statements behind it. -/
theorem statements_serve (hKind : token.kind = .keyword .serve) :
    statements nested resolve html r session =
      match serve nested (r.moveTo rest) session with
      | (.ok text, after, final) => statements nested resolve (html ++ text) after final
      | (.error e, after, final) => (.error e, after, final) := by
  rw [statements.eq_def]
  split
  · next found => rw [hRest] at found; cases found
  · next found =>
    rw [hRest] at found
    cases found
    simp only [hKind, moveTo]
    rcases serve nested { r with rest } session with ⟨result, after, final⟩
    cases result <;> rfl

/-- A setup statement, and the statements behind it. -/
theorem statements_setup {keyword : Keyword} {reader : Reading Setup}
    (hKind : token.kind = .keyword keyword)
    (hReader : Setup.reader? r.endLocation keyword = some reader) :
    statements nested resolve html r session =
      match setup resolve reader (r.moveTo rest) session with
      | (.ok _, after, final) => statements nested resolve html after final
      | (.error e, after, final) => (.error e, after, final) := by
  have hServe : keyword ≠ .serve := by
    intro h
    subst h
    cases hReader
  rw [statements.eq_def]
  split
  · next found => rw [hRest] at found; cases found
  · next found =>
    rw [hRest] at found
    cases found
    simp only [hKind, hReader, moveTo]
    rcases setup resolve reader { r with rest } session with ⟨result, after, final⟩
    cases result <;> rfl

/-- A token that begins no statement. -/
theorem statements_misplaced (hBlank : token.kind ≠ .blank)
    (hServe : token.kind ≠ .keyword .serve)
    (hSetup : ∀ keyword, token.kind = .keyword keyword →
      Setup.reader? r.endLocation keyword = none) :
    statements nested resolve html r session =
      (.error (.atToken (expectedStatement token.kind) token), r, session) := by
  rw [statements.eq_def]
  split
  · next found => rw [hRest] at found; cases found
  · next found =>
    rw [hRest] at found
    cases found
    cases hKind : token.kind with
    | blank => exact absurd hKind hBlank
    | keyword keyword =>
        cases keyword with
        | serve => exact absurd hKind hServe
        | _ => simp only [hSetup _ hKind]; rfl
    | _ => rfl

end

/-- What a token in the place of a statement is: a blank, `serve`, the keyword of a setup
statement or none of these. -/
theorem statement_cases (endAt : Location) (kind : TokenKind) :
    kind = .blank ∨ kind = .keyword .serve ∨
    (∃ keyword reader, kind = .keyword keyword ∧ Setup.reader? endAt keyword = some reader) ∨
    (kind ≠ .blank ∧ kind ≠ .keyword .serve ∧
      ∀ keyword, kind = .keyword keyword → Setup.reader? endAt keyword = none) := by
  cases kind with
  | blank => exact .inl rfl
  | keyword keyword =>
      cases keyword with
      | serve => exact .inr (.inl rfl)
      | ifBranch | elseBranch | eachItem =>
          refine .inr (.inr (.inr ⟨nofun, nofun, ?_⟩))
          intro keyword h
          cases h
          rfl
      | _ => exact .inr (.inr (.inl ⟨_, _, rfl, rfl⟩))
  | _ => exact .inr (.inr (.inr ⟨nofun, nofun, nofun⟩))

/-- Induction along the statements of a template. What is left behind a statement is an
end of what stands behind its first token. -/
theorem statements_induction {motive : Rendering → Prop} (nil : ∀ r, r.rest = [] → motive r)
    (blank : ∀ r token rest, r.rest = token :: rest → token.kind = .blank →
      motive (r.moveTo rest) → motive r)
    (serve : ∀ r token rest, r.rest = token :: rest → token.kind = .keyword .serve →
      (∀ after : Rendering, after.rest <:+ rest → motive after) → motive r)
    (setup : ∀ r token rest keyword reader, r.rest = token :: rest →
      token.kind = .keyword keyword → Setup.reader? r.endLocation keyword = some reader →
      (∀ after : Rendering, after.rest <:+ rest → motive after) → motive r)
    (misplaced : ∀ r token rest, r.rest = token :: rest → token.kind ≠ .blank →
      token.kind ≠ .keyword .serve →
      (∀ keyword, token.kind = .keyword keyword → Setup.reader? r.endLocation keyword = none) →
      motive r)
    (r : Rendering) : motive r := by
  induction hLength : r.rest.length using Nat.strongRecOn generalizing r with
  | ind length ih =>
      cases hRest : r.rest with
      | nil => exact nil r hRest
      | cons token rest =>
          have hBehind (after : Rendering) (hSuffix : after.rest <:+ rest) : motive after := by
            apply ih after.rest.length _ after rfl
            rw [← hLength, hRest]
            exact Nat.lt_succ_of_le hSuffix.length_le
          rcases statement_cases r.endLocation token.kind with
            hBlank | hServe | ⟨keyword, reader, hKind, hReader⟩ | ⟨hBlank, hServe, hOther⟩
          · exact blank r token rest hRest hBlank (hBehind _ List.suffix_rfl)
          · exact serve r token rest hRest hServe hBehind
          · exact setup r token rest keyword reader hRest hKind hReader hBehind
          · exact misplaced r token rest hRest hBlank hServe hOther

end Rendering

namespace Lockstep

variable {L : Lockstep} {p q : Session × Session} {c d : Context} {resolve : Resolver}
  {left right : Nested}

/-- A setup statement that a token begins is carried out alike. -/
def SetupAlike (L : Lockstep) (resolve : Resolver) (t : Token) : Prop :=
  ∀ {p c d keyword endAt reader tokens statement}, L.Sessions p → L.Contexts p c d →
    L.Piece t → t.kind = .keyword keyword → Setup.reader? endAt keyword = some reader →
    (∀ u ∈ tokens, L.Piece u) → (reader tokens).value = .ok statement →
    L.Outcome p (fun _ => True) (statement.run resolve c p.1) (statement.run resolve d p.2)

/-- From some sessions on, both templates link the same. -/
def LinksAlike (L : Lockstep) (p : Session × Session) (c d : Context) : Prop :=
  ∀ {q html} {r : Rendering}, r.context = c → L.Later p q → L.Sessions q → L.Text html →
    r.link q.1 html = (r.withContext d).link q.2 html ∧
    ∀ text, r.link q.1 html = .ok text → L.Text text

theorem LinksAlike.later {c d : Context} (h : L.LinksAlike p c d) (hLater : L.Later p q) :
    L.LinksAlike q c d :=
  fun hContext hAfter => h hContext (L.later_trans hLater hAfter)

/-- All that makes two renderings carry out what is left of a template alike. -/
structure TemplatesAlike (L : Lockstep) (resolve : Resolver) (p : Session × Session) (d : Context)
    (r : Rendering) : Prop where
  setup : ∀ t ∈ r.rest, L.SetupAlike resolve t
  pieces : ∀ t ∈ r.rest, L.Piece t
  contexts : L.Contexts p r.context d
  links : L.LinksAlike p r.context d

/-- It is so behind a statement if it is so at its first token. -/
theorem TemplatesAlike.behind {r after : Rendering} {token : Token} {rest : List Token}
    (h : L.TemplatesAlike resolve p d r) (hRest : r.rest = token :: rest) (hLater : L.Later p q)
    (hContext : after.context = r.context) (hSuffix : after.rest <:+ rest) :
    L.TemplatesAlike resolve q d after := by
  have hBehind : after.rest <:+ r.rest := hRest ▸ hSuffix.trans (List.suffix_cons token rest)
  constructor
  · exact fun t ht => h.setup t (hBehind.subset ht)
  · exact fun t ht => h.pieces t (hBehind.subset ht)
  · exact hContext ▸ L.contexts_later hLater h.contexts
  · exact hContext ▸ LinksAlike.later h.links hLater

/-- The body of `serve` is rendered alike. -/
theorem serve_alike (hNested : L.Alike left right) {r : Rendering} (hSessions : L.Sessions p)
    (hContexts : L.Contexts p r.context d) (hPieces : ∀ t ∈ r.rest, L.Piece t) :
    L.Walked p d (Rendering.serve left r p.1) (Rendering.serve right (r.withContext d) p.2) := by
  unfold Rendering.serve
  rw [Rendering.openServe_withContext]
  dsimp only
  cases r.openServe.1 with
  | error e => exact .error hSessions (L.later_refl p)
  | ok _ =>
      have hContext : r.openServe.2.enter.context = r.context := r.openServe_context
      have hRest : r.openServe.2.enter.rest <:+ r.rest := r.openServe_rest_suffix
      exact walk_alike hNested true hSessions (hContext ▸ hContexts)
        (fun t ht => hPieces t (hRest.subset ht))

/-- A setup statement is read and carried out alike. -/
theorem setup_alike {token : Token} (hSetup : L.SetupAlike resolve token) {r : Rendering}
    {keyword : Keyword} {reader : Reading Setup} (hSessions : L.Sessions p)
    (hContexts : L.Contexts p r.context d) (hPieces : ∀ t ∈ r.rest, L.Piece t)
    (hToken : L.Piece token) (hKind : token.kind = .keyword keyword)
    (hReader : Setup.reader? r.endLocation keyword = some reader) :
    ∃ after, (Rendering.setup resolve reader r p.1).2.1 = after ∧
      (Rendering.setup resolve reader (r.withContext d) p.2).2.1 = after.withContext d ∧
      after.context = r.context ∧ after.rest <:+ r.rest ∧
      L.Outcome p (fun _ => True)
        ((Rendering.setup resolve reader r p.1).1, (Rendering.setup resolve reader r p.1).2.2)
        ((Rendering.setup resolve reader (r.withContext d) p.2).1,
          (Rendering.setup resolve reader (r.withContext d) p.2).2.2) := by
  refine ⟨(r.read reader).2, ?_⟩
  have hSuffix := r.read_rest_suffix reader
  unfold Rendering.setup
  rw [Rendering.read_withContext]
  dsimp only
  cases hStatement : (r.read reader).1 with
  | error e => exact ⟨rfl, rfl, rfl, hSuffix, .error hSessions (L.later_refl p)⟩
  | ok statement =>
      exact ⟨rfl, rfl, rfl, hSuffix,
        hSetup hSessions hContexts hToken hKind hReader hPieces hStatement⟩

/-- All statements of a template that are left are rendered alike. -/
theorem statements_alike (hNested : L.Alike left right) {r : Rendering} {html : List Char}
    (hSessions : L.Sessions p) (h : L.TemplatesAlike resolve p d r) (hHtml : L.Text html) :
    L.Walked p d (Rendering.statements left resolve html r p.1)
      (Rendering.statements right resolve html (r.withContext d) p.2) := by
  induction r using Rendering.statements_induction generalizing html p with
  | nil r hRest =>
      rw [Rendering.statements_nil hRest, Rendering.statements_nil (r := r.withContext d) hRest]
      obtain ⟨hSame, hText⟩ := h.links rfl (L.later_refl p) hSessions hHtml
      rw [← hSame]
      cases hLinked : r.link p.1 html with
      | error e => exact .error hSessions (L.later_refl p)
      | ok text => exact .ok (hText text hLinked) hSessions (L.later_refl p)
  | blank r token rest hRest hBlank ih =>
      rw [Rendering.statements_blank hRest hBlank,
        Rendering.statements_blank (r := r.withContext d) hRest hBlank]
      exact ih hSessions (h.behind hRest (L.later_refl p) rfl List.suffix_rfl) hHtml
  | serve r token rest hRest hServe ih =>
      rw [Rendering.statements_serve hRest hServe,
        Rendering.statements_serve (r := r.withContext d) hRest hServe]
      have hBody : L.TemplatesAlike resolve p d (r.moveTo rest) :=
        h.behind hRest (L.later_refl p) rfl List.suffix_rfl
      have hServed := serve_alike hNested (r := r.moveTo rest) hSessions hBody.contexts hBody.pieces
      have hSuffix := Rendering.serve_rest_suffix left (r.moveTo rest) p.1
      have hContext := Rendering.serve_context left (r.moveTo rest) p.1
      rw [← Rendering.withContext_moveTo] at hServed
      revert hServed hSuffix hContext
      generalize Rendering.serve left (r.moveTo rest) p.1 = first
      generalize Rendering.serve right ((r.withContext d).moveTo rest) p.2 = second
      intro hServed hSuffix hContext
      cases hServed with
      | cut hCut => exact .cut hCut
      | error hAfter hLater => exact .error hAfter hLater
      | ok hText hAfter hLater =>
          have hWalked := ih _ hSuffix hAfter (h.behind hRest hLater hContext hSuffix)
            (L.text_append hHtml hText)
          exact hWalked.earlier hLater
  | setup r token rest keyword reader hRest hKind hReader ih =>
      rw [Rendering.statements_setup hRest hKind hReader,
        Rendering.statements_setup (r := r.withContext d) hRest hKind hReader]
      have hFirst : token ∈ r.rest := hRest ▸ List.mem_cons_self
      have hBehind : L.TemplatesAlike resolve p d (r.moveTo rest) :=
        h.behind hRest (L.later_refl p) rfl List.suffix_rfl
      have hDone := setup_alike (h.setup token hFirst) hSessions hBehind.contexts hBehind.pieces
        (h.pieces token hFirst) hKind hReader
      rw [← Rendering.withContext_moveTo] at hDone
      revert hDone
      generalize Rendering.setup resolve reader (r.moveTo rest) p.1 = first
      generalize Rendering.setup resolve reader ((r.withContext d).moveTo rest) p.2 = second
      rintro ⟨after, hLeft, hRight, hContext, hSuffix, hDone⟩
      obtain ⟨result, place, session⟩ := first
      obtain ⟨result', place', session'⟩ := second
      dsimp only at hLeft hRight hDone
      subst hLeft hRight
      cases hDone with
      | cut hCut => exact .cut hCut
      | error hAfter hLater => exact .error hAfter hLater
      | ok _ hAfter hLater =>
          have hWalked := ih _ hSuffix hAfter (h.behind hRest hLater hContext hSuffix) hHtml
          exact hWalked.earlier hLater
  | misplaced r token rest hRest hBlank hServe hOther =>
      rw [Rendering.statements_misplaced hRest hBlank hServe hOther,
        Rendering.statements_misplaced (r := r.withContext d) hRest hBlank hServe hOther]
      exact .error hSessions (L.later_refl p)

/-- A component is rendered alike in related frames. -/
theorem renderComponent_alike (hNested : L.Alike left right)
    (hSetup : ∀ t, L.SetupAlike resolve t) {k l : Component} {a b : Bag}
    (hTokens : k.tokens = l.tokens) (hSessions : L.Sessions p)
    (hContexts : L.Contexts p ⟨a, k.scopes, k.file⟩ ⟨b, l.scopes, l.file⟩)
    (hLinks : L.LinksAlike p ⟨a, k.scopes, k.file⟩ ⟨b, l.scopes, l.file⟩)
    (hPieces : ∀ t ∈ k.tokens, L.Piece t) :
    L.Outcome p L.Text (renderComponent left resolve k a p.1)
      (renderComponent right resolve l b p.2) := by
  have hTemplates : L.TemplatesAlike resolve p ⟨b, l.scopes, l.file⟩
      (Rendering.start k.tokens ⟨a, k.scopes, k.file⟩) :=
    ⟨fun t _ => hSetup t, hPieces, hContexts, hLinks⟩
  have hWalked := statements_alike hNested hSessions hTemplates L.text_nil
  rw [Rendering.start_withContext _ _ _ (L.file_eq hContexts), hTokens] at hWalked
  have hBags := L.bags_of_contexts hContexts
  have hFill (text : List Char) (hText : L.Text text) :=
    And.intro (L.substitute_eq hBags hText) (L.text_substitute hBags hText)
  unfold renderComponent Rendering.update Rendering.template
  rw [hTokens]
  exact hWalked.outcome.map hFill

/-- A page is rendered alike in related frames. -/
theorem document_alike (hNested : L.Alike left right) (hSetup : ∀ t, L.SetupAlike resolve t)
    (tokens : List Token) (hSessions : L.Sessions p) (hContexts : L.Contexts p c d)
    (hLinks : L.LinksAlike p c d) (hPieces : ∀ t ∈ tokens, L.Piece t) :
    L.Outcome p (fun _ => True)
      (((Rendering.start tokens c).document left resolve p.1).1,
        ((Rendering.start tokens c).document left resolve p.1).2.2)
      (((Rendering.start tokens d).document right resolve p.2).1,
        ((Rendering.start tokens d).document right resolve p.2).2.2) := by
  have hTemplates : L.TemplatesAlike resolve p d (Rendering.start tokens c) :=
    ⟨fun t _ => hSetup t, hPieces, hContexts, hLinks⟩
  have hWalked := statements_alike hNested hSessions hTemplates L.text_nil
  rw [Rendering.start_withContext _ _ _ (L.file_eq hContexts)] at hWalked
  have hFill (text : List Char) (hText : L.Text text) :
      unshield (substitute c.bag text) = unshield (substitute d.bag text) ∧ True := by
    rw [L.substitute_eq (L.bags_of_contexts hContexts) hText]
    exact ⟨rfl, trivial⟩
  exact hWalked.outcome.map hFill

end Lockstep

end HtmlTemplate
