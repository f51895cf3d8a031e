import HtmlTemplate.Proofs.Assets.Events
import HtmlTemplate.Proofs.Session.Rendering

/-! What a template serves before anything is linked, in two renderings in step. A template is
its preamble, carried out, and what it serves behind that. -/
namespace HtmlTemplate

/-- What comes of a template, without what has happened in it. -/
def Served.outcome (served : Served) : Except RenderError (List Char) × Session :=
  (served.result, served.session)

namespace Rendering

section

variable {nested : Nested} {happens : NestedEvents} {resolve : Resolver} {html : List Char}
  {r : Rendering} {session : Session} {token : Token} {rest : List Token}

theorem unlinked_nil (h : r.rest = []) :
    (unlinked nested happens resolve html r session).outcome = (.ok html, session) := by
  rw [unlinked.eq_def]
  split
  · rfl
  · next found => rw [h] at found; cases found

variable (hRest : r.rest = token :: rest)

include hRest

theorem unlinked_blank (hKind : token.kind = .blank) :
    (unlinked nested happens resolve html r session).outcome =
      (unlinked nested happens resolve html (r.moveTo rest) session).outcome := by
  rw [unlinked.eq_def]
  split
  · next found => rw [hRest] at found; cases found
  · next found =>
    rw [hRest] at found
    cases found
    simp only [hKind]
    rfl

theorem unlinked_serve (hKind : token.kind = .keyword .serve) :
    (unlinked nested happens resolve html r session).outcome =
      match serve nested (r.moveTo rest) session with
      | (.ok text, after, final) =>
        (unlinked nested happens resolve (html ++ text) after final).outcome
      | (.error e, _, final) => (.error e, final) := by
  rw [unlinked.eq_def]
  split
  · next found => rw [hRest] at found; cases found
  · next found =>
    rw [hRest] at found
    cases found
    simp only [hKind, moveTo]
    rcases serve nested { r with rest } session with ⟨result, after, final⟩
    cases result <;> rfl

theorem unlinked_setup {keyword : Keyword} {reader : Reading Setup}
    (hKind : token.kind = .keyword keyword)
    (hReader : Setup.reader? r.endLocation keyword = some reader) :
    (unlinked nested happens resolve html r session).outcome =
      match setup resolve reader (r.moveTo rest) session with
      | (.ok _, after, final) => (unlinked nested happens resolve html after final).outcome
      | (.error e, _, final) => (.error e, final) := by
  have hServe : keyword ≠ .serve := by
    intro h
    subst h
    cases hReader
  rw [unlinked.eq_def]
  split
  · next found => rw [hRest] at found; cases found
  · next found =>
    rw [hRest] at found
    cases found
    simp only [hKind, hReader, moveTo]
    rcases setup resolve reader { r with rest } session with ⟨result, after, final⟩
    cases result <;> rfl

theorem unlinked_misplaced (hBlank : token.kind ≠ .blank)
    (hServe : token.kind ≠ .keyword .serve)
    (hSetup : ∀ keyword, token.kind = .keyword keyword →
      Setup.reader? r.endLocation keyword = none) :
    (unlinked nested happens resolve html r session).outcome =
      (.error (.atToken (expectedStatement token.kind) token), session) := by
  rw [unlinked.eq_def]
  split
  · next found => rw [hRest] at found; cases found
  · next found =>
    rw [hRest] at found
    cases found
    cases hKind : token.kind with
    | blank => exact absurd hKind hBlank
    | keyword keyword =>
        cases keyword with
        | serve => exact absurd hKind hServe
        | _ => simp only [hSetup _ hKind]; rfl
    | _ => rfl

end

/-- A template is its preamble, carried out, and the statements from `serve` on. -/
theorem unlinked_eq_preamble (nested : Nested) (happens : NestedEvents) (resolve : Resolver)
    (html : List Char) (r : Rendering) (session : Session) :
    (unlinked nested happens resolve html r session).outcome =
    match Setup.runAll resolve r.context (preamble r.endLocation r.rest).1 session with
    | (.error e, prepared) => (.error e, prepared)
    | (.ok _, prepared) =>
      match (preamble r.endLocation r.rest).2 with
      | .error e => (.error e, prepared)
      | .ok served =>
        (unlinked nested happens resolve html (r.moveTo served) prepared).outcome := by
  induction r using statements_induction generalizing session with
  | nil r hRest =>
      have hSame : r.moveTo [] = r := by rw [← hRest]; rfl
      rw [hRest]
      simp only [preamble, Setup.runAll, hSame]
  | blank r token rest hRest hBlank ih =>
      rw [hRest, preamble_blank hBlank, unlinked_blank hRest hBlank]
      exact ih session
  | serve r token rest hRest hServe _ =>
      have hSame : r.moveTo (token :: rest) = r := by rw [← hRest]; rfl
      rw [hRest, preamble_serve hServe]
      simp only [Setup.runAll, hSame]
  | setup r token rest keyword reader hRest hKind hReader ih =>
      rw [hRest, preamble_setup hKind hReader, unlinked_setup hRest hKind hReader]
      unfold setup
      have hRead : (r.moveTo rest).read reader =
          ((reader rest).value, (r.moveTo rest).moveTo (reader rest).rest) := rfl
      rw [hRead]
      cases hValue : (reader rest).value with
      | error e => rfl
      | ok statement =>
          simp only [Setup.runAll, moveTo_context]
          rcases statement.run resolve r.context session with ⟨result, after⟩
          cases result with
          | error e => rfl
          | ok _ => exact ih ((r.moveTo rest).moveTo (reader rest).rest) (reader rest).forward after
  | misplaced r token rest hRest hBlank hServe hOther =>
      rw [hRest, preamble_misplaced hBlank hServe hOther,
        unlinked_misplaced hRest hBlank hServe hOther]
      rfl

end Rendering

theorem Component.unlinked_eq_preamble (nested : Nested) (happens : NestedEvents)
    (resolve : Resolver) (k : Component) (bag : Bag) (session : Session) :
    (k.unlinked nested happens resolve bag session).outcome =
      match Setup.runAll resolve ⟨bag, k.scopes, k.file⟩ k.source.preamble.1 session with
      | (.error e, prepared) => (.error e, prepared)
      | (.ok _, prepared) =>
        match k.source.preamble.2 with
        | .error e => (.error e, prepared)
        | .ok served =>
          let r := (Rendering.start k.tokens ⟨bag, k.scopes, k.file⟩).moveTo served
          (r.unlinked nested happens resolve [] prepared).outcome :=
  Rendering.unlinked_eq_preamble nested happens resolve []
    (Rendering.start k.tokens ⟨bag, k.scopes, k.file⟩) session

namespace Lockstep

variable {L : Lockstep} {p : Session × Session} {d : Context} {resolve : Resolver}
  {left right : Nested}

/-- Statements with no setup among them serve alike. -/
theorem unlinked_alike (hNested : L.Alike left right) (happens other : NestedEvents)
    {r : Rendering} {html : List Char} (hSessions : L.Sessions p)
    (hContexts : L.Contexts p r.context d) (hPieces : ∀ t ∈ r.rest, L.Piece t)
    (hServed : ∀ t ∈ r.rest, ∀ keyword, t.kind = .keyword keyword → ∀ endAt,
      Setup.reader? endAt keyword = none) (hHtml : L.Text html) :
    L.Outcome p L.Text (Rendering.unlinked left happens resolve html r p.1).outcome
      (Rendering.unlinked right other resolve html (r.withContext d) p.2).outcome := by
  induction r using Rendering.statements_induction generalizing html p with
  | nil r hRest =>
      rw [Rendering.unlinked_nil hRest, Rendering.unlinked_nil (r := r.withContext d) hRest]
      exact .ok hHtml hSessions (L.later_refl p)
  | blank r token rest hRest hBlank ih =>
      rw [Rendering.unlinked_blank hRest hBlank,
        Rendering.unlinked_blank (r := r.withContext d) hRest hBlank]
      have hBehind : ∀ t ∈ rest, t ∈ r.rest := hRest ▸ fun t => List.mem_cons_of_mem token
      exact ih hSessions hContexts (fun t ht => hPieces t (hBehind t ht))
        (fun t ht => hServed t (hBehind t ht)) hHtml
  | serve r token rest hRest hServe ih =>
      rw [Rendering.unlinked_serve hRest hServe,
        Rendering.unlinked_serve (r := r.withContext d) hRest hServe]
      have hBehind : ∀ t ∈ rest, t ∈ r.rest := hRest ▸ fun t => List.mem_cons_of_mem token
      have hBody := serve_alike hNested (r := r.moveTo rest) hSessions hContexts
        (fun t ht => hPieces t (hBehind t ht))
      have hSuffix := Rendering.serve_rest_suffix left (r.moveTo rest) p.1
      have hContext := Rendering.serve_context left (r.moveTo rest) p.1
      rw [← Rendering.withContext_moveTo] at hBody
      revert hBody hSuffix hContext
      generalize Rendering.serve left (r.moveTo rest) p.1 = first
      generalize Rendering.serve right ((r.withContext d).moveTo rest) p.2 = second
      intro hBody hSuffix hContext
      cases hBody with
      | cut hCut => exact .cut hCut
      | error hAfter hLater => exact .error hAfter hLater
      | ok hText hAfter hLater =>
          have hInside := fun t ht => hBehind t (hSuffix.subset ht)
          have hLast := ih _ hSuffix hAfter (hContext ▸ L.contexts_later hLater hContexts)
            (fun t ht => hPieces t (hInside t ht)) (fun t ht => hServed t (hInside t ht))
            (L.text_append hHtml hText)
          exact hLast.earlier hLater
  | setup r token rest keyword reader hRest hKind hReader =>
      cases (hServed token (hRest ▸ List.mem_cons_self) keyword hKind _).symm.trans hReader
  | misplaced r token rest hRest hBlank hServe hOther =>
      rw [Rendering.unlinked_misplaced hRest hBlank hServe hOther,
        Rendering.unlinked_misplaced (r := r.withContext d) hRest hBlank hServe hOther]
      exact .error hSessions (L.later_refl p)

end Lockstep

end HtmlTemplate
