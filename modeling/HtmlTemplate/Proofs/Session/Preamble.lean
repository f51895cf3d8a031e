import HtmlTemplate.Proofs.Render.Setup
import HtmlTemplate.Proofs.Render.Templates

/-! The setup statements a template begins with. They are read without a look at the
session, so that a template is its preamble, carried out from the first statement to the
last, and what is served behind it. -/
namespace HtmlTemplate

/-- The setup statements in front, and the tokens from `serve` on or the error that ends
the reading. -/
def preamble (endAt : Location) (tokens : List Token) :
    List Setup × Except RenderError (List Token) :=
  match tokens with
  | [] => ([], .ok [])
  | token :: rest =>
    match token.kind with
    | .blank => preamble endAt rest
    | .keyword .serve => ([], .ok (token :: rest))
    | .keyword keyword =>
      match Setup.reader? endAt keyword with
      | some reader =>
        match (reader rest).value with
        | .error e => ([], .error e)
        | .ok statement =>
          let later := preamble endAt (reader rest).rest
          (statement :: later.1, later.2)
      | none => ([], .error (.atToken (.setupKeyword (some keyword)) token))
    | _ => ([], .error (.atToken (.setupKeyword none) token))
termination_by tokens.length
decreasing_by
  · simp
  · have shorter := (reader rest).forward.length_le
    simp only [List.length_cons]
    omega

/-- Carries out statements up to the first that fails. -/
def Setup.runAll (resolve : Resolver) (context : Context) :
    List Setup → Session → Except RenderError Unit × Session
  | [], session => (.ok (), session)
  | statement :: rest, session =>
    match statement.run resolve context session with
    | (.error e, session) => (.error e, session)
    | (.ok _, session) => runAll resolve context rest session

section

variable {endAt : Location} {token : Token} {rest : List Token}

theorem preamble_blank (hKind : token.kind = .blank) :
    preamble endAt (token :: rest) = preamble endAt rest := by
  rw [preamble]
  simp only [hKind]

theorem preamble_serve (hKind : token.kind = .keyword .serve) :
    preamble endAt (token :: rest) = ([], .ok (token :: rest)) := by
  rw [preamble]
  simp only [hKind]

theorem preamble_setup {keyword : Keyword} {reader : Reading Setup}
    (hKind : token.kind = .keyword keyword) (hReader : Setup.reader? endAt keyword = some reader) :
    preamble endAt (token :: rest) =
      match (reader rest).value with
      | .error e => ([], .error e)
      | .ok statement =>
        (statement :: (preamble endAt (reader rest).rest).1,
          (preamble endAt (reader rest).rest).2) := by
  rw [preamble]
  cases keyword with
  | serve => cases hReader
  | _ => simp only [hKind, hReader]

theorem preamble_misplaced (hBlank : token.kind ≠ .blank) (hServe : token.kind ≠ .keyword .serve)
    (hSetup : ∀ keyword, token.kind = .keyword keyword → Setup.reader? endAt keyword = none) :
    preamble endAt (token :: rest) =
      ([], .error (.atToken (Rendering.expectedStatement token.kind) token)) := by
  rw [preamble]
  cases hKind : token.kind with
  | blank => exact absurd hKind hBlank
  | keyword keyword =>
      cases keyword with
      | serve => exact absurd hKind hServe
      | _ => simp only [hSetup _ hKind]; rfl
  | _ => rfl

end

/-- What is left behind the preamble are the tokens from `serve` on. -/
theorem preamble_eq_ok {endAt : Location} {tokens served : List Token}
    (h : (preamble endAt tokens).2 = .ok served) :
    served <:+ tokens ∧
    (served = [] ∨ ∃ token rest, served = token :: rest ∧ token.kind = .keyword .serve) := by
  induction hLength : tokens.length using Nat.strongRecOn generalizing tokens with
  | ind length ih =>
      subst hLength
      cases tokens with
      | nil =>
          rw [preamble] at h
          cases h
          exact ⟨List.suffix_rfl, .inl rfl⟩
      | cons token rest =>
          rcases Rendering.statement_cases endAt token.kind with
            hBlank | hServe | ⟨keyword, reader, hKind, hReader⟩ | ⟨hBlank, hServe, hOther⟩
          · rw [preamble_blank hBlank] at h
            obtain ⟨hSuffix, hHead⟩ := ih _ (Nat.lt_succ_self _) h rfl
            exact ⟨hSuffix.trans (List.suffix_cons token rest), hHead⟩
          · rw [preamble_serve hServe] at h
            cases h
            exact ⟨List.suffix_rfl, .inr ⟨token, rest, rfl, hServe⟩⟩
          · rw [preamble_setup hKind hReader] at h
            have hForward := (reader rest).forward
            split at h
            · cases h
            · obtain ⟨hSuffix, hHead⟩ := ih _ (Nat.lt_succ_of_le hForward.length_le) h rfl
              exact ⟨(hSuffix.trans hForward).trans (List.suffix_cons token rest), hHead⟩
          · rw [preamble_misplaced hBlank hServe hOther] at h
            cases h

/-- A template is its preamble, carried out, and the statements from `serve` on. -/
theorem statements_eq_preamble (nested : Nested) (resolve : Resolver) (html : List Char)
    (r : Rendering) (session : Session) :
    ((Rendering.statements nested resolve html r session).1,
      (Rendering.statements nested resolve html r session).2.2) =
    match Setup.runAll resolve r.context (preamble r.endLocation r.rest).1 session with
    | (.error e, prepared) => (.error e, prepared)
    | (.ok _, prepared) =>
      match (preamble r.endLocation r.rest).2 with
      | .error e => (.error e, prepared)
      | .ok served =>
        ((Rendering.statements nested resolve html (r.moveTo served) prepared).1,
          (Rendering.statements nested resolve html (r.moveTo served) prepared).2.2) := by
  induction r using Rendering.statements_induction generalizing session with
  | nil r hRest =>
      have hSame : r.moveTo [] = r := by rw [← hRest]; rfl
      rw [hRest]
      simp only [preamble, Setup.runAll, hSame]
  | blank r token rest hRest hBlank ih =>
      rw [hRest, preamble_blank hBlank, Rendering.statements_blank hRest hBlank]
      exact ih session
  | serve r token rest hRest hServe _ =>
      have hSame : r.moveTo (token :: rest) = r := by rw [← hRest]; rfl
      rw [hRest, preamble_serve hServe]
      simp only [Setup.runAll, hSame]
  | setup r token rest keyword reader hRest hKind hReader ih =>
      rw [hRest, preamble_setup hKind hReader, Rendering.statements_setup hRest hKind hReader]
      unfold Rendering.setup
      have hRead : (r.moveTo rest).read reader =
          ((reader rest).value, (r.moveTo rest).moveTo (reader rest).rest) := rfl
      rw [hRead]
      cases hValue : (reader rest).value with
      | error e => rfl
      | ok statement =>
          simp only [Setup.runAll, Rendering.moveTo_context]
          rcases statement.run resolve r.context session with ⟨result, after⟩
          cases result with
          | error e => rfl
          | ok _ =>
              exact ih ((r.moveTo rest).moveTo (reader rest).rest) (reader rest).forward after
  | misplaced r token rest hRest hBlank hServe hOther =>
      rw [hRest, preamble_misplaced hBlank hServe hOther,
        Rendering.statements_misplaced hRest hBlank hServe hOther]
      rfl

end HtmlTemplate
