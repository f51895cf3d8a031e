import HtmlTemplate.Proofs.Render.Conditions
import HtmlTemplate.Proofs.Script.Failures
import HtmlTemplate.Proofs.Script.Parentheses

/-! Parentheses around a condition. One that begins with a parenthesis and ends with one is
evaluated as what stands between them. That is the same expression if the two belong together,
and none at all if they do not. -/
namespace HtmlTemplate

open Script (ClosesParens Expr Readable SameExpr lexemes)

/-- The same truth value, or the same kind of failure. -/
def SameOutcome (x y : Except EvalError Bool) : Prop :=
  x.mapError EvalError.kind = y.mapError EvalError.kind

/-- Whether the parentheses that a condition begins and ends with belong together, if it does:
what stands between them closes the parentheses it opens, and no others. -/
def ParensMatch (condition : String) : Prop :=
  ∀ inner ∈ insideParens? (Text.trim condition.toList), ClosesParens 0 (lexemes inner)

instance (condition : String) : Decidable (ParensMatch condition) :=
  inferInstanceAs (Decidable (∀ inner ∈ insideParens? _, ClosesParens 0 (lexemes inner)))

section

variable {condition : String} {e : Expr}

/-- A condition without the blanks around it. -/
theorem parse_trimmed (h : Expr.parse condition = .ok e) :
    ∃ f, Expr.parse (String.ofList (Text.trim condition.toList)) = .ok f ∧ SameExpr e f := by
  obtain ⟨ts, -, hReadable, -⟩ := Script.exists_parserTokens h
  have hTrim := Script.lexemes_trim hReadable
  rw [← String.toList_ofList (l := Text.trim condition.toList)] at hTrim
  exact Script.parse_of_lexemes h hTrim.1 hTrim.2

/-- A condition whose outer parentheses belong together is evaluated as it stands. -/
theorem conditionHolds_of_parensMatch (h : Expr.parse condition = .ok e)
    (hMatch : ParensMatch condition) (context : Context) (session : Session) :
    context.conditionHolds session condition =
      (Script.evaluate condition (context.environment session)).map Data.truthy := by
  obtain ⟨f, hTrimmed, hSame⟩ := parse_trimmed h
  unfold Context.conditionHolds
  dsimp only
  refine congrArg (Except.map Data.truthy) ?_
  cases hInside : insideParens? (Text.trim condition.toList) with
  | none => exact Script.evaluate_same h hTrimmed hSame _
  | some inner =>
      have hText := insideParens?_eq_some.mp hInside
      obtain ⟨g, hInner, hSameInner⟩ := (Script.parse_inside_iff hTrimmed
        (by rwa [String.toList_ofList])).mpr (hMatch inner hInside)
      exact Script.evaluate_same h hInner (hSame.trans hSameInner) _

/-- One whose outer parentheses do not belong together is evaluated as what is no expression. -/
theorem conditionHolds_of_not_parensMatch (hMatch : ¬ ParensMatch condition) (context : Context)
    (session : Session) :
    ∃ error, context.conditionHolds session condition = .error (.malformed error) := by
  obtain ⟨inner, hInside, hOpen⟩ : ∃ inner ∈ insideParens? (Text.trim condition.toList),
      ¬ ClosesParens 0 (lexemes inner) := by
    simpa [ParensMatch] using hMatch
  cases hInner : Expr.parse (String.ofList inner) with
  | ok g =>
      have hCloses := Script.closesParens_of_parse hInner
      rw [String.toList_ofList] at hCloses
      exact absurd hCloses hOpen
  | error error =>
      refine ⟨error, ?_⟩
      unfold Context.conditionHolds
      dsimp only
      rw [Option.mem_def.mp hInside, Option.getD_some, Script.evaluate, hInner]
      rfl

end

/-- Where nothing has been declared there are no functions. -/
theorem bareContext_function? (name : String) :
    (bareContext.environment (Session.start 64)).function? name = none := by
  change (ScopeArena.empty : ScopeArena Function).lookup? 0 name = none
  rw [ScopeArena.lookup?]
  rfl

/-- The parentheses around a condition may be left out, exactly if those that the condition itself
begins and ends with, if it does, belong together: then the condition has the same truth value or
the same kind of failure with and without them in every state. -/
theorem sameOutcome_parenthesised_iff {condition : String} {e : Expr}
    (h : Expr.parse condition = .ok e) :
    (∀ (context : Context) (session : Session),
      SameOutcome (context.conditionHolds session condition)
        (context.conditionHolds session (parenthesised condition))) ↔ ParensMatch condition := by
  constructor
  · intro hSame
    by_contra hMatch
    have hOutcome := hSame bareContext (Session.start 64)
    obtain ⟨error, hMalformed⟩ :=
      conditionHolds_of_not_parensMatch hMatch bareContext (Session.start 64)
    rw [SameOutcome, hMalformed, bareContext.conditionHolds_parenthesised] at hOutcome
    obtain ⟨failure, hFailure, hKind⟩ := mapError_eq_error.mp hOutcome.symm
    cases hValue : Script.evaluate condition (bareContext.environment (Session.start 64)) with
    | ok value =>
        rw [hValue] at hFailure
        cases hFailure
    | error found =>
        rw [hValue] at hFailure
        cases hFailure
        exact (Script.evaluate_malformed_iff bareContext_function? condition).mp
          ⟨_, hValue, hKind⟩ e h
  · intro hMatch context session
    rw [SameOutcome, conditionHolds_of_parensMatch h hMatch,
      context.conditionHolds_parenthesised]

/-- The tree of `who == "a)"`. -/
def quotedParen : Expr :=
  .binary ⟨0, 0⟩ .eq (.identifier ⟨0, 0⟩ "who") (.string ⟨0, 0⟩ "a)")

/-- Parentheses that belong together may be doubled; one in quotes does not count. -/
theorem quotedParen_sameOutcome :
    ∃ e, Expr.parse "(who == \"a)\")" = .ok e ∧ ParensMatch "(who == \"a)\")" ∧
      ∀ (context : Context) (session : Session),
        SameOutcome (context.conditionHolds session "(who == \"a)\")")
          (context.conditionHolds session (parenthesised "(who == \"a)\")")) := by
  have hWellFormed : quotedParen.WellFormed (fun _ => True) := by
    simp [quotedParen, Expr.WellFormed]
  obtain ⟨e, hParse, -⟩ := Script.parse_of_printAt "(who == \"a)\")" hWellFormed
    (Nat.le_refl 10) (by decide +kernel) (by decide +kernel)
  have hMatch : ParensMatch "(who == \"a)\")" := by decide +kernel
  exact ⟨e, hParse, hMatch, (sameOutcome_parenthesised_iff hParse).mpr hMatch⟩

/-- The tree of `(true || false) && (false || true)`. -/
def bothSides : Expr :=
  .binary ⟨0, 0⟩ .and
    (.binary ⟨0, 0⟩ .or (.boolean ⟨0, 0⟩ true) (.boolean ⟨0, 0⟩ false))
    (.binary ⟨0, 0⟩ .or (.boolean ⟨0, 0⟩ false) (.boolean ⟨0, 0⟩ true))

/-- A condition between two parentheses that do not belong together fails, and holds in further
ones. -/
theorem bothSides_not_sameOutcome :
    (∃ e, Expr.parse "(true || false) && (false || true)" = .ok e) ∧
      (∃ error, bareContext.conditionHolds (Session.start 64)
        "(true || false) && (false || true)" = .error (.malformed error)) ∧
      bareContext.conditionHolds (Session.start 64)
        (parenthesised "(true || false) && (false || true)") = .ok true ∧
      ¬ SameOutcome
        (bareContext.conditionHolds (Session.start 64) "(true || false) && (false || true)")
        (bareContext.conditionHolds (Session.start 64)
          (parenthesised "(true || false) && (false || true)")) := by
  have hWellFormed : bothSides.WellFormed (fun _ => True) := by
    simp [bothSides, Expr.WellFormed]
  obtain ⟨e, hParse, hValue⟩ := Script.parse_of_pieces "(true || false) && (false || true)"
    hWellFormed (by decide +kernel) (by decide +kernel)
  have hMatch : ¬ ParensMatch "(true || false) && (false || true)" := by decide +kernel
  obtain ⟨error, hMalformed⟩ :=
    conditionHolds_of_not_parensMatch hMatch bareContext (Session.start 64)
  have hHolds : bareContext.conditionHolds (Session.start 64)
      (parenthesised "(true || false) && (false || true)") = .ok true := by
    rw [bareContext.conditionHolds_parenthesised, hValue, Expr.evalIn, bothSides]
    simp only [Script.eval]
    rfl
  refine ⟨⟨e, hParse⟩, ⟨error, hMalformed⟩, hHolds, ?_⟩
  rw [SameOutcome, hMalformed, hHolds]
  intro hSame
  cases hSame

end HtmlTemplate
