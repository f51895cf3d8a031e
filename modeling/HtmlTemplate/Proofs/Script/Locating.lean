import HtmlTemplate.Proofs.Script.Containment
import HtmlTemplate.Proofs.Script.StatementGrammar

/-! Where the expressions of statements stand, and where those of a whole text do: within the
text, each around its parts. A text that is refused is refused for characters that it has. -/
namespace HtmlTemplate.Script

mutual

/-- The expressions that a statement and the statements in it are made of. -/
def Statement.expressions : Statement → List Expr
  | .declare _ _ value | .giveBack value => value.toList
  | .branch condition consequent alternate =>
    condition :: (bodyExpressions consequent ++ bodyExpressions alternate)
  | .block body => bodyExpressions body
  | .expression e => [e]

/-- The same of several statements. -/
def bodyExpressions : List Statement → List Expr
  | [] => []
  | s :: rest => s.expressions ++ bodyExpressions rest

end

/-- The expressions of statements stand within a text of `n` characters. -/
def BodyPlaced (n : Nat) (body : List Statement) : Prop :=
  ∀ e ∈ bodyExpressions body, e.Placed 0 n

section

variable {n : Nat} {s : Statement} {body more : List Statement}

theorem bodyPlaced_nil : BodyPlaced n [] := by
  simp [BodyPlaced, bodyExpressions]

theorem bodyPlaced_cons : BodyPlaced n (s :: body) ↔
    (∀ e ∈ s.expressions, e.Placed 0 n) ∧ BodyPlaced n body := by
  simp only [BodyPlaced, bodyExpressions, List.forall_mem_append]

theorem bodyPlaced_single : BodyPlaced n [s] ↔ ∀ e ∈ s.expressions, e.Placed 0 n :=
  bodyPlaced_cons.trans (and_iff_left bodyPlaced_nil)

theorem BodyPlaced.append (h : BodyPlaced n body) (hMore : BodyPlaced n more) :
    BodyPlaced n (body ++ more) := by
  induction body with
  | nil => exact hMore
  | cons s rest ih =>
      obtain ⟨hFirst, hRest⟩ := bodyPlaced_cons.mp h
      exact bodyPlaced_cons.mpr ⟨hFirst, ih hRest⟩

theorem BodyPlaced.declarationStatement (h : BodyPlaced n body) :
    BodyPlaced n [declarationStatement body] := by
  unfold Script.declarationStatement
  split
  · exact h
  · exact bodyPlaced_single.mpr h

end

/-! What stands somewhere in a text, by the grammar. -/

/-- The expressions of a clause stand within a text of `n` characters. -/
def Clause.Placed (n : Nat) : Clause → Prop
  | .statement found => BodyPlaced n found.toList
  | .branch body | .block body | .declarations _ body => BodyPlaced n body
  | .value e => ∀ d ∈ e.toList, d.Placed 0 n

theorem bodyPlaced_branch {n : Nat} {condition : Expr} {consequent alternate : List Statement}
    (hCondition : condition.Placed 0 n) (hConsequent : BodyPlaced n consequent)
    (hAlternate : BodyPlaced n alternate) :
    BodyPlaced n [.branch condition consequent alternate] := by
  refine bodyPlaced_single.mpr (List.forall_mem_cons.mpr ⟨hCondition, ?_⟩)
  exact List.forall_mem_append.mpr ⟨hConsequent, hAlternate⟩

theorem DerivesClause.placed {clause : Clause} {ts rest : List Token}
    (h : DerivesClause ts clause rest) {n p : Nat} (hAligned : Aligned n p ts) :
    clause.Placed n ∧ ∃ q, Aligned n q rest := by
  induction h generalizing p with
  | empty => exact ⟨bodyPlaced_nil, p, hAligned.tail⟩
  | block _ ih =>
      obtain ⟨hBody, hRest⟩ := ih hAligned.tail
      exact ⟨bodyPlaced_single.mpr hBody, hRest⟩
  | giveBackNothing =>
      exact ⟨bodyPlaced_single.mpr (by simp [Statement.expressions]), p, hAligned.tail⟩
  | giveBack hValue =>
      obtain ⟨hPlaced, hRest⟩ := hValue.placed_within hAligned.tail
      exact ⟨bodyPlaced_single.mpr (by simpa [Statement.expressions] using hPlaced), hRest⟩
  | branch hCondition _ ih =>
      obtain ⟨hPlaced, q, hMore⟩ := hCondition.placed_within hAligned.tail.tail
      obtain ⟨hConsequent, hRest⟩ := ih hMore.tail
      exact ⟨bodyPlaced_branch hPlaced hConsequent bodyPlaced_nil, hRest⟩
  | branchElse hCondition _ _ ih ihAlternate =>
      obtain ⟨hPlaced, q, hMore⟩ := hCondition.placed_within hAligned.tail.tail
      obtain ⟨hConsequent, r, hOthers⟩ := ih hMore.tail
      obtain ⟨hAlternate, hRest⟩ := ihAlternate hOthers.tail
      exact ⟨bodyPlaced_branch hPlaced hConsequent hAlternate, hRest⟩
  | declare _ _ ih =>
      obtain ⟨hDeclared, hRest⟩ := ih hAligned.tail
      exact ⟨BodyPlaced.declarationStatement hDeclared, hRest⟩
  | expression he =>
      obtain ⟨hPlaced, hRest⟩ := he.placed_within hAligned
      exact ⟨bodyPlaced_single.mpr (by simpa [Statement.expressions] using hPlaced), hRest⟩
  | semicolon _ ih =>
      obtain ⟨hFound, q, hRest⟩ := ih hAligned
      exact ⟨hFound, q, hRest.tail⟩
  | braced _ ih => exact ih hAligned.tail
  | single _ ih => exact ih hAligned
  | close => exact ⟨bodyPlaced_nil, p, hAligned.tail⟩
  | next _ _ ih ihOthers =>
      obtain ⟨hFound, q, hMore⟩ := ih hAligned
      obtain ⟨hOthers, hRest⟩ := ihOthers hMore
      exact ⟨BodyPlaced.append hFound hOthers, hRest⟩
  | noValue => exact ⟨nofun, p, hAligned⟩
  | value he =>
      obtain ⟨hPlaced, hRest⟩ := he.placed_within hAligned.tail
      exact ⟨List.forall_mem_singleton.mpr hPlaced, hRest⟩
  | lastVariable _ ih =>
      obtain ⟨hValue, hRest⟩ := ih hAligned.tail
      exact ⟨bodyPlaced_single.mpr hValue, hRest⟩
  | nextVariable _ _ ih ihMore =>
      obtain ⟨hValue, q, hMore⟩ := ih hAligned.tail
      obtain ⟨hDeclared, hRest⟩ := ihMore hMore.tail
      exact ⟨bodyPlaced_cons.mpr ⟨hValue, hDeclared⟩, hRest⟩

theorem DerivesProgram.placed {ts : List Token} {body : List Statement}
    (h : DerivesProgram ts body) {n p : Nat} (hAligned : Aligned n p ts) : BodyPlaced n body := by
  induction h generalizing p with
  | finish => exact bodyPlaced_nil
  | next hFound _ ih =>
      obtain ⟨hPlaced, q, hRest⟩ := hFound.placed hAligned
      exact BodyPlaced.append hPlaced (ih hRest)

/-! Whole texts. -/

/-- Where things stand in a text that expressions are read of: its tokens are in order, and
each expression that is read, or contained in one that is, has some of the text and has its
parts within its own extent, one behind another. -/
structure WellPlaced (source : String) (read : List Expr) : Prop where
  tokens_inOrder : ∃ ts, tokens source = .ok ts ∧ InOrder source.length ts
  occupies : ∀ e ∈ read, ∀ d, e.Contains d → d.extent.Occupies 0 source.length
  nests : ∀ e ∈ read, e.Nests

/-- The tokens of a text stand one behind another, or there are none because of some of its
characters. -/
theorem parserTokens_reports (source : String) :
    Reports source.length (fun ts => tokens source = .ok ts ∧ Aligned source.length 0 ts)
      (parserTokens source) := by
  have hLength : 0 + source.toList.length = source.length := by
    rw [Nat.zero_add, String.length_toList]
  unfold parserTokens
  cases hTokens : tokens source with
  | error e => exact within_of_lexFrom_error hLength hTokens
  | ok ts => exact ⟨rfl, aligned_of_lexFrom hLength hTokens⟩

theorem wellPlaced_of_placed {source : String} {ts : List Token} {read : List Expr}
    (hTokens : tokens source = .ok ts) (h : Aligned source.length 0 ts)
    (hRead : ∀ e ∈ read, e.Placed 0 source.length) : WellPlaced source read where
  tokens_inOrder := ⟨ts, hTokens, h.inOrder⟩
  occupies e he _ hd := (hRead e he).contains hd
  nests e he := (hRead e he).nests

/-- Where a text is read as an expression or as statements, its tokens are in order and all
expressions nest, within the text; where it is refused, the error is about characters of the
text. -/
theorem extents_nest (source : String) :
    Reports source.length (fun e => WellPlaced source [e]) (Expr.parse source) ∧
      Reports source.length (fun body => WellPlaced source (bodyExpressions body))
        (Statement.parseAll source) := by
  constructor
  · refine (parserTokens_reports source).bind fun ts ⟨hTokens, hAligned⟩ => ?_
    have hRead := Yields.reports (assignment_parses (List.suffix_refl ts)) hAligned fun _ => id
    refine hRead.bind ?_
    rintro ⟨e, rest, less⟩ ⟨he, -⟩
    obtain ⟨hPlaced, q, hRest⟩ := he.placed_within hAligned
    dsimp only
    split
    · exact wellPlaced_of_placed hTokens hAligned (by simpa using hPlaced)
    · exact (Yields.unexpected (List.suffix_refl _) _).reports hRest fun _ => id
  · refine (parserTokens_reports source).bind fun ts ⟨hTokens, hAligned⟩ => ?_
    refine (statements_yields (List.suffix_refl ts)).reports hAligned fun body hBody => ?_
    exact wellPlaced_of_placed hTokens hAligned (hBody.placed hAligned)

end HtmlTemplate.Script
