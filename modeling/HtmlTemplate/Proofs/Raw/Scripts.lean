import HtmlTemplate.Proofs.Raw.Values
import HtmlTemplate.Proofs.Script.Pieces
import HtmlTemplate.Proofs.Script.Reading
import HtmlTemplate.Proofs.Script.StatementGrammar

/-! Script text that cannot name the raw data. Its tokens are parts of it and its trees are
put together from them, so that no name and no string in a tree can either. -/
namespace HtmlTemplate.Script

open Text (Plain)

/-! Tokens. -/

/-- The text a lexeme holds is plain. -/
def Lexeme.Plain : Lexeme → Prop
  | .string text | .identifier text | .reference text => Text.Plain text.toList
  | _ => True

/-- The texts of all tokens are plain. -/
def PlainTokens (ts : List Token) : Prop := ∀ t ∈ ts, t.lexeme.Plain

theorem plainTokens_cons {t : Token} {rest : List Token} :
    PlainTokens (t :: rest) ↔ t.lexeme.Plain ∧ PlainTokens rest :=
  List.forall_mem_cons

theorem plain_unescape {quote d : Char} (h : d ≠ '_') : Plain (unescape quote d) := by
  unfold unescape
  repeat' split
  all_goals simp [h]

theorem plain_stringBody {quote : Char} {text found : List Char} {n : Nat} (h : Plain text)
    (hFound : stringBody quote text = .ok (found, n)) : Plain found := by
  fun_induction stringBody quote text generalizing found n with
  | case1 => cases hFound
  | case2 =>
      cases hFound
      exact Text.plain_nil
  | case3 => cases hFound
  | case4 d rest _ ih =>
      obtain ⟨⟨inner, m⟩, hInner, hEq⟩ := map_eq_ok.mp hFound
      cases hEq
      simp only [Text.plain_cons] at h
      exact Text.plain_append.mpr ⟨plain_unescape h.2.1, ih h.2.2 hInner⟩
  | case5 c rest _ _ ih =>
      obtain ⟨⟨inner, m⟩, hInner, hEq⟩ := map_eq_ok.mp hFound
      cases hEq
      obtain ⟨hFirst, hRest⟩ := Text.plain_cons.mp h
      exact Text.plain_cons.mpr ⟨hFirst, ih hRest hInner⟩

theorem plain_referenceBody {depth : Nat} {text path : List Char} (h : Plain text)
    (hFound : referenceBody depth text = some path) : Plain path := by
  fun_induction referenceBody depth text generalizing path with
  | case1 => cases hFound
  | case3 =>
      cases hFound
      exact Text.plain_nil
  | case2 _ _ ih | case4 _ _ _ ih | case5 _ _ _ _ _ ih =>
      obtain ⟨inner, hInner, rfl⟩ := Option.map_eq_some_iff.mp hFound
      obtain ⟨hFirst, hRest⟩ := Text.plain_cons.mp h
      exact Text.plain_cons.mpr ⟨hFirst, ih hRest hInner⟩

theorem plain_wordLexeme {word : List Char} (h : Plain word) : (wordLexeme word).Plain := by
  unfold wordLexeme
  split
  all_goals first
    | trivial
    | exact Text.plain_ofList.mpr h

theorem skipTrivia_subset (position : Nat) (text : List Char) :
    (skipTrivia position text).2 ⊆ text := by
  fun_induction skipTrivia position text
  case case1 rest hSame ih =>
    intro c hc
    have hRest := List.dropWhile_subset _ (ih hc)
    exact List.dropWhile_subset _ (hSame ▸ List.mem_cons_of_mem _ (List.mem_cons_of_mem _ hRest))
  case case2 rest hSame _ ih =>
    intro c hc
    have hRest := List.drop_subset _ _ (ih hc)
    exact List.dropWhile_subset _ (hSame ▸ List.mem_cons_of_mem _ (List.mem_cons_of_mem _ hRest))
  case case3 => exact List.dropWhile_subset _

/-- What begins at a character of a plain text is a plain lexeme. -/
theorem plain_lexAt {start : Nat} {c : Char} {rest : List Char} {found : Lexed}
    (h : Plain (c :: rest)) (hFound : lexAt start c rest = .ok found) : found.lexeme.Plain := by
  obtain ⟨hFirst, hRest⟩ := Text.plain_cons.mp h
  cases lexAt_eq_ok.mp hFound with
  | number | optionalChain | symbol => trivial
  | string _ hBody => exact Text.plain_ofList.mpr (plain_stringBody hRest hBody)
  | reference _ hPath =>
      exact Text.plain_ofList.mpr (plain_referenceBody (hRest.drop 1) hPath).trim
  | markedWord => exact plain_wordLexeme (hRest.takeWhile _)
  | word => exact plain_wordLexeme (Text.plain_cons.mpr ⟨hFirst, hRest.takeWhile _⟩)

theorem plain_lexFrom {position : Nat} {text : List Char} {ts : List Token} (h : Plain text)
    (hTokens : lexFrom position text = .ok ts) : PlainTokens ts := by
  fun_induction lexFrom position text generalizing ts
  case case1 =>
    cases hTokens
    intro t ht
    cases List.mem_singleton.mp ht
    trivial
  case case2 => cases hTokens
  case case3 position text start c rest hSkipped found hFound _ ih =>
    obtain ⟨later, hLater, rfl⟩ := map_eq_ok.mp hTokens
    have hLeft : Plain (c :: rest) := by
      have hSubset := skipTrivia_subset position text
      rw [hSkipped] at hSubset
      exact h.subset hSubset
    have hRest := (Text.plain_cons.mp hLeft).2
    exact List.forall_mem_cons.mpr
      ⟨plain_lexAt hLeft hFound, ih (hRest.drop _) hLater⟩

/-! Trees. -/

mutual

/-- All names and strings in an expression are plain. -/
def Expr.Plain : Expr → Prop
  | .string _ text | .identifier _ text | .reference _ text => Text.Plain text.toList
  | .number .. | .boolean .. | .null .. | .undefined .. => True
  | .binary _ _ left right => left.Plain ∧ right.Plain
  | .unary _ _ operand | .step _ _ operand => operand.Plain
  | .member _ object property _ _ => object.Plain ∧ property.Plain
  | .call _ callee arguments => callee.Plain ∧ PlainExprs arguments
  | .conditional _ condition consequent alternate =>
    condition.Plain ∧ consequent.Plain ∧ alternate.Plain
  | .object _ properties => PlainProperties properties
  | .array _ items => PlainExprs items
  | .assign _ _ target value => target.Plain ∧ value.Plain

/-- The same of expressions, -/
def PlainExprs : List Expr → Prop
  | [] => True
  | e :: rest => e.Plain ∧ PlainExprs rest

/-- and of properties. -/
def PlainProperties : List Property → Prop
  | [] => True
  | .mk key value _ :: rest => Text.Plain key.toList ∧ value.Plain ∧ PlainProperties rest

end

mutual

/-- All names and strings in a statement are plain. -/
def Statement.Plain : Statement → Prop
  | .declare _ name value => Text.Plain name.toList ∧ ∀ e ∈ value, e.Plain
  | .giveBack value => ∀ e ∈ value, e.Plain
  | .branch condition consequent alternate =>
    condition.Plain ∧ PlainStatements consequent ∧ PlainStatements alternate
  | .block body => PlainStatements body
  | .expression e => e.Plain

/-- The same of statements. -/
def PlainStatements : List Statement → Prop
  | [] => True
  | s :: rest => s.Plain ∧ PlainStatements rest

end

theorem plainProperties_cons {property : Property} {rest : List Property}
    (h : PlainProperties [property]) (hRest : PlainProperties rest) :
    PlainProperties (property :: rest) := by
  obtain ⟨key, value, shorthand⟩ := property
  exact ⟨h.1, h.2.1, hRest⟩

theorem PlainStatements.append {s t : List Statement} (hs : PlainStatements s)
    (ht : PlainStatements t) : PlainStatements (s ++ t) := by
  induction s with
  | nil => exact ht
  | cons first rest ih => exact ⟨hs.1, ih hs.2⟩

theorem plain_some {e : Expr} (h : e.Plain) : ∀ d ∈ some e, d.Plain := by
  rintro _ ⟨⟩
  exact h

/-! What plain tokens are read as. -/

theorem plain_of_operand {t : Token} {e : Expr} (h : t.lexeme.Plain) (he : t.operand? = some e) :
    e.Plain := by
  obtain ⟨lexeme, x⟩ := t
  cases lexeme <;> cases he <;> exact h

theorem plain_of_memberName {lexeme : Lexeme} {name : String} (h : lexeme.Plain)
    (hName : lexeme.memberName? = some name) : Plain name.toList := by
  cases lexeme with
  | identifier text =>
      cases hName
      exact h
  | boolean b =>
      cases hName
      cases b <;> decide
  | null | undefined | typeof =>
      cases hName
      decide
  | _ => cases hName

theorem plain_of_propertyKey {lexeme : Lexeme} {key : String} (h : lexeme.Plain)
    (hKey : propertyKey? lexeme = some key) : Plain key.toList := by
  unfold propertyKey? at hKey
  split at hKey
  · cases hKey
    exact h
  · cases hKey
    exact h
  · cases hKey
    exact plain_doubleText _
  · cases hKey

/-- All names and strings in a phrase are plain. -/
def Phrase.Plain : Phrase → Prop
  | .expression e => e.Plain
  | .items _ es _ => PlainExprs es
  | .properties ps _ => PlainProperties ps
  | .property p => PlainProperties [p]

theorem Derives.plain {phrase : Phrase} {ts rest : List Token} (hDerives : Derives ts phrase rest)
    (h : PlainTokens ts) : phrase.Plain ∧ PlainTokens rest := by
  induction hDerives with
  | operand hOperand =>
      obtain ⟨hFirst, hRest⟩ := plainTokens_cons.mp h
      exact ⟨plain_of_operand hFirst hOperand, hRest⟩
  | parenthesised _ ih =>
      obtain ⟨hInner, hRest⟩ := ih (plainTokens_cons.mp h).2
      exact ⟨hInner, (plainTokens_cons.mp hRest).2⟩
  | array _ ih | object _ ih | unary _ _ ih => exact ih (plainTokens_cons.mp h).2
  | binary _ _ _ ihLeft ihRight =>
      obtain ⟨hLeft, hMore⟩ := ihLeft h
      obtain ⟨hRight, hRest⟩ := ihRight (plainTokens_cons.mp hMore).2
      exact ⟨⟨hLeft, hRight⟩, hRest⟩
  | conditional _ _ _ ihCondition ihConsequent ihAlternate =>
      obtain ⟨hCondition, hMore⟩ := ihCondition h
      obtain ⟨hConsequent, hOthers⟩ := ihConsequent (plainTokens_cons.mp hMore).2
      obtain ⟨hAlternate, hRest⟩ := ihAlternate (plainTokens_cons.mp hOthers).2
      exact ⟨⟨hCondition, hConsequent, hAlternate⟩, hRest⟩
  | assign _ _ _ ihTarget ihValue =>
      obtain ⟨hTarget, hMore⟩ := ihTarget h
      obtain ⟨hValue, hRest⟩ := ihValue (plainTokens_cons.mp hMore).2
      exact ⟨⟨hTarget, hValue⟩, hRest⟩
  | member _ _ hName ih =>
      obtain ⟨hObject, hMore⟩ := ih h
      obtain ⟨hFirst, hRest⟩ := plainTokens_cons.mp (plainTokens_cons.mp hMore).2
      exact ⟨⟨hObject, plain_of_memberName hFirst hName⟩, hRest⟩
  | index _ _ ih ihProperty =>
      obtain ⟨hObject, hMore⟩ := ih h
      obtain ⟨hProperty, hRest⟩ := ihProperty (plainTokens_cons.mp hMore).2
      exact ⟨⟨hObject, hProperty⟩, (plainTokens_cons.mp hRest).2⟩
  | call _ _ ih ihItems =>
      obtain ⟨hCallee, hMore⟩ := ih h
      obtain ⟨hArguments, hRest⟩ := ihItems (plainTokens_cons.mp hMore).2
      exact ⟨⟨hCallee, hArguments⟩, hRest⟩
  | step _ _ ih =>
      obtain ⟨hOperand, hRest⟩ := ih h
      exact ⟨hOperand, (plainTokens_cons.mp hRest).2⟩
  | noItem | noProperty => exact ⟨trivial, (plainTokens_cons.mp h).2⟩
  | lastItem _ ih =>
      obtain ⟨hItem, hRest⟩ := ih h
      exact ⟨⟨hItem, trivial⟩, (plainTokens_cons.mp hRest).2⟩
  | item _ _ ih ihMore =>
      obtain ⟨hItem, hMore⟩ := ih h
      obtain ⟨hItems, hRest⟩ := ihMore (plainTokens_cons.mp hMore).2
      exact ⟨⟨hItem, hItems⟩, hRest⟩
  | lastProperty _ ih =>
      obtain ⟨hProperty, hRest⟩ := ih h
      exact ⟨hProperty, (plainTokens_cons.mp hRest).2⟩
  | nextProperty _ _ ih ihMore =>
      obtain ⟨hProperty, hMore⟩ := ih h
      obtain ⟨hProperties, hRest⟩ := ihMore (plainTokens_cons.mp hMore).2
      exact ⟨plainProperties_cons hProperty hProperties, hRest⟩
  | property hKey _ ih =>
      obtain ⟨hFirst, hMore⟩ := plainTokens_cons.mp h
      obtain ⟨hValue, hRest⟩ := ih (plainTokens_cons.mp hMore).2
      exact ⟨⟨plain_of_propertyKey hFirst hKey, hValue, trivial⟩, hRest⟩
  | shorthand hKey =>
      obtain ⟨hFirst, hRest⟩ := plainTokens_cons.mp h
      have hName := plain_of_propertyKey hFirst hKey
      exact ⟨⟨hName, hName, trivial⟩, hRest⟩

theorem plain_declarationStatement {declared : List Statement} (h : PlainStatements declared) :
    (declarationStatement declared).Plain := by
  unfold declarationStatement
  split
  · exact h.1
  · exact h

/-- All names and strings in a clause are plain. -/
def Clause.Plain : Clause → Prop
  | .statement found => PlainStatements found.toList
  | .branch body | .block body | .declarations _ body => PlainStatements body
  | .value e => ∀ d ∈ e, d.Plain

theorem DerivesClause.plain {clause : Clause} {ts rest : List Token}
    (hDerives : DerivesClause ts clause rest) (h : PlainTokens ts) :
    clause.Plain ∧ PlainTokens rest := by
  induction hDerives with
  | block _ ih =>
      obtain ⟨hBody, hRest⟩ := ih (plainTokens_cons.mp h).2
      exact ⟨⟨hBody, trivial⟩, hRest⟩
  | giveBackNothing => exact ⟨⟨nofun, trivial⟩, (plainTokens_cons.mp h).2⟩
  | giveBack hValue =>
      obtain ⟨hPlain, hRest⟩ := hValue.plain (plainTokens_cons.mp h).2
      exact ⟨⟨plain_some hPlain, trivial⟩, hRest⟩
  | branch hCondition _ ih =>
      have hTokens := (plainTokens_cons.mp (plainTokens_cons.mp h).2).2
      obtain ⟨hPlain, hMore⟩ := hCondition.plain hTokens
      obtain ⟨hConsequent, hRest⟩ := ih (plainTokens_cons.mp hMore).2
      exact ⟨⟨⟨hPlain, hConsequent, trivial⟩, trivial⟩, hRest⟩
  | branchElse hCondition _ _ ih ihAlternate =>
      have hTokens := (plainTokens_cons.mp (plainTokens_cons.mp h).2).2
      obtain ⟨hPlain, hMore⟩ := hCondition.plain hTokens
      obtain ⟨hConsequent, hOthers⟩ := ih (plainTokens_cons.mp hMore).2
      obtain ⟨hAlternate, hRest⟩ := ihAlternate (plainTokens_cons.mp hOthers).2
      exact ⟨⟨⟨hPlain, hConsequent, hAlternate⟩, trivial⟩, hRest⟩
  | declare _ _ ih =>
      obtain ⟨hDeclared, hRest⟩ := ih (plainTokens_cons.mp h).2
      exact ⟨⟨plain_declarationStatement hDeclared, trivial⟩, hRest⟩
  | expression he =>
      obtain ⟨hPlain, hRest⟩ := he.plain h
      exact ⟨⟨hPlain, trivial⟩, hRest⟩
  | semicolon _ ih =>
      obtain ⟨hFound, hRest⟩ := ih h
      exact ⟨hFound, (plainTokens_cons.mp hRest).2⟩
  | braced _ ih => exact ih (plainTokens_cons.mp h).2
  | single _ ih => exact ih h
  | empty | close => exact ⟨trivial, (plainTokens_cons.mp h).2⟩
  | next _ _ ih ihOthers =>
      obtain ⟨hFound, hMore⟩ := ih h
      obtain ⟨hOthers, hRest⟩ := ihOthers hMore
      exact ⟨hFound.append hOthers, hRest⟩
  | noValue => exact ⟨nofun, h⟩
  | value he =>
      obtain ⟨hPlain, hRest⟩ := he.plain (plainTokens_cons.mp h).2
      exact ⟨plain_some hPlain, hRest⟩
  | lastVariable _ ih =>
      obtain ⟨hName, hMore⟩ := plainTokens_cons.mp h
      obtain ⟨hValue, hRest⟩ := ih hMore
      exact ⟨⟨⟨hName, hValue⟩, trivial⟩, hRest⟩
  | nextVariable _ _ ih ihMore =>
      obtain ⟨hName, hTokens⟩ := plainTokens_cons.mp h
      obtain ⟨hValue, hMore⟩ := ih hTokens
      obtain ⟨hDeclared, hRest⟩ := ihMore (plainTokens_cons.mp hMore).2
      exact ⟨⟨⟨hName, hValue⟩, hDeclared⟩, hRest⟩

theorem DerivesProgram.plain {ts : List Token} {body : List Statement}
    (hDerives : DerivesProgram ts body) (h : PlainTokens ts) : PlainStatements body := by
  induction hDerives with
  | finish => trivial
  | next hFound _ ih =>
      obtain ⟨hPlain, hRest⟩ := hFound.plain h
      exact PlainStatements.append hPlain (ih hRest)

theorem plain_parserTokens {source : String} {ts : List Token} (h : Plain source.toList)
    (hTokens : parserTokens source = .ok ts) : PlainTokens ts :=
  plain_lexFrom h (mapError_eq_ok.mp hTokens)

/-- What is read of a plain text is a plain expression, -/
theorem plain_parse {source : String} {e : Expr} (h : Plain source.toList)
    (hParsed : Expr.parse source = .ok e) : e.Plain := by
  obtain ⟨ts, hTokens, -⟩ := bind_eq_ok.mp hParsed
  obtain ⟨x, rest, less, hRead⟩ := (parse_eq_ok hTokens).mp hParsed
  exact ((derives_of_assignment hRead).plain (plain_parserTokens h hTokens)).1

/-- or a plain list of statements. -/
theorem plain_parseAll {source : String} {body : List Statement} (h : Plain source.toList)
    (hParsed : Statement.parseAll source = .ok body) : PlainStatements body := by
  obtain ⟨ts, hTokens, hBody⟩ := bind_eq_ok.mp hParsed
  have hProgram := (statements_yields (List.suffix_refl ts)).of_ok hBody
  exact hProgram.plain (plain_parserTokens h hTokens)

end HtmlTemplate.Script
