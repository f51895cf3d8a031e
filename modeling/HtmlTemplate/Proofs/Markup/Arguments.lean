import HtmlTemplate.Markup.Call
import HtmlTemplate.Proofs.Data.Paths
import HtmlTemplate.Proofs.Script.Bodies
import HtmlTemplate.Proofs.Script.Spelling
import HtmlTemplate.Proofs.Source.Tags
import HtmlTemplate.Render.Setup

/-! Calls whose arguments are quoted texts. The scanner takes a backslash and the character behind
it together, so that it finds the end of such a call wherever the quotes and parentheses of its
arguments are. Splitting looks at one character back instead: a quote behind a backslash is no
quote, even if the backslash has one in front of it. So the arguments are those that have been
written unless the text of one of them ends with a backslash and another argument follows. -/
namespace HtmlTemplate

open Script (escapeQuoted)

/-- A text that is written between quotes as the argument of a call. -/
structure QuotedText where
  quote : Char
  content : List Char
  isArgumentQuote : quote = '"' ∨ quote = '\''

/-- The text between its quotes, with a backslash in front of each backslash and of each quote that
is like those around it. -/
def QuotedText.written (t : QuotedText) : List Char :=
  t.quote :: (escapeQuoted t.quote t.content ++ [t.quote])

/-- What stands between the parentheses of a call. -/
def argumentsText (args : List QuotedText) : List Char :=
  [',', ' '].intercalate (args.map QuotedText.written)

/-- A name that functions can have. -/
structure FunctionName where
  text : List Char
  isSome : text ≠ []
  isWord : text.all Source.isWordChar = true
  notReserved : String.ofList text ∉ Setup.reservedNames

/-- A call of a function with quoted texts as they are written in markup. -/
def quotedCall (name : FunctionName) (args : List QuotedText) : List Char :=
  '@' :: (name.text ++ '(' :: (argumentsText args ++ [')']))

/-- What holds of both quotes holds of those around a text. -/
theorem QuotedText.of_quotes {p : Char → Prop} (t : QuotedText) (hDouble : p '"')
    (hSingle : p '\'') : p t.quote := by
  rcases t.isArgumentQuote with h | h
  · rwa [h]
  · rwa [h]

theorem QuotedText.isQuote (t : QuotedText) : Source.isQuote t.quote = true :=
  t.of_quotes (p := (Source.isQuote · = true)) rfl rfl

theorem argumentsText_cons (t u : QuotedText) (args : List QuotedText) :
    argumentsText (t :: u :: args) = t.written ++ ',' :: ' ' :: argumentsText (u :: args) := by
  simp [argumentsText, List.intercalate_cons_cons]

theorem argumentsText_single (t : QuotedText) : argumentsText [t] = t.written :=
  List.intercalate_singleton

/-! The call before the scanner. -/

namespace Source

section

variable {b : Brackets} {file : String} {c : Cursor} {name inside behind : List Char}

/-- Whatever is in a quoted text, brackets around it are not closed in it. -/
theorem passes_written (hQuoting : b.quoting = true) (t : QuotedText) : b.Passes t.written := by
  have hBody := Script.stringBody_escapeQuoted t.isQuote t.content []
  have hPasses := Script.passes_string hQuoting t.isQuote hBody
  rwa [List.take_of_length_le (by simp)] at hPasses

theorem passes_argumentsText (args : List QuotedText) : parens.Passes (argumentsText args) := by
  induction args with
  | nil => exact passesFrom_nil
  | cons t rest ih =>
      cases rest with
      | nil =>
          rw [argumentsText_single]
          exact passes_written rfl t
      | cons u others =>
          have hComma : parens.Passes [',', ' '] := passes_of_all (by simp [isQuote, parens])
          rw [argumentsText_cons]
          exact (passes_written rfl t).append (hComma.append ih)

/-- A word is none of the control words unless it is written like it. -/
theorem atControlWord_eq_false {word : String} {first : Char}
    (hControl : word.toList.all isWordChar = true) (hName : name.all isWordChar = true)
    (hFirst : isWordChar first = false) (hOther : String.ofList name ≠ word) :
    atControlWord word (name ++ first :: behind) = false := by
  have hTaken : (name ++ first :: behind).takeWhile isWordChar = name :=
    Script.takeWhile_append_stop name hName (by simpa using hFirst)
  unfold atControlWord
  cases hRest : Text.dropPrefix? word.toList (name ++ first :: behind) with
  | none => rfl
  | some rest =>
      have hSplit := Text.dropPrefix?_eq_some hRest
      have hSame (hStop : ∀ c ∈ rest.head?, isWordChar c = false) : False := by
        rw [hSplit, Script.takeWhile_append_stop _ hControl hStop] at hTaken
        exact hOther (by rw [← hTaken, String.ofList_toList])
      cases rest with
      | nil => exact (hSame nofun).elim
      | cons d later =>
          cases hWord : isWordChar d with
          | true => simp [hWord]
          | false => exact (hSame (by simpa using hWord)).elim

theorem callText?_eq_some (hSome : name ≠ []) (hName : name.all isWordChar = true)
    (hInside : parens.Encloses inside) :
    callText? (name ++ '(' :: (inside ++ ')' :: behind)) =
      some (name ++ '(' :: (inside ++ [')'])) := by
  have hFirst : isWordChar '(' = false := rfl
  have hEnclosed := enclosed?_append hInside behind
  rw [List.append_assoc] at hEnclosed
  change enclosed? parens 0 none (inside ++ ')' :: behind) = some (inside ++ [')']) at hEnclosed
  unfold callText?
  rw [Script.takeWhile_append_stop name hName (by simp [hFirst]),
    List.dropWhile_append_of_pos (List.all_eq_true.mp hName),
    List.dropWhile_cons_of_neg (by simp [hFirst])]
  simp only [hSome, ↓reduceIte, hEnclosed, Option.map_some]

/-- A call is one token, whatever follows it. -/
theorem scansTo_call (file : String) (f : FunctionName) (hInside : parens.Encloses inside)
    (hRest : c.rest = '@' :: (f.text ++ '(' :: (inside ++ [')'])) ++ behind) :
    ∃ tokens after, ScansTo file c tokens after ∧
      tokens.map Token.lexeme =
        [(.call, String.ofList ('@' :: (f.text ++ '(' :: (inside ++ [')']))))] ∧
      after.rest = behind := by
  have hHead : c.rest.head? = some '@' := by rw [hRest]; rfl
  have hDrop : c.rest.drop 1 = f.text ++ '(' :: (inside ++ ')' :: behind) := by
    rw [hRest]
    simp
  have hParen : (c.rest.drop 1).head? ≠ some '(' := by
    rw [hDrop]
    obtain ⟨d, others, hText⟩ := List.exists_cons_of_ne_nil f.isSome
    have hWord := List.all_eq_true.mp f.isWord d (by rw [hText]; exact List.mem_cons_self)
    rw [hText]
    rintro ⟨rfl⟩
    cases hWord
  have hControl {word : String} (hMem : word ∈ Setup.reservedNames) :
      atControlWord word (c.rest.drop 1) = false := by
    rw [hDrop]
    have hWord : ∀ word ∈ Setup.reservedNames, word.toList.all isWordChar = true := by decide
    exact atControlWord_eq_false (hWord word hMem) f.isWord rfl
      fun hSame => f.notReserved (hSame ▸ hMem)
  have hCall : callText? (c.rest.drop 1) = some (f.text ++ '(' :: (inside ++ [')'])) := by
    rw [hDrop]
    exact callText?_eq_some f.isSome f.isWord hInside
  let text := '@' :: (f.text ++ '(' :: (inside ++ [')']))
  have hStep : scanStep file .markup '@' c =
      .ok ⟨[(c.token file .call text text.length).1], .markup, c.skip text.length⟩ := by
    rw [scanStep_at file c hHead]
    unfold scanAt
    dsimp only
    rw [if_neg hParen, hControl (by decide), hControl (by decide), hControl (by decide), hCall]
    rfl
  exact ⟨_, _, scansTo_of_step hHead hStep, rfl, Cursor.rest_skip_length hRest⟩

end

end Source

/-! The call before splitting. -/

section

variable {depth : Int} {quote : Char} {previous : Option Char} {current rest behind : List Char}
  {t : QuotedText}

/-- Inside of a quoted text nothing counts but the quote that closes it, -/
theorem splitArgumentsFrom_hidden {c : Char} (h : c ≠ quote ∨ previous = some '\\') :
    splitArgumentsFrom depth (some quote) previous current (c :: rest) =
      splitArgumentsFrom depth (some quote) (some c) (c :: current) rest := by
  rw [splitArgumentsFrom.eq_def]
  dsimp only
  split
  · next hToggles =>
    have hOther : c ≠ quote := h.resolve_right (by simp_all)
    simp only [hOther.symm, ↓reduceIte]
  · simp

/-- and that does not stand in its content. -/
theorem splitArgumentsFrom_content (hQuote : quote ≠ '\\') (content : List Char) :
    splitArgumentsFrom depth (some quote) previous current (escapeQuoted quote content ++ behind) =
      splitArgumentsFrom depth (some quote) (content.getLast?.or previous)
        ((escapeQuoted quote content).reverse ++ current) behind := by
  induction content generalizing previous current with
  | nil => simp [escapeQuoted]
  | cons c rest ih =>
      have hLast : (c :: rest).getLast?.or previous = rest.getLast?.or (some c) := by
        rw [List.getLast?_cons]
        cases rest.getLast? <;> rfl
      unfold escapeQuoted at ih ⊢
      rw [hLast, List.flatMap_cons]
      by_cases hEscaped : c = '\\' ∨ c = quote
      · rw [if_pos hEscaped]
        simp only [List.cons_append, List.nil_append, List.append_assoc, List.reverse_cons]
        rw [splitArgumentsFrom_hidden (.inl hQuote.symm), splitArgumentsFrom_hidden (.inr rfl), ih]
      · obtain ⟨-, hOther⟩ := not_or.mp hEscaped
        rw [if_neg hEscaped]
        simp only [List.cons_append, List.nil_append, List.append_assoc, List.reverse_cons]
        rw [splitArgumentsFrom_hidden (.inl hOther), ih]

theorem splitArgumentsFrom_opens (hPrevious : previous ≠ some '\\') :
    splitArgumentsFrom depth none previous current (t.quote :: rest) =
      splitArgumentsFrom depth (some t.quote) (some t.quote) (t.quote :: current) rest := by
  rw [splitArgumentsFrom.eq_def]
  simp [t.isArgumentQuote, hPrevious]

theorem splitArgumentsFrom_closes (hPrevious : previous ≠ some '\\') :
    splitArgumentsFrom depth (some t.quote) previous current (t.quote :: rest) =
      splitArgumentsFrom depth none (some t.quote) (t.quote :: current) rest := by
  rw [splitArgumentsFrom.eq_def]
  simp [t.isArgumentQuote, hPrevious]

/-- A comma outside of quoted texts ends an argument. -/
theorem splitArgumentsFrom_comma :
    splitArgumentsFrom 0 none previous current (',' :: ' ' :: rest) =
      Text.trim current.reverse :: splitArgumentsFrom 0 none (some ' ') [' '] rest := by
  rw [splitArgumentsFrom.eq_def]
  change Text.trim current.reverse :: splitArgumentsFrom 0 none (some ',') [] (' ' :: rest) = _
  rw [splitArgumentsFrom.eq_def 0 none (some ',')]
  rfl

/-- Behind a quoted text its quote is still open if the text ends with a backslash. -/
theorem splitArgumentsFrom_written (hPrevious : previous ≠ some '\\') :
    splitArgumentsFrom depth none previous current (t.written ++ behind) =
      splitArgumentsFrom depth (if t.content.getLast? = some '\\' then some t.quote else none)
        (some t.quote) (t.written.reverse ++ current) behind := by
  have hQuote : t.quote ≠ '\\' := t.of_quotes (p := (· ≠ '\\')) (by decide) (by decide)
  have hWritten : t.written ++ behind =
      t.quote :: (escapeQuoted t.quote t.content ++ t.quote :: behind) := by
    simp [QuotedText.written]
  have hRead : t.written.reverse ++ current =
      t.quote :: ((escapeQuoted t.quote t.content).reverse ++ t.quote :: current) := by
    simp [QuotedText.written]
  rw [hWritten, hRead, splitArgumentsFrom_opens hPrevious, splitArgumentsFrom_content hQuote]
  by_cases hLast : t.content.getLast? = some '\\'
  · rw [if_pos hLast, splitArgumentsFrom_hidden (.inr (by simp [hLast]))]
  · rw [if_neg hLast, splitArgumentsFrom_closes]
    cases hContent : t.content.getLast? with
    | none => simpa using hQuote
    | some c => simpa [hContent] using hLast

/-- What is read first begins with what has been read already. -/
theorem head_splitArgumentsFrom {quote : Option Char} {first : List Char}
    (h : first ∈ (splitArgumentsFrom depth quote previous current rest).head?) :
    ∃ more, first = Text.trim (current.reverse ++ more) := by
  have hLonger {c : Char} {current : List Char}
      (ih : ∃ more, first = Text.trim ((c :: current).reverse ++ more)) :
      ∃ more, first = Text.trim (current.reverse ++ more) := by
    obtain ⟨more, rfl⟩ := ih
    exact ⟨c :: more, by simp⟩
  fun_induction splitArgumentsFrom depth quote previous current rest
  case case1 => cases h
  case case2 | case6 =>
      refine ⟨[], ?_⟩
      rw [List.append_nil]
      exact (Option.some.inj h).symm
  case case3 ih | case4 ih | case5 ih | case7 ih => exact hLonger (ih h)

end

section

variable {previous : Option Char} {current : List Char}

theorem QuotedText.trim_written {blanks : List Char} (h : blanks.all Text.isBlank = true)
    (t : QuotedText) (more : List Char) :
    Text.trim (blanks ++ (t.written ++ more)) = t.written ++ Text.trimEnd more := by
  have hSolid : Text.isBlank t.quote = false :=
    t.of_quotes (p := (Text.isBlank · = false)) (by decide) (by decide)
  have hStart : Text.trimStart (t.written ++ more) = t.written ++ more :=
    Text.trimStart_eq_self_iff.mpr (by simpa [QuotedText.written] using hSolid)
  have hWritten (later : List Char) : t.written ++ later =
      (t.quote :: escapeQuoted t.quote t.content) ++ t.quote :: later := by
    simp [QuotedText.written]
  rw [Text.trim, Text.trimStart_append_of_all h, hStart, hWritten,
    Text.trimEnd_append_cons hSolid, ← hWritten]

/-- What has been read up to the end of a quoted text is that text, blanks in front of it aside. -/
theorem QuotedText.trim_read (hCurrent : current.all Text.isBlank = true) (t : QuotedText) :
    Text.trim (t.written.reverse ++ current).reverse = t.written := by
  have hTrim : Text.trim (current.reverse ++ (t.written ++ [])) = t.written ++ Text.trimEnd [] :=
    t.trim_written (by rwa [List.all_reverse]) []
  simpa [Text.trimEnd] using hTrim

/-- A quoted text is no argument of its own if its quote is still open behind it. -/
theorem splitArgumentsFrom_unclosed (hCurrent : current.all Text.isBlank = true) (t : QuotedText)
    (rest : List Char) :
    t.written ∉ (splitArgumentsFrom 0 (some t.quote) (some t.quote) (t.written.reverse ++ current)
      (',' :: rest)).head? := by
  have hComma : ',' ≠ t.quote := t.of_quotes (p := (',' ≠ ·)) (by decide) (by decide)
  intro hHead
  rw [splitArgumentsFrom_hidden (.inl hComma)] at hHead
  obtain ⟨more, hFirst⟩ := head_splitArgumentsFrom hHead
  have hRead : (',' :: (t.written.reverse ++ current)).reverse ++ more =
      current.reverse ++ (t.written ++ ([] ++ ',' :: more)) := by
    simp
  rw [hRead, t.trim_written (by rwa [List.all_reverse]), Text.trimEnd_append_cons (by decide),
    List.self_eq_append_right] at hFirst
  cases hFirst

/-- The arguments are those that have been written unless one in front of another ends with a
backslash. -/
theorem splitArgumentsFrom_argumentsText (hPrevious : previous ≠ some '\\')
    (hCurrent : current.all Text.isBlank = true) (args : List QuotedText) :
    splitArgumentsFrom 0 none previous current (argumentsText args) =
        args.map QuotedText.written ↔
      ∀ t ∈ args.dropLast, t.content.getLast? ≠ some '\\' := by
  induction args generalizing previous current with
  | nil =>
      have hNone : Text.trim current.reverse = [] := by
        have hStart : Text.trimStart current.reverse = [] :=
          List.dropWhile_eq_nil_iff.mpr (by simpa using hCurrent)
        rw [Text.trim, hStart]
        rfl
      refine iff_of_true ?_ (List.forall_mem_nil _)
      change splitArgumentsFrom 0 none previous current [] = []
      rw [splitArgumentsFrom]
      simp only [hNone, ↓reduceIte]
  | cons t rest ih =>
      cases rest with
      | nil =>
          have hSome : t.written ≠ [] := List.cons_ne_nil _ _
          refine iff_of_true ?_ (List.forall_mem_nil _)
          rw [argumentsText_single, ← List.append_nil t.written,
            splitArgumentsFrom_written hPrevious, splitArgumentsFrom]
          simp only [t.trim_read hCurrent, hSome, ↓reduceIte, List.map_cons, List.map_nil]
      | cons u others =>
          rw [argumentsText_cons, splitArgumentsFrom_written hPrevious, List.dropLast_cons_cons,
            List.forall_mem_cons]
          by_cases hLast : t.content.getLast? = some '\\'
          · rw [if_pos hLast]
            refine iff_of_false (fun hSame => ?_) fun h => h.1 hLast
            refine splitArgumentsFrom_unclosed hCurrent t (' ' :: argumentsText (u :: others)) ?_
            rw [hSame]
            rfl
          · rw [if_neg hLast, splitArgumentsFrom_comma, t.trim_read hCurrent, List.map_cons,
              List.cons_eq_cons]
            exact and_congr (iff_of_true rfl hLast) (ih (by decide) (by decide))

/-- The arguments of a call as splitting gives them. -/
theorem splitArguments_argumentsText_iff (args : List QuotedText) :
    splitArguments (argumentsText args) = args.map QuotedText.written ↔
      ∀ t ∈ args.dropLast, t.content.getLast? ≠ some '\\' :=
  splitArgumentsFrom_argumentsText (by simp) rfl args

/-- The name of a call and what stands between its parentheses. -/
theorem splitCall?_quotedCall (name : FunctionName) (args : List QuotedText) :
    splitCall? (quotedCall name args) = some (name.text, argumentsText args) := by
  have hParen : Source.isWordChar '(' = false := rfl
  have hTrim : Text.trim (quotedCall name args) = quotedCall name args := by
    rw [Text.trim_eq_self_iff]
    constructor
    · intro c hFirst
      cases hFirst
      decide
    · intro c hLast
      have hEnd : quotedCall name args =
          ('@' :: (name.text ++ '(' :: argumentsText args)) ++ [')'] := by
        simp [quotedCall]
      rw [hEnd, List.getLast?_concat] at hLast
      cases hLast
      decide
  have hBody : afterSigil (quotedCall name args) =
      name.text ++ '(' :: (argumentsText args ++ [')']) := rfl
  have hInside : insideParens? ('(' :: (argumentsText args ++ [')'])) =
      some (argumentsText args) := insideParens?_eq_some.mpr rfl
  have hOpens : ('(' :: (argumentsText args ++ [')'])).dropWhile Text.isBlank =
      '(' :: (argumentsText args ++ [')']) := rfl
  unfold splitCall?
  rw [hTrim, hBody]
  dsimp only
  rw [Script.takeWhile_append_stop name.text name.isWord (by simp [hParen]),
    List.dropWhile_append_of_pos (List.all_eq_true.mp name.isWord),
    List.dropWhile_cons_of_neg (by simp [hParen]), hOpens, hInside]
  simp only [name.isSome, ↓reduceIte, Option.map_some]

end

/-- A call with quoted texts is one token for the scanner, and its name and its arguments are found
in it as they have been written, unless the text of an argument in front of another one ends with a
backslash. -/
theorem quotedCall_kept_iff (name : FunctionName) (args : List QuotedText) (file : String) :
    ∃ token inside, Token.scanMarkup (String.ofList (quotedCall name args)) file = .ok [token] ∧
      token.lexeme = (.call, String.ofList (quotedCall name args)) ∧
      splitCall? token.value.toList = some (name.text, inside) ∧
      (splitArguments inside = args.map QuotedText.written ↔
        ∀ t ∈ args.dropLast, t.content.getLast? ≠ some '\\') := by
  let c := Cursor.start (String.ofList (quotedCall name args)).toList
  have hEnclosed : Source.parens.Encloses (argumentsText args) :=
    (Source.passes_argumentsText args).encloses rfl (by decide)
  have hRest : c.rest = quotedCall name args ++ [] := by simp [c, Cursor.start]
  obtain ⟨tokens, after, hScans, hLexed, hAfter⟩ :=
    Source.scansTo_call file name hEnclosed hRest
  obtain ⟨token, rfl, hLexeme⟩ := lexed_single hLexed
  have hValue := (value_of_lexeme hLexeme).2
  refine ⟨token, argumentsText args, hScans.scanFrom_eq hAfter, hLexeme, ?_,
    splitArguments_argumentsText_iff args⟩
  rw [hValue]
  exact splitCall?_quotedCall name args

/-- The name `f`. -/
def letterF : FunctionName where
  text := ['f']
  isSome := by decide
  isWord := by decide
  notReserved := by decide

/-- A backslash and the letter `b`, each between its quotes. -/
def slashAndLetter : List QuotedText :=
  [⟨'\'', ['\\'], by decide⟩, ⟨'\'', ['b'], by decide⟩]

/-- The two arguments are taken for one: the first backslash escapes the second one, but the quote
behind that is not seen to close the text. -/
theorem slashAndLetter_merged :
    String.ofList (quotedCall letterF slashAndLetter) = "@f('\\\\', 'b')" ∧
    splitArguments (argumentsText slashAndLetter) = ["'\\\\', 'b'".toList] ∧
    slashAndLetter.map QuotedText.written = ["'\\\\'".toList, "'b'".toList] ∧
    splitArguments (argumentsText slashAndLetter) ≠ slashAndLetter.map QuotedText.written := by
  decide

end HtmlTemplate
