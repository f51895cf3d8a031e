import HtmlTemplate.Proofs.Markup.Amid
import HtmlTemplate.Proofs.Markup.Marks
import HtmlTemplate.Proofs.Render.ServedBody

/-! Plain markup. A page that serves markup with balanced parentheses and elements and without
an `@` writes it as it was given: the scanner, the walk over its tokens, substitution and linking
leave it alone. The last step takes back marks which stand for an `@`, and takes a character of
the template for one if it is the same. -/
namespace HtmlTemplate

open Source

/-- How a raw element goes on from a text that begins like its closing tag, up to the tag that
closes it. -/
inductive RawTail (name : List Char) : List Char → Prop where
  | closing {tag other : List Char} (hTag : IsTag tag) (hCloses : closed? tag = some other)
      (hSame : Text.sameIgnoringCase name other = true) : RawTail name tag
  | char {c : Char} {rest : List Char} (hChar : c ≠ '<') (hRest : RawTail name rest) :
      RawTail name (c :: rest)
  | tag {tag rest : List Char} (hTag : IsTag tag) (hRaw : rawName? tag = none)
      (hCloses : ∀ other, closed? tag = some other → Text.sameIgnoringCase name other = false)
      (hRest : RawTail name rest) : RawTail name (tag ++ rest)
  | raw {opening content rest other : List Char} (hTag : IsTag opening)
      (hRaw : rawName? opening = some other) (hContent : StaysRaw other content)
      (hBegins : BeginsClosing other rest) (hRest : RawTail name rest) :
      RawTail name (opening ++ (content ++ rest))

/-- Markup in which parentheses and elements are balanced, and raw elements are closed. -/
inductive PlainMarkup : List Char → Prop where
  | nil : PlainMarkup []
  | char {c : Char} {rest : List Char} (hChar : c ≠ '<') (hOpening : c ≠ '(') (hClosing : c ≠ ')')
      (hRest : PlainMarkup rest) : PlainMarkup (c :: rest)
  | parens {inner rest : List Char} (hInner : PlainMarkup inner) (hRest : PlainMarkup rest) :
      PlainMarkup ('(' :: (inner ++ ')' :: rest))
  | tag {tag rest : List Char} (hTag : IsTag tag) (hCloses : closed? tag = none)
      (hOpens : ∀ name, opened? tag = some name → isVoidElement (String.ofList name) = true)
      (hRest : PlainMarkup rest) : PlainMarkup (tag ++ rest)
  | element {opening inner closing rest name : List Char} (hOpening : IsTag opening)
      (hOpens : opened? opening = some name) (hVoid : isVoidElement (String.ofList name) = false)
      (hRaw : isRawElement (String.ofList name) = false) (hInner : PlainMarkup inner)
      (hClosing : IsTag closing) (hCloses : closed? closing = some name)
      (hRest : PlainMarkup rest) : PlainMarkup (opening ++ (inner ++ (closing ++ rest)))
  | raw {opening content tail rest name : List Char} (hTag : IsTag opening)
      (hRaw : rawName? opening = some name) (hContent : StaysRaw name content)
      (hBegins : BeginsClosing name tail) (hTail : RawTail name tail)
      (hRest : PlainMarkup rest) : PlainMarkup (opening ++ (content ++ (tail ++ rest)))

section

variable {tag name other content text behind : List Char} {t : Token}
  {lexemes : List (TokenKind × String)} {tokens : List Token}

/-- What a token closes is told by its text. -/
theorem closesRaw_of_lexeme (h : t.lexeme = (classifyTag tag, String.ofList tag)) :
    t.closesRaw name = (closed? tag).any (Text.sameIgnoringCase name) := by
  obtain ⟨hKind, hValue⟩ := value_of_lexeme h
  unfold Token.closesRaw closed?
  rw [hKind, hValue]
  by_cases hClosing : classifyTag tag = .closingTag <;> simp [hClosing]

theorem not_closesRaw_of_lexed (h : Lexed lexemes tokens)
    (hKinds : ∀ l ∈ lexemes, l.1 ≠ .closingTag) : ∀ u ∈ tokens, u.closesRaw name = false := by
  subst h
  intro u hMem
  have hKind : u.kind ≠ .closingTag := hKinds _ (List.mem_map_of_mem hMem)
  simp [Token.closesRaw, hKind]

theorem charKind_ne (ch : Char) : charKind ch ≠ .closingTag := by
  unfold charKind
  split
  · exact TokenKind.noConfusion
  split
  · exact TokenKind.noConfusion
  split <;> exact TokenKind.noConfusion

/-- Tokens up to the first that closes a raw element. -/
def EndsRaw (name : List Char) (tokens : List Token) : Prop :=
  ∃ inner closing, tokens = inner ++ [closing] ∧ (∀ u ∈ inner, u.closesRaw name = false) ∧
    closing.closesRaw name = true

theorem EndsRaw.front {front : List Token} (h : EndsRaw name tokens)
    (hFront : ∀ u ∈ front, u.closesRaw name = false) : EndsRaw name (front ++ tokens) := by
  obtain ⟨inner, closing, rfl, hInner, hClosing⟩ := h
  refine ⟨front ++ inner, closing, by rw [List.append_assoc], ?_, hClosing⟩
  exact List.forall_mem_append.mpr ⟨hFront, hInner⟩

/-- A text that does not go on with a word. -/
def NoWord (text : List Char) : Prop :=
  ∀ ch, text.head? = some ch → isWordChar ch = false

/-- A run of word characters in front. -/
theorem Found.behindWord {P : List Token → Prop} {word : List Char} (h : Found P text behind)
    (hApart : NoWord (text ++ behind)) (hWord : word.all isWordChar = true)
    (hFront : ∀ s t, Lexed [(.text, String.ofList word)] s → P t → P (s ++ t)) :
    Found P (word ++ text) behind := by
  by_cases hSome : word = []
  · subst hSome
    exact h
  · exact (found_word hSome hWord hApart).append h hFront

theorem noWord_of_isTag (h : IsTag tag) (behind : List Char) : NoWord (tag ++ behind) := by
  obtain ⟨⟨inner, rfl, -⟩, -⟩ := h
  rintro _ ⟨⟩
  rfl

theorem all_isWordChar_concat {word : List Char} {ch : Char} (hWord : word.all isWordChar = true)
    (hChar : isWordChar ch = true) : (word ++ [ch]).all isWordChar = true := by
  simp [hWord, hChar]

/-- A word in front of the rest of a raw element is content of it. -/
theorem Found.behindWord_endsRaw {word : List Char} (h : Found (EndsRaw name) text behind)
    (hApart : NoWord (text ++ behind)) (hWord : word.all isWordChar = true) :
    Found (EndsRaw name) (word ++ text) behind :=
  h.behindWord hApart hWord fun s t hLexed hEnds =>
    hEnds.front (not_closesRaw_of_lexed hLexed (by simp))

theorem RawTail.found (h : RawTail name text) (hAt : '@' ∉ text) (behind : List Char) :
    ∀ word : List Char, word.all isWordChar = true →
      Found (EndsRaw name) (word ++ text) behind := by
  induction h with
  | @closing tag other hTag hCloses hSame =>
      intro word hWord
      have hRaw := rawName?_of_closed? hCloses
      have hLast : Found (EndsRaw name) tag behind := by
        refine (found_tag hTag hRaw behind).imp fun tokens hLexed => ?_
        obtain ⟨t, rfl, hLexeme⟩ := lexed_single hLexed
        refine ⟨[], t, rfl, List.forall_mem_nil _, ?_⟩
        rw [closesRaw_of_lexeme hLexeme, hCloses]
        exact hSame
      exact hLast.behindWord_endsRaw (noWord_of_isTag hTag behind) hWord
  | @char c rest hChar hRest ih =>
      intro word hWord
      obtain ⟨hFirst, hLater⟩ := List.ne_and_not_mem_of_not_mem_cons hAt
      cases hKind : isWordChar c with
      | true => simpa using ih hLater (word ++ [c]) (all_isWordChar_concat hWord hKind)
      | false =>
          have hText : Found (EndsRaw name) ([c] ++ rest) behind :=
            (found_char hKind hChar hFirst.symm (rest ++ behind)).append (ih hLater [] rfl)
              fun s t hLexed hEnds => hEnds.front
                (not_closesRaw_of_lexed hLexed (by simpa using charKind_ne c))
          exact hText.behindWord_endsRaw (by rintro _ ⟨⟩; exact hKind) hWord
  | @tag tag rest hTag hRaw hCloses hRest ih =>
      intro word hWord
      have hLater : '@' ∉ rest := fun hMem => hAt (List.mem_append_right tag hMem)
      have hText : Found (EndsRaw name) (tag ++ rest) behind := by
        refine (found_tag hTag hRaw (rest ++ behind)).append (ih hLater [] rfl)
          fun s t hLexed hEnds => hEnds.front ?_
        obtain ⟨u, rfl, hLexeme⟩ := lexed_single hLexed
        rw [List.forall_mem_singleton, closesRaw_of_lexeme hLexeme]
        cases hName : closed? tag with
        | none => rfl
        | some other => exact hCloses other hName
      exact hText.behindWord_endsRaw
        (by rw [List.append_assoc]; exact noWord_of_isTag hTag _) hWord
  | @raw opening content rest other hTag hRaw hContent hBegins hRest ih =>
      intro word hWord
      have hLater : '@' ∉ rest := fun hMem =>
        hAt (List.mem_append_right opening (List.mem_append_right content hMem))
      have hText : Found (EndsRaw name) ((opening ++ content) ++ rest) behind := by
        refine (found_raw hTag hRaw hContent (hBegins.append behind)).append (ih hLater [] rfl)
          fun s t hLexed hEnds => hEnds.front (not_closesRaw_of_lexed hLexed ?_)
        have hKind := classifyTag_of_rawName? hRaw
        simp only [List.forall_mem_cons, hKind]
        refine ⟨TokenKind.noConfusion, fun l hMem => ?_⟩
        rw [contentLexemes_kind hMem]
        exact TokenKind.noConfusion
      rw [← List.append_assoc opening]
      exact hText.behindWord_endsRaw
        (by rw [List.append_assoc, List.append_assoc]; exact noWord_of_isTag hTag _) hWord

/-- Tokens that are copied where no component is in scope. -/
def CopiedBare (tokens : List Token) : Prop :=
  ∀ (session : Session) (scopes : Scopes), (∀ name, session.component? scopes name = none) →
    Copied session scopes tokens

theorem CopiedBare.append {rest : List Token} (h : CopiedBare tokens) (hRest : CopiedBare rest) :
    CopiedBare (tokens ++ rest) :=
  fun session scopes hNone => (h session scopes hNone).append (hRest session scopes hNone)

theorem copiedBare_of_lexed {kind : TokenKind} {value : String} (h : Lexed [(kind, value)] tokens)
    (hKind : kind = .text ∨ kind = .blank ∨ kind = .unknown) : CopiedBare tokens := by
  obtain ⟨t, rfl, hLexeme⟩ := lexed_single h
  obtain ⟨rfl, -⟩ := Prod.mk.inj hLexeme
  exact fun session scopes _ => copied_of_kind hKind

theorem charKind_of_plain {ch : Char} (hOpening : ch ≠ '(') (hClosing : ch ≠ ')') :
    charKind ch = .blank ∨ charKind ch = .unknown := by
  unfold charKind
  rw [if_neg hOpening, if_neg hClosing]
  split
  · exact .inl rfl
  · exact .inr rfl

/-- A tag that neither opens an element nor closes one. -/
theorem copiedBare_tag (hLexeme : t.lexeme = (classifyTag tag, String.ofList tag))
    (hCloses : closed? tag = none)
    (hOpens : ∀ name, opened? tag = some name → isVoidElement (String.ofList name) = true) :
    CopiedBare [t] := by
  intro session scopes hNone
  obtain ⟨hKind, hText⟩ := value_of_lexeme hLexeme
  rcases classifyTag_cases tag with hTag | hTag | hTag | hTag
  · refine copied_of_step (by rw [hKind, hTag]; rfl) fun r serve _ => ?_
    rw [Rendering.step, hKind, hTag]
  · have hName : closingName? tag = none := by
      cases hFound : closingName? tag with
      | none => rfl
      | some name => cases hCloses.symm.trans (closed?_eq_some_iff.mpr ⟨hTag, hFound⟩)
    refine copied_of_step (by rw [hKind, hTag]; rfl) fun r serve _ => ?_
    rw [Rendering.step, hKind, hTag]
    simp only [Rendering.closeElement, hText, hName]
  · refine copied_of_step (by rw [hKind, hTag]; rfl) fun r serve hScopes => ?_
    rw [Rendering.step, hKind, hTag]
    simp only [Rendering.closedElement_eq_emit (r := r) (t := t)
      fun name _ => (hScopes ▸ hNone name : session.component? r.context.scopes name = none)]
  · refine copied_of_step (by rw [hKind, hTag]; rfl) fun r serve hScopes => ?_
    rw [Rendering.step, hKind, hTag]
    unfold Rendering.openElement
    rw [hText]
    cases hParts : tagParts? tag with
    | none => rfl
    | some parts =>
        obtain ⟨name, attributes⟩ := parts
        have hVoid := hOpens name (opened?_eq_some_iff.mpr ⟨hTag, attributes, hParts⟩)
        simp [hVoid, isRawElement_of_isVoidElement hVoid, hScopes, hNone]

/-- A word in front of tokens that are copied. -/
theorem Found.behindWord_copied {word : List Char} (h : Found CopiedBare text behind)
    (hApart : NoWord (text ++ behind)) (hWord : word.all isWordChar = true) :
    Found CopiedBare (word ++ text) behind :=
  h.behindWord hApart hWord fun _ _ hLexed hCopied =>
    (copiedBare_of_lexed hLexed (.inl rfl)).append hCopied

theorem found_parens {inner : List Char} (h : Found CopiedBare inner (')' :: behind)) :
    Found CopiedBare ('(' :: (inner ++ [')'])) behind := by
  refine Found.between (found_char rfl (by decide) (by decide) (inner ++ ([')'] ++ behind))) h
    (found_char rfl (by decide) (by decide) behind) ?_
  intro opening closing tokens hOpening hClosing hCopied session scopes hNone
  exact (hCopied session scopes hNone).parens (congrArg Prod.fst hOpening)
    (congrArg Prod.fst hClosing)

theorem found_element {opening inner closing : List Char} (hOpening : IsTag opening)
    (hOpens : opened? opening = some name) (hVoid : isVoidElement (String.ofList name) = false)
    (hRaw : isRawElement (String.ofList name) = false) (hClosing : IsTag closing)
    (hCloses : closed? closing = some name)
    (h : Found CopiedBare inner (closing ++ behind)) :
    Found CopiedBare (opening ++ (inner ++ closing)) behind := by
  obtain ⟨hKind, attributes, hParts⟩ := opened?_eq_some_iff.mp hOpens
  obtain ⟨hLastKind, hName⟩ := closed?_eq_some_iff.mp hCloses
  refine Found.between (found_tag hOpening (rawName?_of_opened? hOpens hRaw) _) h
    (found_tag hClosing (rawName?_of_closed? hCloses) behind) ?_
  intro first last tokens hFirst hLast hCopied session scopes hNone
  obtain ⟨hFirstKind, hFirstValue⟩ := value_of_lexeme hFirst
  obtain ⟨hCloseKind, hLastValue⟩ := value_of_lexeme hLast
  exact (hCopied session scopes hNone).element (hFirstKind.trans hKind)
    (hCloseKind.trans hLastKind) (by rwa [hFirstValue]) (by rwa [hLastValue]) hRaw hVoid (hNone _)

/-- A raw element is copied whatever components there are. -/
theorem found_rawElement {opening tail : List Char} (hTag : IsTag opening)
    (hRaw : rawName? opening = some name) (hContent : StaysRaw name content)
    (hBegins : BeginsClosing name tail) (hTail : RawTail name tail) (hAt : '@' ∉ tail)
    (behind : List Char) :
    Found (fun tokens => ∀ session scopes, Copied session scopes tokens)
      (opening ++ content ++ tail) behind := by
  obtain ⟨hOpens, hRawName⟩ := rawName?_eq_some_iff.mp hRaw
  obtain ⟨hKind, attributes, hParts⟩ := opened?_eq_some_iff.mp hOpens
  refine (found_raw hTag hRaw hContent (hBegins.append behind)).append
    (hTail.found hAt behind [] rfl) fun s t hLexed hEnds session scopes => ?_
  obtain ⟨u, texts, rfl, hLexeme, hTexts⟩ := List.map_eq_cons_iff.mp hLexed
  obtain ⟨hTokenKind, hValue⟩ := value_of_lexeme hLexeme
  have hInner : ∀ v ∈ texts, v.closesRaw name = false :=
    not_closesRaw_of_lexed hTexts fun l hMem => by
      rw [contentLexemes_kind hMem]
      exact TokenKind.noConfusion
  obtain ⟨inner, closing, hAll, hInner, hClosing⟩ := hEnds.front hInner
  rw [List.cons_append, hAll]
  exact copied_raw session scopes (hTokenKind.trans hKind) (by rwa [hValue]) hRawName hInner
    hClosing

theorem PlainMarkup.found (h : PlainMarkup text) (hAt : '@' ∉ text) :
    ∀ word behind : List Char, word.all isWordChar = true → NoWord behind →
      Found CopiedBare (word ++ text) behind := by
  induction h with
  | nil =>
      intro word behind hWord hBehind
      exact (found_nil fun _ _ _ => copied_nil).behindWord_copied hBehind hWord
  | @char c rest hChar hOpening hClosing hRest ih =>
      intro word behind hWord hBehind
      obtain ⟨hFirst, hLater⟩ := List.ne_and_not_mem_of_not_mem_cons hAt
      cases hKind : isWordChar c with
      | true =>
          simpa using ih hLater (word ++ [c]) behind (all_isWordChar_concat hWord hKind) hBehind
      | false =>
          have hText : Found CopiedBare ([c] ++ rest) behind :=
            (found_char hKind hChar hFirst.symm (rest ++ behind)).append
              (ih hLater [] behind rfl hBehind) fun _ _ hLexed hCopied =>
                (copiedBare_of_lexed hLexed (.inr (charKind_of_plain hOpening hClosing))).append
                  hCopied
          exact hText.behindWord_copied (by rintro _ ⟨⟩; exact hKind) hWord
  | @parens inner rest hInner hRest ihInner ih =>
      intro word behind hWord hBehind
      have hText : Found CopiedBare ('(' :: (inner ++ [')']) ++ rest) behind := by
        refine (found_parens ?_).append (ih ?_ [] behind rfl hBehind) fun _ _ h hLater =>
          h.append hLater
        · exact ihInner (by grind) [] _ rfl (by rintro _ ⟨⟩; rfl)
        · grind
      have hApart : NoWord (('(' :: (inner ++ [')']) ++ rest) ++ behind) := by
        rintro _ ⟨⟩
        rfl
      simpa using hText.behindWord_copied hApart hWord
  | @tag tag rest hTag hCloses hOpens hRest ih =>
      intro word behind hWord hBehind
      have hRaw := rawName?_of_void hOpens
      have hText : Found CopiedBare (tag ++ rest) behind := by
        refine (found_tag hTag hRaw (rest ++ behind)).append
          (ih (by grind) [] behind rfl hBehind) fun s t hLexed hLater => ?_
        obtain ⟨u, rfl, hLexeme⟩ := lexed_single hLexed
        exact (copiedBare_tag hLexeme hCloses hOpens).append hLater
      exact hText.behindWord_copied
        (by rw [List.append_assoc]; exact noWord_of_isTag hTag _) hWord
  | @element opening inner closing rest name hOpening hOpens hVoid hRaw hInner hClosing hCloses
      hRest ihInner ih =>
      intro word behind hWord hBehind
      have hText : Found CopiedBare (opening ++ (inner ++ closing) ++ rest) behind := by
        refine (found_element hOpening hOpens hVoid hRaw hClosing hCloses ?_).append
          (ih (by grind) [] behind rfl hBehind) fun _ _ h hLater => h.append hLater
        exact ihInner (by grind) [] _ rfl (noWord_of_isTag hClosing _)
      have hApart : NoWord ((opening ++ (inner ++ closing) ++ rest) ++ behind) := by
        rw [List.append_assoc, List.append_assoc]
        exact noWord_of_isTag hOpening _
      simpa using hText.behindWord_copied hApart hWord
  | @raw opening content tail rest name hTag hRaw hContent hBegins hTail hRest ih =>
      intro word behind hWord hBehind
      have hText : Found CopiedBare (opening ++ content ++ tail ++ rest) behind := by
        refine (found_rawElement hTag hRaw hContent hBegins hTail (by grind) _).append
          (ih (by grind) [] behind rfl hBehind) fun s _ h hLater => ?_
        exact CopiedBare.append (fun session scopes _ => h session scopes) hLater
      have hApart : NoWord ((opening ++ content ++ tail ++ rest) ++ behind) := by
        simp only [List.append_assoc]
        exact noWord_of_isTag hTag _
      simpa using hText.behindWord_copied hApart hWord

end

/-- A page of plain markup comes to that markup, and to nothing else exactly if the character
that stands in for an `@` is not in it. No parameters, options or components matter. -/
theorem Options.render_plainMarkup (options : Options) (resolve : Resolver) (bag : Bag)
    (path : String) {text : List Char} (hMarkup : PlainMarkup text) (hAt : '@' ∉ text) :
    options.render resolve (String.ofList (serveText text)) bag path =
        .ok (String.ofList (unshield text)) ∧
      (options.render resolve (String.ofList (serveText text)) bag path =
        .ok (String.ofList text) ↔ shieldMark ∉ text) := by
  have hFound : Found CopiedBare text [')'] := hMarkup.found hAt [] _ rfl (by rintro _ ⟨⟩; rfl)
  obtain ⟨tokens, body, closing, hScan, hServes, rfl, hCopied⟩ :=
    Token.scanTemplate_serveText hFound path
  let page : FreshPage := ⟨resolve, options.maxDepth, tokens, options.visibleBag bag, path⟩
  have hParsed : page.parsed = .ok (valuesText body) := by
    refine FreshPage.parsed_servesBody hServes (fun inner hContext hRest => ?_)
      (FreshPage.entries_session page).1 (FreshPage.entries_session page).2
    exact hCopied page.session _ page.component?_session _ true inner [closing]
      (congrArg Context.scopes hContext) hRest
  have hRender : options.render resolve (String.ofList (serveText (valuesText body))) bag path =
      .ok (String.ofList (unshield (valuesText body))) := by
    rw [FreshPage.render_eq_parsed options resolve _ bag path hScan, hParsed]
    exact congrArg (fun html => Except.ok (String.ofList (unshield html)))
      (substitute_of_not_mem _ hAt)
  refine ⟨hRender, ?_⟩
  rw [hRender, ← unshield_eq_self_iff, Except.ok.injEq, String.ofList_inj]

/-- Markup with an element, a void one and a raw one, and with parentheses. -/
def figureText : List Char :=
  "<p>(a)<br></p><style>)</style>".toList

theorem plainMarkup_figureText : PlainMarkup figureText := by
  have hLetter : PlainMarkup ['a'] := .char (by decide) (by decide) (by decide) .nil
  have hVoid : PlainMarkup "<br>".toList := by
    refine @PlainMarkup.tag "<br>".toList [] ⟨⟨"br".toList, rfl, by decide⟩, by decide⟩
      (by decide +kernel) ?_ .nil
    intro name hName
    have hOpened : opened? "<br>".toList = some "br".toList := by decide +kernel
    cases hOpened.symm.trans hName
    decide +kernel
  have hStyle : PlainMarkup "<style>)</style>".toList :=
    @PlainMarkup.raw "<style>".toList ")".toList "</style>".toList [] "style".toList
      ⟨⟨"style".toList, rfl, by decide⟩, by decide⟩ (by decide +kernel) (by decide) (by decide)
      (@RawTail.closing _ "</style>".toList "style".toList
        ⟨⟨"/style".toList, rfl, by decide⟩, by decide⟩ (by decide +kernel) (by decide)) .nil
  exact @PlainMarkup.element "<p>".toList "(a)<br>".toList "</p>".toList "<style>)</style>".toList
    "p".toList ⟨⟨"p".toList, rfl, by decide⟩, by decide⟩ (by decide +kernel) (by decide +kernel)
    (by decide +kernel) (@PlainMarkup.parens ['a'] "<br>".toList hLetter hVoid)
    ⟨⟨"/p".toList, rfl, by decide⟩, by decide⟩ (by decide +kernel) hStyle

/-- It comes out as it was given. -/
theorem render_figureText : PlainMarkup figureText ∧ '@' ∉ figureText ∧
    (({} : Options).render noComponents (String.ofList (serveText figureText)) [] "page" =
        .ok (String.ofList (unshield figureText)) ∧
      (({} : Options).render noComponents (String.ofList (serveText figureText)) [] "page" =
        .ok (String.ofList figureText) ↔ shieldMark ∉ figureText)) :=
  ⟨plainMarkup_figureText, by decide,
    Options.render_plainMarkup {} noComponents [] "page" plainMarkup_figureText (by decide)⟩

/-- A character of the template that is the same as the mark comes out as an `@`. -/
theorem mark_not_kept : ¬∀ (options : Options) (resolve : Resolver) (bag : Bag) (path : String)
    (text : List Char), PlainMarkup text → '@' ∉ text →
      options.render resolve (String.ofList (serveText text)) bag path =
        .ok (String.ofList text) := by
  intro h
  have hMark : PlainMarkup [shieldMark] := .char (by decide) (by decide) (by decide) .nil
  have hKept := h {} noComponents [] "page" [shieldMark] hMark (by decide)
  have hRendered : ({} : Options).render noComponents (String.ofList (serveText [shieldMark])) []
      "page" = .ok "@" := toOption_eq_some.mp (by decide +kernel)
  exact absurd (hRendered.symm.trans hKept) (by decide)

end HtmlTemplate
