import HtmlTemplate.Proofs.Markup.Agreement
import HtmlTemplate.Proofs.Render.Fidelity

/-! Substitution in what has been rendered. Markup that asks for nothing to be computed is
copied, and parameters are put into the copy as into any text, without its tokens. Whether that
is what the scanner has found depends on the tags and the references alone. -/
namespace HtmlTemplate

open Source

/-- Markup without control words, calls, components and comments. -/
structure BareMarkup (source file : String) (session : Session) (scopes : Scopes)
    (tokens : List Token) : Prop where
  scanned : Token.scanMarkup source file = .ok tokens
  whole : valuesText tokens = source.toList
  keyword : NoKeyword tokens
  call : ∀ t ∈ tokens, t.kind ≠ .call
  component : ∀ t ∈ tokens, t.kind = .openingTag ∨ t.kind = .selfClosingTag →
    ∀ name, t.element? = some name → session.component? scopes name = none

/-- References and tags come from some stock, but for references within one line without
parentheses inside, and the tags that close elements. -/
structure Token.MadeOf (stock : List Char → Prop) (t : Token) : Prop where
  reference : t.kind = .reference → IsSimple t.value.toList ∨ stock t.value.toList
  tag : t.kind = classifyTag t.value.toList →
    (closed? t.value.toList).isSome = true ∨ stock t.value.toList

/-- What has been rendered from bare markup is substituted as the scanner takes it, if references
and tags come from some stock. -/
def SubstitutedAsScanned (stock : List Char → Prop) : Prop :=
  ∀ (nested : Nested) (context : Context) (session : Session) (source file : String)
    (tokens : List Token) (text : List Char),
    BareMarkup source file session context.scopes tokens → (∀ t ∈ tokens, t.MadeOf stock) →
      (renderBody nested tokens context session).1 = .ok text →
        ∀ bag, substitute bag text = filled bag false tokens

section

variable {source file : String} {session : Session} {context : Context} {tokens : List Token}
  {text : List Char} {stock : List Char → Prop}

theorem Token.MadeOf.follows {t : Token} (h : t.MadeOf stock)
    (hStock : ∀ text, stock text → Follows text)
    (hKind : t.kind = .reference ∨ t.kind = classifyTag t.value.toList) :
    Follows t.value.toList := by
  rcases hKind with hKind | hKind
  · exact (h.reference hKind).elim follows_of_isSimple (hStock _)
  · rcases h.tag hKind with hCloses | hIn
    · obtain ⟨name, hName⟩ := Option.isSome_iff_exists.mp hCloses
      exact follows_of_closed? hName
    · exact hStock _ hIn

/-- Bare markup that can be rendered comes to itself. -/
theorem BareMarkup.renderBody_eq (h : BareMarkup source file session context.scopes tokens)
    (nested : Nested) (hText : (renderBody nested tokens context session).1 = .ok text) :
    text = source.toList := by
  let r : Rendering := Rendering.start tokens context
  have hInert : ∀ t ∈ r.rest, t.IsInert session r.context.scopes := fun t ht =>
    ⟨Token.placed_of_scanMarkup h.scanned h.keyword t ht, h.keyword t ht, h.call t ht,
      h.component t ht⟩
  have hBalanced : r.enter.Balanced :=
    (Rendering.body_accepts_iff_balanced nested hInert).mp ⟨text, hText⟩
  have hWalk := (Rendering.walk_inert nested (r := r.enter) hInert).1 hBalanced
  have hBody : (r.body nested session).1 = .ok (valuesText tokens) := by
    rw [Rendering.body, hWalk]
    rfl
  exact (Except.ok.inj (hText.symm.trans hBody)).trans h.whole

theorem BareMarkup.phrased (h : BareMarkup source file session context.scopes tokens) :
    Phrased source.toList tokens :=
  phrased_of_scanFrom h.scanned h.keyword h.call h.whole

theorem substitutedAsScanned_of_follows (hStock : ∀ text, stock text → Follows text) :
    SubstitutedAsScanned stock := by
  intro nested context session source file tokens text hBare hMade hText bag
  rw [hBare.renderBody_eq nested hText]
  exact (hBare.phrased.substitute_eq (fun t hMem => (hMade t hMem).follows hStock) bag).1

end

/-! Markup in which a tag or a reference is put to the test, with a reference behind it. -/

/-- Tokens that may stand in bare markup made of some stock, and what they come to. -/
structure Fit (stock : List Char → Prop) (come : Bag → List Char) (tokens : List Token) :
    Prop where
  copied : CopiedBare tokens
  plain : ∀ t ∈ tokens, t.kind ≠ .call ∧ ∀ k, t.kind ≠ .keyword k
  madeOf : ∀ t ∈ tokens, t.MadeOf stock
  filled_append : ∀ bag rest, filled bag false (tokens ++ rest) = come bag ++ filled bag false rest

section

variable {text closing name behind : List Char} {stock : List Char → Prop} {t u : Token}
  {tokens rest : List Token} {come later : Bag → List Char}

theorem Fit.append (h : Fit stock come tokens) (hRest : Fit stock later rest) :
    Fit stock (fun bag => come bag ++ later bag) (tokens ++ rest) where
  copied := h.copied.append hRest.copied
  plain := List.forall_mem_append.mpr ⟨h.plain, hRest.plain⟩
  madeOf := List.forall_mem_append.mpr ⟨h.madeOf, hRest.madeOf⟩
  filled_append bag behind := by
    rw [List.append_assoc, h.filled_append, hRest.filled_append, List.append_assoc]

/-- Markup that is found as such tokens can be rendered, and comes to what they come to. -/
theorem SubstitutedAsScanned.substitute_eq (h : SubstitutedAsScanned stock)
    (hFound : Found (Fit stock come) text []) (bag : Bag) : substitute bag text = come bag := by
  obtain ⟨tokens, after, hScans, hAfter, hValues, hFit⟩ :=
    hFound "" (.start (String.ofList text).toList) (by simp [Cursor.start])
  let context : Context := ⟨[], ⟨0, 0, 0, 0⟩, ""⟩
  have hNone (name : String) : (Session.start 64).component? context.scopes name = none := by
    rw [Session.component?, ScopeArena.lookup?]
    rfl
  have hBare : BareMarkup (String.ofList text) "" (Session.start 64) context.scopes tokens :=
    ⟨hScans.scanFrom_eq hAfter, by rw [hValues, String.toList_ofList],
      fun t hMem => (hFit.plain t hMem).2, fun t hMem => (hFit.plain t hMem).1,
      fun _ _ _ name _ => hNone name⟩
  have hBody :=
    (hFit.copied _ context.scopes hNone).renderBody_eq fun _ _ _ session => (.ok [], session)
  have hFilled := hFit.filled_append bag []
  rw [List.append_nil, filled, List.append_nil] at hFilled
  rw [← hValues, ← hFilled]
  exact h _ context _ _ _ tokens _ hBare hFit.madeOf (congrArg Prod.fst hBody) bag

theorem Token.madeOf_of_stock (h : stock t.value.toList) : t.MadeOf stock :=
  ⟨fun _ => .inr h, fun _ => .inr h⟩

theorem Token.madeOf_of_closed? (hKind : t.kind = .closingTag)
    (h : closed? t.value.toList = some name) : t.MadeOf stock :=
  ⟨fun hReference => TokenKind.noConfusion (hKind.symm.trans hReference),
    fun _ => .inl (Option.isSome_of_eq_some h)⟩

theorem Token.madeOf_of_text (hKind : t.kind = .text) : t.MadeOf stock where
  reference hReference := TokenKind.noConfusion (hKind.symm.trans hReference)
  tag hTag := by
    rcases classifyTag_cases t.value.toList with h | h | h | h <;>
      exact TokenKind.noConfusion (hKind.symm.trans (hTag.trans h))

theorem classifyTag_plain (tag : List Char) :
    classifyTag tag ≠ .call ∧ ∀ k, classifyTag tag ≠ .keyword k := by
  refine ⟨?_, classifyTag_ne tag⟩
  rcases classifyTag_cases tag with h | h | h | h <;> rw [h] <;> exact TokenKind.noConfusion

theorem filled_cons (hReference : t.kind = .reference → IsReference t.value.toList)
    (hRaw : rawBehind? t.kind t.value.toList = none) (bag : Bag) (rest : List Token) :
    filled bag false (t :: rest) = substitute bag t.value.toList ++ filled bag false rest := by
  rw [filled, hRaw, Token.filled_eq hReference]
  rfl

/-- A token by itself. -/
theorem fit_single (hCopied : CopiedBare [t]) (hPlain : t.kind ≠ .call ∧ ∀ k, t.kind ≠ .keyword k)
    (hMade : t.MadeOf stock)
    (hFilled : ∀ bag rest, filled bag false (t :: rest) = come bag ++ filled bag false rest) :
    Fit stock come [t] where
  copied := hCopied
  plain := List.forall_mem_singleton.mpr hPlain
  madeOf := List.forall_mem_singleton.mpr hMade
  filled_append := hFilled

theorem found_fit_reference (h : IsReference text) (hMade : IsSimple text ∨ stock text) :
    Found (Fit stock (substitute · text)) text behind := by
  obtain ⟨taken, hText, hTaken⟩ := h
  rw [hText] at hMade ⊢
  refine (found_reference hTaken behind).imp fun tokens hLexed => ?_
  obtain ⟨t, rfl, hLexeme⟩ := lexed_single hLexed
  obtain ⟨hKind, hValue⟩ := value_of_lexeme hLexeme
  have hTag : t.kind ≠ classifyTag t.value.toList := hKind ▸ (classifyTag_ne_reference _).symm
  have hPlain : t.kind ≠ .call ∧ ∀ k, t.kind ≠ .keyword k := by
    rw [hKind]
    exact ⟨TokenKind.noConfusion, fun _ => TokenKind.noConfusion⟩
  rw [← hValue] at hMade ⊢
  exact fit_single (fun _ _ _ => copied_reference hKind) hPlain
    ⟨fun _ => hMade, fun hSame => absurd hSame hTag⟩
    (filled_cons (fun _ => ⟨taken, hValue, hTaken⟩) (hValue ▸ rawBehind?_reference t.kind taken))

/-- A tag behind which nothing is raw. -/
theorem filled_tag (hTag : IsTag text) (hRaw : rawName? text = none)
    (hLexeme : t.lexeme = (classifyTag text, String.ofList text)) (bag : Bag)
    (rest : List Token) :
    filled bag false (t :: rest) = substitute bag text ++ filled bag false rest := by
  obtain ⟨hKind, hValue⟩ := value_of_lexeme hLexeme
  have hOther : t.kind ≠ .reference := hKind ▸ classifyTag_ne_reference _
  have hBehind : rawBehind? t.kind t.value.toList = none := by
    rw [hKind, hValue, hTag.rawBehind?_eq, hRaw]
    rfl
  rw [filled_cons (fun h => absurd h hOther) hBehind, hValue]

/-- A raw element, which keeps its content and the tag that closes it. -/
theorem filled_raw {texts : List Token} (hTag : IsTag text) (hRaw : rawName? text = some name)
    (hLexeme : t.lexeme = (classifyTag text, String.ofList text))
    (hTexts : ∀ v ∈ texts, v.kind = .text) (hClosing : u.kind = .closingTag) (bag : Bag)
    (rest : List Token) :
    filled bag false (t :: (texts ++ u :: rest)) =
      substitute bag text ++ (valuesText texts ++ (u.value.toList ++ filled bag false rest)) := by
  obtain ⟨hKind, hValue⟩ := value_of_lexeme hLexeme
  have hOther : t.kind ≠ .reference := hKind ▸ classifyTag_ne_reference _
  have hBehind : (rawBehind? t.kind t.value.toList).isSome = true := by
    rw [hKind, hValue, hTag.rawBehind?_eq, hRaw]
    rfl
  have hOpen : ∀ v ∈ texts, v.kind ≠ .closingTag := fun v hMem =>
    hTexts v hMem ▸ TokenKind.noConfusion
  rw [filled, hBehind, filled_append_of_raw hOpen, filled,
    Token.filled_eq fun h => absurd h hOther, hValue, hClosing]
  rfl

/-- A tag that neither opens an element nor closes one. -/
theorem found_fit_tag (hTag : IsTag text) (hStock : stock text) (hCloses : closed? text = none)
    (hOpens : ∀ name, opened? text = some name → isVoidElement (String.ofList name) = true) :
    Found (Fit stock (substitute · text)) text behind := by
  have hRaw := rawName?_of_void hOpens
  refine (found_tag hTag hRaw behind).imp fun tokens hLexed => ?_
  obtain ⟨t, rfl, hLexeme⟩ := lexed_single hLexed
  obtain ⟨hKind, hValue⟩ := value_of_lexeme hLexeme
  exact fit_single (copiedBare_tag hLexeme hCloses hOpens) (hKind ▸ classifyTag_plain text)
    (Token.madeOf_of_stock (hValue.symm ▸ hStock)) (filled_tag hTag hRaw hLexeme)

/-- An element whose closing tag need not be in the stock. -/
theorem found_fit_element {opening inner : List Char} (hOpening : IsTag opening)
    (hStock : stock opening) (hOpens : opened? opening = some name)
    (hVoid : isVoidElement (String.ofList name) = false)
    (hRaw : isRawElement (String.ofList name) = false) (hClosing : IsTag closing)
    (hCloses : closed? closing = some name)
    (h : Found (Fit stock come) inner (closing ++ behind)) :
    Found (Fit stock fun bag => substitute bag opening ++ (come bag ++ substitute bag closing))
      (opening ++ (inner ++ closing)) behind := by
  have hFirst := rawName?_of_opened? hOpens hRaw
  have hLast := rawName?_of_closed? hCloses
  obtain ⟨hKind, attributes, hParts⟩ := opened?_eq_some_iff.mp hOpens
  obtain ⟨hLastKind, hName⟩ := closed?_eq_some_iff.mp hCloses
  refine Found.between (found_tag hOpening hFirst _) h (found_tag hClosing hLast behind) ?_
  intro t u tokens hOpen hClose hFit
  obtain ⟨hOpenKind, hOpenValue⟩ := value_of_lexeme hOpen
  obtain ⟨hCloseKind, hCloseValue⟩ := value_of_lexeme hClose
  have hMade : u.MadeOf stock :=
    Token.madeOf_of_closed? (hCloseKind.trans hLastKind) (hCloseValue.symm ▸ hCloses)
  constructor
  · intro session scopes hNone
    exact (hFit.copied session scopes hNone).element (hOpenKind.trans hKind)
      (hCloseKind.trans hLastKind) (by rwa [hOpenValue]) (by rwa [hCloseValue]) hRaw hVoid
      (hNone _)
  · refine List.forall_mem_cons.mpr ⟨hOpenKind ▸ classifyTag_plain opening,
      List.forall_mem_append.mpr ⟨hFit.plain, List.forall_mem_singleton.mpr ?_⟩⟩
    exact hCloseKind ▸ classifyTag_plain closing
  · exact List.forall_mem_cons.mpr ⟨Token.madeOf_of_stock (hOpenValue.symm ▸ hStock),
      List.forall_mem_append.mpr ⟨hFit.madeOf, List.forall_mem_singleton.mpr hMade⟩⟩
  · intro bag rest
    rw [List.cons_append, List.append_assoc, filled_tag hOpening hFirst hOpen, hFit.filled_append,
      List.singleton_append, filled_tag hClosing hLast hClose]
    simp only [List.append_assoc]

/-- A raw element whose closing tag need not be in the stock. -/
theorem found_fit_raw {opening content other : List Char} (hOpening : IsTag opening)
    (hStock : stock opening) (hRaw : rawName? opening = some name)
    (hContent : StaysRaw name content) (hBegins : BeginsClosing name closing)
    (hClosing : IsTag closing) (hCloses : closed? closing = some other)
    (hSame : Text.sameIgnoringCase name other = true) :
    Found (Fit stock fun bag => substitute bag opening ++ (content ++ closing))
      (opening ++ content ++ closing) behind := by
  obtain ⟨hOpens, hRawName⟩ := rawName?_eq_some_iff.mp hRaw
  obtain ⟨hKind, attributes, hParts⟩ := opened?_eq_some_iff.mp hOpens
  obtain ⟨hLastKind, -⟩ := closed?_eq_some_iff.mp hCloses
  refine (found_raw hOpening hRaw hContent (hBegins.append behind)).append
    (found_tag hClosing (rawName?_of_closed? hCloses) behind) fun s t hFirst hSecond => ?_
  obtain ⟨t, texts, rfl, hOpen, hTexts⟩ := List.map_eq_cons_iff.mp hFirst
  obtain ⟨u, rfl, hClose⟩ := lexed_single hSecond
  obtain ⟨hOpenKind, hOpenValue⟩ := value_of_lexeme hOpen
  obtain ⟨hCloseKind, hCloseValue⟩ := value_of_lexeme hClose
  have hText : ∀ v ∈ texts, v.kind = .text := by
    intro v hMem
    have hIn : v.lexeme ∈ contentLexemes content := hTexts ▸ List.mem_map_of_mem hMem
    exact contentLexemes_kind hIn
  have hTextValue : valuesText texts = content := by
    rw [valuesText_of_lexed hTexts, lexemesText_contentLexemes]
  have hCloseMade : u.MadeOf stock :=
    Token.madeOf_of_closed? (hCloseKind.trans hLastKind) (hCloseValue.symm ▸ hCloses)
  constructor
  · intro session scopes _
    refine copied_raw session scopes (hOpenKind.trans hKind) (by rwa [hOpenValue]) hRawName
      (fun v hMem => ?_) ?_
    · simp [Token.closesRaw, hText v hMem]
    · rw [closesRaw_of_lexeme hClose, hCloses]
      exact hSame
  · refine List.forall_mem_append.mpr ⟨List.forall_mem_cons.mpr ⟨?_, fun v hMem => ?_⟩,
      List.forall_mem_singleton.mpr ?_⟩
    · exact hOpenKind ▸ classifyTag_plain opening
    · rw [hText v hMem]
      exact ⟨TokenKind.noConfusion, fun _ => TokenKind.noConfusion⟩
    · exact hCloseKind ▸ classifyTag_plain closing
  · refine List.forall_mem_append.mpr ⟨List.forall_mem_cons.mpr ⟨?_, fun v hMem => ?_⟩,
      List.forall_mem_singleton.mpr hCloseMade⟩
    · exact Token.madeOf_of_stock (hOpenValue.symm ▸ hStock)
    · exact Token.madeOf_of_text (hText v hMem)
  · intro bag rest
    rw [List.cons_append, List.cons_append, List.append_assoc, List.singleton_append,
      filled_raw hOpening hRaw hOpen hText (hCloseKind.trans hLastKind), hTextValue, hCloseValue]
    simp only [List.append_assoc]

/-- The reference behind what is tested. -/
def probe : List Char :=
  "@(z)".toList

/-- Content of a raw element that looks like a reference, the end of a tag and a reference. -/
def rawProbe : List Char :=
  "@(z)>@(z)".toList

/-- Parameters that give the reference a value. -/
def probeBag : Bag :=
  [("z", .string "y")]

theorem isSimple_probe : IsSimple probe :=
  ⟨['z'], rfl, by decide, by decide⟩

theorem isReference_probe : IsReference probe :=
  ⟨"z)".toList, rfl, by decide⟩

theorem found_fit_probe : Found (Fit stock (substitute · probe)) probe behind :=
  found_fit_reference isReference_probe (.inl isSimple_probe)

/-- If the reference behind a text is replaced, the text opens nothing. -/
theorem amid_of_probe {more : List Char} (hEnded : Ended text)
    (hAll : ∀ bag, substitute bag (text ++ (probe ++ more)) =
      substitute bag text ++ (substitute bag probe ++ later bag)) : amid text = .nothing := by
  have hSplit : ∀ bag, substitute bag (text ++ ("@(z".toList ++ ')' :: more)) =
      substitute bag text ++ (substitute bag probe ++ later bag) := hAll
  have hResume := resume?_of_append hEnded (by decide) (by decide) hSplit probeBag
  refine Amid.eq_nothing_of_resume? hResume ?_
  have hValue : substitute probeBag probe = ['y'] := by decide +kernel
  rw [hValue]
  exact fun hSame => absurd (Option.some.inj hSame) (by decide)

/-- If the references behind a text are kept up to the tag that closes a raw element, and no
further, then the text opens this element. -/
theorem amid_of_rawProbe {element : String} (hElement : element ∈ rawElements)
    (hEnded : Ended text)
    (hAll : ∀ bag, substitute bag
      (text ++ (rawProbe ++ ('<' :: '/' :: (element.toList ++ ['>']) ++ probe))) =
        substitute bag text ++
          (rawProbe ++ ('<' :: '/' :: (element.toList ++ ['>']) ++ substitute bag probe))) :
    amid text = .raw element := by
  have hSplit : ∀ bag, substitute bag (text ++ ("@(z".toList ++ ')' ::
      (">@(z)".toList ++ ('<' :: '/' :: (element.toList ++ ['>']) ++ probe)))) =
        substitute bag text ++
          (rawProbe ++ ('<' :: '/' :: (element.toList ++ ['>']) ++ substitute bag probe)) := hAll
  have hResume := resume?_of_append hEnded (by decide) (by decide) hSplit probeBag
  have hNames (name : String) (hRaw : amid text = .raw name) : name ∈ rawElements := by
    obtain ⟨left, hLeft, -⟩ := exists_left hEnded
    exact (hRaw ▸ hLeft).mem_rawElements
  simp only [rawElements, List.mem_cons, List.not_mem_nil, or_false] at hElement hNames
  cases hAmid : amid text with
  | reference =>
      rw [hAmid] at hResume
      cases hResume
  | nothing =>
      rw [hAmid] at hResume
      rcases hElement with rfl | rfl <;> exact absurd hResume (by decide +kernel)
  | closing =>
      rw [hAmid] at hResume
      rcases hElement with rfl | rfl <;> exact absurd hResume (by decide +kernel)
  | raw name =>
      rw [hAmid] at hResume
      rcases hElement with rfl | rfl <;> rcases hNames name hAmid with rfl | rfl <;>
        first | rfl | exact absurd hResume (by decide +kernel)

theorem SubstitutedAsScanned.follows_reference (h : SubstitutedAsScanned stock)
    (hStock : stock text) (hText : IsReference text) : Follows text := by
  have hBody : Found (Fit stock fun bag => substitute bag text ++ substitute bag probe)
      (text ++ probe) [] :=
    (found_fit_reference hText (.inr hStock)).append found_fit_probe fun _ _ => Fit.append
  have hAmid : amid text = .nothing := by
    refine @amid_of_probe text (fun _ => []) [] (ended_of_isReference hText) fun bag => ?_
    rw [List.append_nil, List.append_nil]
    exact h.substitute_eq hBody bag
  obtain ⟨taken, rfl, -⟩ := hText
  rw [Follows, hAmid, rawBehind?_reference]
  rfl

theorem ended_of_isTag (h : IsTag text) : Ended text := by
  obtain ⟨⟨inner, rfl, -⟩, -⟩ := h
  exact ended_tag inner

theorem follows_of_amid (hTag : IsTag text) (hRaw : rawName? text = none)
    (hAmid : amid text = .nothing) : Follows text := by
  rw [Follows, hAmid, hTag.rawBehind?_eq, hRaw]
  rfl

theorem SubstitutedAsScanned.follows_raw (h : SubstitutedAsScanned stock) (hStock : stock text)
    (hTag : IsTag text) (hRaw : rawName? text = some name) : Follows text := by
  have hBehind : rawBehind? (classifyTag text) text =
      some (String.ofList (name.map Char.toLower)) := by
    rw [hTag.rawBehind?_eq, hRaw]
    rfl
  have hElement := mem_rawElements_of_rawBehind? hBehind
  have hLower : (String.ofList (name.map Char.toLower)).toList = name.map Char.toLower :=
    String.toList_ofList
  rw [Follows, hBehind]
  generalize String.ofList (name.map Char.toLower) = element at hElement hLower
  have hSmall : element.toList.map Char.toLower = element.toList := by
    rw [hLower, List.map_map]
    exact List.map_congr_left fun c _ => toLower_toLower c
  have hName : element.toList ≠ [] ∧ element.toList.all isNameChar = true := by
    simp only [rawElements, List.mem_cons, List.not_mem_nil, or_false] at hElement
    rcases hElement with rfl | rfl <;> decide
  obtain ⟨hClosing, hCloses⟩ := closed?_of_name hName.1 hName.2
  have hBegins : BeginsClosing name ('<' :: '/' :: (element.toList ++ ['>'])) := by
    refine ⟨['>'], ?_⟩
    rw [closingStart, ← hLower, List.map_cons, List.map_cons, List.map_append, hSmall]
    rfl
  have hSame : Text.sameIgnoringCase name element.toList = true := by
    rw [Text.sameIgnoringCase, hSmall, hLower, beq_self_eq_true]
  have hContent : StaysRaw name rawProbe := by
    have hNone : StaysRaw name [] := fun hMem =>
      List.cons_ne_nil _ _ (List.infix_nil.mp hMem)
    exact List.append_nil rawProbe ▸ hNone.front (by decide +kernel)
  have hRawElement : Found (Fit stock fun bag => substitute bag text ++
      (rawProbe ++ '<' :: '/' :: (element.toList ++ ['>'])))
        (text ++ rawProbe ++ '<' :: '/' :: (element.toList ++ ['>'])) (probe ++ []) :=
    found_fit_raw hTag hStock hRaw hContent hBegins hClosing hCloses hSame
  have hProbe : Found (Fit stock (substitute · probe)) probe [] := found_fit_probe
  have hBody := hRawElement.append hProbe fun _ _ => Fit.append
  refine amid_of_rawProbe hElement (ended_of_isTag hTag) fun bag => ?_
  simpa only [List.append_assoc] using h.substitute_eq hBody bag

theorem SubstitutedAsScanned.follows_tag (h : SubstitutedAsScanned stock) (hStock : stock text)
    (hTag : IsTag text) : Follows text := by
  cases hCloses : closed? text with
  | some name => exact follows_of_closed? hCloses
  | none =>
      by_cases hOpens : ∀ name, opened? text = some name →
          isVoidElement (String.ofList name) = true
      · have hRaw : rawName? text = none := rawName?_of_void hOpens
        have hBody : Found (Fit stock fun bag => substitute bag text ++ substitute bag probe)
            (text ++ probe) [] :=
          (found_fit_tag hTag hStock hCloses hOpens).append found_fit_probe fun _ _ => Fit.append
        refine follows_of_amid hTag hRaw ?_
        refine @amid_of_probe text (fun _ => []) [] (ended_of_isTag hTag) fun bag => ?_
        rw [List.append_nil, List.append_nil]
        exact h.substitute_eq hBody bag
      · obtain ⟨name, hOpened, hVoid⟩ : ∃ name, opened? text = some name ∧
            isVoidElement (String.ofList name) = false := by
          simpa using hOpens
        cases hRawName : isRawElement (String.ofList name) with
        | true => exact h.follows_raw hStock hTag (rawName?_eq_some_iff.mpr ⟨hOpened, hRawName⟩)
        | false =>
            -- an element needs a tag that closes it behind the reference
            obtain ⟨hSome, hName⟩ := hTag.name_of_opened? hOpened
            obtain ⟨hClosing, hCloses⟩ := closed?_of_name hSome hName
            have hBody : Found (Fit stock fun bag => substitute bag text ++
                (substitute bag probe ++ substitute bag ('<' :: '/' :: (name ++ ['>']))))
                  (text ++ (probe ++ '<' :: '/' :: (name ++ ['>']))) [] :=
              found_fit_element hTag hStock hOpened hVoid hRawName hClosing hCloses found_fit_probe
            exact follows_of_amid hTag (rawName?_of_opened? hOpened hRawName)
              (amid_of_probe (ended_of_isTag hTag) fun bag => h.substitute_eq hBody bag)

/-- Rendered markup is substituted as the scanner takes it, whatever it is made of, exactly if
substitution follows every tag and every reference it may be made of. -/
theorem substitutedAsScanned_iff_follows
    (hStock : ∀ text, stock text → IsTag text ∨ IsReference text) :
    SubstitutedAsScanned stock ↔ ∀ text, stock text → Follows text := by
  constructor
  · intro h text hText
    rcases hStock text hText with hTag | hReference
    · exact h.follows_tag hText hTag
    · exact h.follows_reference hText hReference
  · exact substitutedAsScanned_of_follows

end

/-- Some tags and references of a page. -/
def pageTags : List (List Char) :=
  ["<p class=\"@(kind)\">".toList, "<br/>".toList, "<style>".toList,
    "@(name || \"(none)\")".toList]

theorem pageTags_tag_or_reference : ∀ text ∈ pageTags, IsTag text ∨ IsReference text := by
  simp only [pageTags, List.forall_mem_cons]
  refine ⟨.inl ⟨⟨"p class=\"@(kind)\"".toList, by decide, by decide⟩, by decide⟩,
    .inl ⟨⟨"br/".toList, by decide, by decide⟩, by decide⟩,
    .inl ⟨⟨"style".toList, by decide, by decide⟩, by decide⟩,
    .inr ⟨"name || \"(none)\")".toList, by decide, by decide⟩, List.forall_mem_nil _⟩

/-- The references of a page made of these are all replaced, and its styles are kept. -/
theorem pageTags_substituted : (∀ text ∈ pageTags, IsTag text ∨ IsReference text) ∧
    SubstitutedAsScanned (· ∈ pageTags) :=
  ⟨pageTags_tag_or_reference,
    (substitutedAsScanned_iff_follows pageTags_tag_or_reference).mpr (by decide +kernel)⟩

/-- A style that closes itself goes on for substitution. -/
theorem not_follows_selfClosed : ¬Follows "<style/>".toList := by
  decide +kernel

/-- So the reference behind it is left as it is. -/
theorem selfClosed_not_substituted : ¬SubstitutedAsScanned fun _ => True := by
  intro h
  have hTag : IsTag "<style/>".toList := ⟨⟨"style/".toList, by decide, by decide⟩, by decide⟩
  exact not_follows_selfClosed (h.follows_tag trivial hTag)

example : substitute [("a", .string "x")] "<style/>@(a)".toList = "<style/>@(a)".toList := by
  decide +kernel

/-! Other tags that are not followed: there is a `<` in them, the name of a raw element ends
differently, the element is closed within its own tag, or a reference is left open. -/

example : ∀ tag ∈ ["<p <style>", "<style\"x\">", "<style </style>", "<p title=\"@(\">"],
    ¬Follows tag.toList := by
  decide +kernel

end HtmlTemplate
