import HtmlTemplate.Proofs.Script.Pieces
import HtmlTemplate.Source.Lexeme

/-! The characters of lexemes, and what may stand behind the characters of a lexeme so that
they are read as that lexeme. -/
namespace HtmlTemplate.Script

open Source (isQuote)

/-! Classes of characters. -/

/-- A class of characters without the exceptions of another one lies within it. -/
theorem of_class {p q : Char → Bool} {others : List Char}
    (hOthers : ∀ c, q c = false → c ∈ others) {c : Char} (h : p c = true)
    (hClass : others.any p = false) : q c = true := by
  cases hSame : q c with
  | true => rfl
  | false =>
      rw [List.any_eq_true.mpr ⟨c, hOthers c hSame, h⟩] at hClass
      cases hClass

/-- A property of the characters with some codes. -/
theorem of_mem_codes {p : Char → Bool} {codes : List Nat}
    (hCodes : (codes.all fun n => p (.ofNat n)) = true) {c : Char} (hc : c.toNat ∈ codes) :
    p c = true := by
  rw [← c.ofNat_toNat]
  exact List.all_eq_true.mp hCodes _ hc

theorem isDigit_of_isWordStart {c : Char} (h : isWordStart c = true) : c.isDigit = false := by
  rw [← Bool.not_eq_true]
  intro hDigit
  obtain ⟨hLow, hHigh⟩ := Char.isDigit_iff_toNat.mp hDigit
  have hCode : c.toNat ∈ List.range' '0'.toNat 10 := by
    rw [List.mem_range'_1]
    exact ⟨hLow, Nat.lt_succ_of_le hHigh⟩
  have hOther := of_mem_codes (p := fun c => !isWordStart c) (by decide) hCode
  rw [h] at hOther
  cases hOther

/-- The codes of the blanks. -/
def blankCodes : List Nat :=
  List.range' 9 5 ++ [0x20, 0x85, 0xA0, 0x1680] ++ List.range' 0x2000 11 ++
    [0x2028, 0x2029, 0x202F, 0x205F, 0x3000]

theorem of_isBlank {p : Char → Bool} (hCodes : (blankCodes.all fun n => p (.ofNat n)) = true)
    {c : Char} (h : Text.isBlank c = true) : p c = true := by
  refine of_mem_codes hCodes ?_
  simp only [Text.isBlank, Bool.or_eq_true, Bool.and_eq_true, decide_eq_true_eq, beq_iff_eq] at h
  simp only [blankCodes, List.mem_append, List.mem_range'_1, List.mem_cons, List.not_mem_nil]
  omega

/-! Words and numbers. -/

theorem isWordPart_of_isWordStart {c : Char} (h : isWordStart c = true) : isWordPart c = true := by
  unfold isWordStart Text.isAlphabetic at h
  unfold isWordPart Text.isAlphanumeric Char.isAlphanum
  split at h <;> simp_all
  all_goals grind

theorem takeWhile_append_stop {p : Char → Bool} (text : List Char) {behind : List Char}
    (h : text.all p = true) (hBehind : ∀ c ∈ behind.head?, p c = false) :
    (text ++ behind).takeWhile p = text := by
  rw [List.takeWhile_append_of_pos (List.all_eq_true.mp h)]
  cases behind with
  | nil => exact List.append_nil text
  | cons c rest => rw [List.takeWhile_cons_of_neg (by simp [hBehind c rfl]), List.append_nil]

/-- The exponent of a number: its mark, its sign if it has one, and its digits. -/
structure IsExponent (mark : Char) (sign digits : List Char) : Prop where
  isMark : mark = 'e' ∨ mark = 'E'
  isSign : sign = [] ∨ sign = ['+'] ∨ sign = ['-']
  isDigits : digits.all Char.isDigit = true
  isSome : digits ≠ []

/-- A character of a number in front of its exponent. -/
def isMantissa (c : Char) : Bool :=
  c.isDigit || c == '.'

section

variable {mark : Char} {sign digits text behind : List Char}

/-- Digits go on as far as there are digits. -/
theorem IsExponent.length (h : IsExponent mark sign digits)
    (hBehind : ∀ c ∈ behind.head?, c.isDigit = false) :
    exponentLength (mark :: (sign ++ (digits ++ behind))) = 1 + sign.length + digits.length := by
  have hTaken := takeWhile_append_stop digits h.isDigits hBehind
  obtain ⟨d, others, rfl⟩ := List.exists_cons_of_ne_nil h.isSome
  have hFirst : d.isDigit = true := (Bool.and_eq_true_iff.mp h.isDigits).1
  have hPlus : d ≠ '+' := by rintro rfl; cases hFirst
  have hMinus : d ≠ '-' := by rintro rfl; cases hFirst
  rw [exponentLength, if_pos (by simpa using h.isMark)]
  rcases h.isSign with rfl | rfl | rfl <;> simp_all

theorem exponent_of_length (h : exponentLength text ≠ 0) :
    ∃ mark sign digits, IsExponent mark sign digits ∧
      text.take (exponentLength text) = mark :: (sign ++ digits) ∧
      exponentLength text = 1 + sign.length + digits.length := by
  revert h
  fun_cases exponentLength text with
  | case1 | case2 | case4 => exact fun h => absurd rfl h
  | case3 mark rest hMark sign digits hSome =>
      intro _
      have hSign : rest.take sign = [] ∨ rest.take sign = ['+'] ∨ rest.take sign = ['-'] := by
        cases rest with
        | nil => simp
        | cons d others => grind
      have hLong : sign ≤ rest.length := by
        refine Nat.le_of_not_lt fun hShort => hSome ?_
        rw [show digits = (rest.drop sign).takeWhile Char.isDigit from rfl,
          List.drop_eq_nil_of_le (Nat.le_of_lt hShort), List.takeWhile_nil]
      have hDigits : (rest.drop sign).take digits.length = digits :=
        (List.prefix_iff_eq_take.mp (List.takeWhile_prefix _)).symm
      refine ⟨mark, rest.take sign, digits, ⟨by simpa using hMark, hSign, List.all_takeWhile,
        hSome⟩, ?_, ?_⟩
      · rw [Nat.add_assoc, Nat.add_comm 1, List.take_succ_cons, List.take_add, hDigits]
      · rw [List.length_take, Nat.min_eq_left hLong]

theorem numberLength_eq (text : List Char) :
    numberLength text = (text.takeWhile isMantissa).length +
      exponentLength (text.dropWhile isMantissa) := by
  rw [← drop_length_takeWhile]
  rfl

/-- A number is read in two parts. -/
theorem take_numberLength (text : List Char) :
    text.take (numberLength text) = text.takeWhile isMantissa ++
      (text.dropWhile isMantissa).take (exponentLength (text.dropWhile isMantissa)) := by
  rw [numberLength_eq, List.take_add, ← List.prefix_iff_eq_take.mp (List.takeWhile_prefix _),
    drop_length_takeWhile]

theorem length_take_numberLength (text : List Char) :
    (text.take (numberLength text)).length = numberLength text := by
  rw [take_numberLength, List.length_append, numberLength_eq]
  congr 1
  by_cases hNone : exponentLength (text.dropWhile isMantissa) = 0
  · rw [hNone]
    rfl
  · obtain ⟨mark, sign, digits, -, hTaken, hLength⟩ := exponent_of_length hNone
    rw [hTaken, hLength, List.length_cons, List.length_append]
    omega

theorem numberLength_le (text : List Char) : numberLength text ≤ text.length := by
  rw [← length_take_numberLength, List.length_take]
  exact Nat.min_le_right _ _

theorem numberLength_append (hText : text.all isMantissa = true)
    (hBehind : ∀ c ∈ behind.head?, isMantissa c = false) :
    numberLength (text ++ behind) = text.length + exponentLength behind := by
  rw [numberLength_eq, ← drop_length_takeWhile, takeWhile_append_stop text hText hBehind,
    List.drop_left]

theorem numberLength_take_append
    (hBehind : ∀ c ∈ behind.head?, c.isDigit = false ∧
      ((text.take (numberLength text)).all isMantissa = true → c ∉ ['.', 'e', 'E'])) :
    numberLength (text.take (numberLength text) ++ behind) = numberLength text := by
  have hSplit := List.takeWhile_append_dropWhile (p := isMantissa) (l := text)
  have hMantissa : (text.takeWhile isMantissa).all isMantissa = true := List.all_takeWhile
  have hRest : ∀ c ∈ (text.dropWhile isMantissa).head?, isMantissa c = false := fun c hc => by
    have hHead := List.head?_dropWhile_not isMantissa text
    rw [hc] at hHead
    simpa using hHead
  generalize text.takeWhile isMantissa = mantissa at hSplit hMantissa
  generalize text.dropWhile isMantissa = rest at hSplit hRest
  subst hSplit
  rw [numberLength_append hMantissa hRest, List.take_length_add_append] at hBehind ⊢
  by_cases hNone : exponentLength rest = 0
  · rw [hNone, List.take_zero, List.append_nil] at hBehind ⊢
    rw [numberLength_append hMantissa]
    · cases behind with
      | nil => rfl
      | cons c later =>
          have hNext := (hBehind c rfl).2 hMantissa
          simp_all [exponentLength]
    · intro c hc
      have hNext := (hBehind c hc).2 hMantissa
      simp_all [isMantissa]
  · obtain ⟨mark, sign, digits, hExponent, hTaken, hLength⟩ := exponent_of_length hNone
    have hMark : isMantissa mark = false := by rcases hExponent.isMark with rfl | rfl <;> rfl
    rw [hTaken, List.append_assoc, numberLength_append hMantissa (by simpa using hMark),
      List.cons_append, List.append_assoc, hExponent.length fun c hc => (hBehind c hc).1, hLength]

end

/-- A character of a number. -/
def isNumeral (c : Char) : Bool :=
  c.isDigit || c ∈ ['.', 'e', 'E', '+', '-']

theorem isNumeral_of_mem {text : List Char} {c : Char} (h : c ∈ text.take (numberLength text)) :
    isNumeral c = true := by
  have hDigit {d : Char} (hd : d.isDigit = true) : isNumeral d = true := by simp [isNumeral, hd]
  rw [take_numberLength] at h
  rcases List.mem_append.mp h with hMantissa | hRest
  · have hClass := List.all_eq_true.mp List.all_takeWhile c hMantissa
    rcases (by simpa [isMantissa] using hClass : c.isDigit = true ∨ c = '.') with hd | rfl
    · exact hDigit hd
    · decide
  · by_cases hNone : exponentLength (text.dropWhile isMantissa) = 0
    · rw [hNone] at hRest
      cases hRest
    · obtain ⟨mark, sign, digits, hExponent, hTaken, -⟩ := exponent_of_length hNone
      rw [hTaken] at hRest
      rcases List.mem_cons.mp hRest with rfl | hRest
      · rcases hExponent.isMark with rfl | rfl <;> decide
      rcases List.mem_append.mp hRest with hSign | hDigits
      · rcases hExponent.isSign with rfl | rfl | rfl
        · cases hSign
        · cases List.mem_singleton.mp hSign
          decide
        · cases List.mem_singleton.mp hSign
          decide
      · exact hDigit (List.all_eq_true.mp hExponent.isDigits c hDigits)

/-! Kinds of lexemes. -/

/-- The text of a symbol is where the symbol is found. -/
theorem symbol_text {c : Char} {rest : List Char} {s : Symbol}
    (h : Symbol.byLength.find? (fun s => s.text.toList.isPrefixOf (c :: rest)) = some s) :
    c :: rest.take (s.text.length - 1) = s.text.toList := by
  have hFound : s.text.toList.isPrefixOf (c :: rest) = true := by simpa using List.find?_some h
  have hPrefix := List.isPrefixOf_iff_prefix.mp hFound
  have hTake := List.prefix_iff_eq_take.mp hPrefix
  rw [String.length_toList] at hTake
  cases s <;> exact hTake.symm

/-- What a lexeme of some kind begins with. -/
def LexemeKind.Begins (kind : LexemeKind) (c : Char) (rest : List Char) : Prop :=
  match kind with
  | .number => c.isDigit = true ∨ c = '.' ∧ rest.head?.any Char.isDigit = true
  | .string => isQuote c = true
  | .reference => c = '@' ∧ rest.head? = some '('
  | .markedWord => c = '@' ∧ rest.head?.any isWordStart = true
  | .word => isWordStart c = true
  | .optionalChain => c = '?' ∧ rest.head? = some '.'
  | .symbol => True

theorem begins_of_lexemeKind {kind : LexemeKind} {c : Char} {rest : List Char}
    (h : lexemeKind c rest = kind) : kind.Begins c rest := by
  subst h
  fun_cases lexemeKind c rest with
  | case1 h => simpa [LexemeKind.Begins] using h
  | case2 _ h => simpa [LexemeKind.Begins, isQuote, or_assoc] using h
  | case3 _ _ h => simpa [LexemeKind.Begins] using h
  | case4 _ _ _ h => simpa [LexemeKind.Begins] using h
  | case5 _ _ _ _ h => exact h
  | case6 _ _ _ _ _ h => grind [LexemeKind.Begins]
  | case7 => trivial

theorem exists_cons_of_any {p : Char → Bool} {text : List Char} (h : text.head?.any p = true) :
    ∃ d later, text = d :: later ∧ p d = true := by
  cases text with
  | nil => cases h
  | cons d later => exact ⟨d, later, rfl, h⟩

theorem numberLength_succ {c : Char} (rest : List Char) (h : isMantissa c = true) :
    ∃ n, numberLength (c :: rest) = n + 1 := by
  rw [numberLength_eq, List.takeWhile_cons_of_pos h, List.length_cons]
  exact ⟨_, Nat.add_right_comm _ 1 _⟩

theorem numberLength_point {d : Char} (rest : List Char) (h : d.isDigit = true) :
    ∃ n, numberLength ('.' :: d :: rest) = n + 2 := by
  rw [numberLength_eq, List.takeWhile_cons_of_pos rfl,
    List.takeWhile_cons_of_pos (by simp [isMantissa, h])]
  exact ⟨_, Nat.add_right_comm _ 2 _⟩

/-- A number takes the character it begins with. -/
theorem number_text {c : Char} {rest : List Char} (h : LexemeKind.number.Begins c rest) :
    c :: rest.take (numberLength (c :: rest) - 1) = (c :: rest).take (numberLength (c :: rest)) := by
  have hMantissa : isMantissa c = true := by simpa [isMantissa] using h.imp_right And.left
  obtain ⟨n, hLength⟩ := numberLength_succ rest hMantissa
  rw [hLength, Nat.add_sub_cancel, List.take_succ_cons]

/-- A number begins in its own characters as it does in the text. -/
theorem begins_number {c : Char} {rest : List Char} (h : LexemeKind.number.Begins c rest) :
    LexemeKind.number.Begins c (rest.take (numberLength (c :: rest) - 1)) := by
  refine h.imp_right fun ⟨hPoint, hNext⟩ => ⟨hPoint, ?_⟩
  obtain ⟨d, later, rfl, hDigit⟩ := exists_cons_of_any hNext
  obtain ⟨n, hLong⟩ := numberLength_point later hDigit
  subst hPoint
  rw [hLong]
  exact hNext

theorem take_length_takeWhile (p : Char → Bool) (text : List Char) :
    text.take (text.takeWhile p).length = text.takeWhile p :=
  (List.prefix_iff_eq_take.mp (List.takeWhile_prefix p)).symm

/-! How lexemes are written. -/

/-- How a lexeme is written. -/
def Lexeme.Written (lexeme : Lexeme) (c : Char) (rest : List Char) : Prop :=
  match lexeme with
  | .number _ =>
    (c.isDigit = true ∨ c = '.' ∧ rest.head?.any Char.isDigit = true) ∧
      (c :: rest).all isNumeral = true
  | .string _ =>
    ∃ body found n, isQuote c = true ∧ stringBody c body = .ok (found, n) ∧ rest = body.take n
  | .reference _ => c = '@'
  | .symbol s => c :: rest = s.text.toList
  | .identifier _ | .boolean _ | .null | .undefined | .typeof =>
    (isWordStart c = true ∨ c = '@') ∧ rest.all isWordPart = true
  | .finish => False

theorem written_wordLexeme {word rest : List Char} {c : Char}
    (hFirst : isWordStart c = true ∨ c = '@') (hRest : rest.all isWordPart = true) :
    (wordLexeme word).Written c rest := by
  unfold wordLexeme
  split <;> exact ⟨hFirst, hRest⟩

theorem written_of_lexAt {c : Char} {rest : List Char} {found : Lexed}
    (h : lexAt 0 c rest = .ok found) : found.lexeme.Written c (rest.take found.more) := by
  have hWord : ((rest.take (rest.takeWhile isWordPart).length)).all isWordPart = true := by
    rw [take_length_takeWhile]
    exact List.all_takeWhile
  cases lexAt_eq_ok.mp h with
  | number hKind hRead =>
      have hHead := begins_of_lexemeKind hKind
      refine ⟨begins_number hHead, List.all_eq_true.mpr fun d hd => ?_⟩
      rw [number_text hHead] at hd
      exact isNumeral_of_mem hd
  | string hKind hBody => exact ⟨_, _, _, begins_of_lexemeKind hKind, hBody, rfl⟩
  | reference hKind => exact (begins_of_lexemeKind hKind).1
  | markedWord hKind => exact written_wordLexeme (.inr (begins_of_lexemeKind hKind).1) hWord
  | word hKind => exact written_wordLexeme (.inl (begins_of_lexemeKind hKind)) hWord
  | optionalChain hKind =>
      obtain ⟨rfl, hNext⟩ := begins_of_lexemeKind hKind
      obtain ⟨later, rfl⟩ := List.head?_eq_some_iff.mp hNext
      rfl
  | symbol hKind hFound => exact symbol_text hFound

/-! What stands behind a lexeme. -/

/-- The characters that go on with a symbol, which makes it a longer one or a comment. -/
def Symbol.followers : Symbol → List Char
  | .plus => ['+', '=']
  | .minus => ['-', '=']
  | .slash => ['=', '/', '*']
  | .star | .not | .lt | .gt | .eq | .eqEq | .notEq => ['=']
  | .question => ['?']
  | _ => []

/-- Whether what stands behind a symbol leaves it as it is. -/
def Symbol.Ends (s : Symbol) (behind : List Char) : Prop :=
  (∀ c ∈ behind.head?, c ∉ s.followers) ∧
    (s ∈ [.dot, .optionalChain] → behind.head?.any Char.isDigit = false) ∧
    (s = .question → behind.head? = some '.' → (behind.drop 1).head?.any Char.isDigit = true)

/-! What a lexeme of each kind begins with. -/

theorem lexemeKind_number {c : Char} {rest : List Char} (h : LexemeKind.number.Begins c rest) :
    lexemeKind c rest = .number := by
  have hFirst : (c.isDigit || (c = '.' && rest.head?.any Char.isDigit)) = true := by
    simpa [LexemeKind.Begins] using h
  rw [lexemeKind, if_pos hFirst]

theorem lexemeKind_quote {c : Char} (rest : List Char) (h : isQuote c = true) :
    lexemeKind c rest = .string := by
  rcases (by simpa [isQuote, or_assoc] using h : c = '"' ∨ c = '\'' ∨ c = '\x60') with
    rfl | rfl | rfl <;> rfl

theorem lexemeKind_word {c : Char} (rest : List Char) (h : isWordStart c = true) :
    lexemeKind c rest = .word := by
  have hOther {d : Char} (hd : isWordStart d = false) : c ≠ d := by
    rintro rfl
    cases h.symm.trans hd
  have hPoint : c ≠ '.' := hOther (by decide)
  have hSign : c ≠ '@' := hOther (by decide)
  have hDouble : c ≠ '"' := hOther (by decide)
  have hSingle : c ≠ '\'' := hOther (by decide)
  have hBack : c ≠ '\x60' := hOther (by decide)
  simp [lexemeKind, h, isDigit_of_isWordStart h, hPoint, hSign, hDouble, hSingle, hBack]

theorem lexemeKind_reference (rest : List Char) : lexemeKind '@' ('(' :: rest) = .reference :=
  rfl

theorem lexemeKind_marked {d : Char} (rest : List Char) (h : isWordStart d = true) :
    lexemeKind '@' (d :: rest) = .markedWord := by
  have hParen : d ≠ '(' := by
    rintro rfl
    cases h
  simp [lexemeKind, h, hParen]

theorem lexemeKind_optional {rest : List Char} (h : rest.head?.any Char.isDigit = false) :
    lexemeKind '?' ('.' :: rest) = .optionalChain := by
  have hLetter : isWordStart '?' = false := by decide
  simp [lexemeKind, h, hLetter]

/-- Whether what stands behind the characters of a lexeme leaves it as it is. -/
def Lexeme.Ends (lexeme : Lexeme) (text behind : List Char) : Prop :=
  match lexeme with
  | .number _ =>
    ∀ c ∈ behind.head?, c.isDigit = false ∧ (text.all isMantissa = true → c ∉ ['.', 'e', 'E'])
  | .symbol s => s.Ends behind
  | .string _ | .reference _ | .finish => True
  | .identifier _ | .boolean _ | .null | .undefined | .typeof =>
    ∀ c ∈ behind.head?, isWordPart c = false

section

variable {text behind : List Char}

theorem stringBody_take_append {quote : Char} {found : List Char} {n : Nat}
    (h : stringBody quote text = .ok (found, n)) (behind : List Char) :
    stringBody quote (text.take n ++ behind) = .ok (found, n) := by
  fun_induction stringBody quote text generalizing found n with
  | case1 => cases h
  | case2 rest =>
      cases h
      rw [List.take_succ_cons, List.take_zero, List.singleton_append, stringBody.eq_def]
      simp only [↓reduceIte]
  | case3 => cases h
  | case4 d rest hOther ih =>
      obtain ⟨⟨inner, m⟩, hInner, hEq⟩ := map_eq_ok.mp h
      cases hEq
      rw [List.take_succ_cons, List.take_succ_cons, List.cons_append, List.cons_append,
        stringBody.eq_def]
      simp only [hOther, ↓reduceIte, ih hInner]
      rfl
  | case5 c rest hOther hPlain ih =>
      obtain ⟨⟨inner, m⟩, hInner, hEq⟩ := map_eq_ok.mp h
      cases hEq
      rw [List.take_succ_cons, List.cons_append, stringBody.eq_def]
      simp only [hOther, hPlain, ↓reduceIte, ih hInner]
      rfl

theorem referenceBody_take_append {depth : Nat} {path : List Char}
    (h : referenceBody depth text = some path) (behind : List Char) :
    referenceBody depth (text.take (path.length + 1) ++ behind) = some path := by
  fun_induction referenceBody depth text generalizing path with
  | case1 => cases h
  | case2 depth rest ih =>
      obtain ⟨inner, hInner, rfl⟩ := Option.map_eq_some_iff.mp h
      simp [referenceBody, ih hInner]
  | case3 rest =>
      cases h
      simp [referenceBody]
  | case4 rest _ depth ih =>
      obtain ⟨inner, hInner, rfl⟩ := Option.map_eq_some_iff.mp h
      simp [referenceBody, ih hInner]
  | case5 depth c rest hOpen hClose ih =>
      obtain ⟨inner, hInner, rfl⟩ := Option.map_eq_some_iff.mp h
      simp [referenceBody, hOpen, hClose, ih hInner]

theorem length_of_stringBody {quote : Char} {found : List Char} {n : Nat}
    (h : stringBody quote text = .ok (found, n)) : n ≤ text.length := by
  fun_induction stringBody quote text generalizing found n with
  | case1 | case3 => cases h
  | case2 rest =>
      cases h
      exact Nat.succ_pos _
  | case4 d rest hOther ih | case5 c rest hOther hPlain ih =>
      obtain ⟨⟨inner, m⟩, hInner, hEq⟩ := map_eq_ok.mp h
      cases hEq
      have hLater := ih hInner
      simp only [List.length_cons]
      omega

theorem length_of_referenceBody {depth : Nat} {path : List Char}
    (h : referenceBody depth text = some path) : path.length + 1 ≤ text.length := by
  fun_induction referenceBody depth text generalizing path with
  | case1 => cases h
  | case3 rest =>
      cases h
      exact Nat.succ_pos _
  | case2 depth rest ih | case4 rest _ depth ih | case5 depth c rest _ _ ih =>
      obtain ⟨inner, hInner, rfl⟩ := Option.map_eq_some_iff.mp h
      exact Nat.succ_le_succ (ih hInner)

theorem lexemeKind_symbol {s : Symbol} {c : Char} {tail : List Char}
    (hText : s.text.toList = c :: tail) (hs : s ≠ .optionalChain) (hEnds : s.Ends behind) :
    lexemeKind c (tail ++ behind) = .symbol := by
  obtain ⟨-, hDigit, hPoint⟩ := hEnds
  cases s
  case dot =>
    have hDot : ['.'] = c :: tail := hText
    cases hDot
    have hNone := hDigit (by simp)
    have hLetter : isWordStart '.' = false := by decide
    simp [lexemeKind, hNone, hLetter]
  case question =>
    have hQuestion : ['?'] = c :: tail := hText
    cases hQuestion
    have hPoint := hPoint rfl
    have hLetter : isWordStart '?' = false := by decide
    simpa [lexemeKind, hLetter] using hPoint
  case optionalChain => exact absurd rfl hs
  all_goals
    cases hText
    rfl

/-- A symbol that another one begins with is followed there by one of its followers. -/
theorem followers_of_longer : (Symbol.byLength.all fun s => Symbol.byLength.all fun t =>
    !s.text.toList.isPrefixOf t.text.toList ||
      (t.text.toList.drop s.text.length).head?.all (· ∈ s.followers)) = true := by
  decide +kernel

/-- A symbol is found where nothing goes on with it. -/
theorem find?_symbol {s : Symbol}
    (h : Symbol.byLength.find? (fun t => t.text.toList.isPrefixOf text) = some s)
    (hBehind : ∀ c ∈ behind.head?, c ∉ s.followers) :
    Symbol.byLength.find? (fun t => t.text.toList.isPrefixOf (s.text.toList ++ behind)) =
      some s := by
  obtain ⟨hFound, before, after, hSplit, hBefore⟩ := List.find?_eq_some_iff_append.mp h
  refine List.find?_eq_some_iff_append.mpr ⟨by simp, before, after, hSplit, fun t ht => ?_⟩
  rw [Bool.not_eq_true', ← Bool.not_eq_true, List.isPrefixOf_iff_prefix]
  intro hPrefix
  rcases List.prefix_or_prefix_of_prefix hPrefix (List.prefix_append s.text.toList behind) with
    hShort | ⟨more, hMore⟩
  · have hOther := hBefore t ht
    rw [Bool.not_eq_true', ← Bool.not_eq_true, List.isPrefixOf_iff_prefix] at hOther
    exact hOther (hShort.trans (List.isPrefixOf_iff_prefix.mp hFound))
  · have hLonger := List.all_eq_true.mp (List.all_eq_true.mp followers_of_longer s
      (List.mem_of_find?_eq_some h)) t (hSplit ▸ List.mem_append_left _ ht)
    rw [← hMore, ← String.length_toList, List.drop_left] at hLonger
    cases more with
    | nil =>
        rw [List.append_nil] at hMore
        have hOther := hBefore t ht
        rw [← hMore, hFound] at hOther
        cases hOther
    | cons d more =>
        rw [← hMore] at hPrefix
        obtain ⟨later, hLater⟩ := (List.prefix_append_right_inj _).mp hPrefix
        have hNext : d ∉ s.followers := hBehind d (by simp [← hLater])
        have hPrefixed : s.text.toList.isPrefixOf (s.text.toList ++ d :: more) = true :=
          List.isPrefixOf_iff_prefix.mpr (List.prefix_append _ _)
        simp [hPrefixed, hNext] at hLonger

theorem wordLexeme_ends {word text : List Char} :
    (wordLexeme word).Ends text behind ↔ ∀ c ∈ behind.head?, isWordPart c = false := by
  unfold wordLexeme
  split <;> rfl

theorem LexedAt.number_take_append {x : Float} {c : Char} {rest : List Char}
    (hHead : LexemeKind.number.Begins c rest)
    (hRead : readDouble? ((c :: rest).take (numberLength (c :: rest))) = some x)
    (hEnds : (Lexeme.number x).Ends (c :: rest.take (numberLength (c :: rest) - 1)) behind) :
    LexedAt c (rest.take (numberLength (c :: rest) - 1) ++ behind)
      ⟨.number x, numberLength (c :: rest) - 1, 0⟩ := by
  have hText := number_text hHead
  have hBegins : LexemeKind.number.Begins c
      (rest.take (numberLength (c :: rest) - 1) ++ behind) := by
    refine (begins_number hHead).imp_right (And.imp_right fun hNext => ?_)
    obtain ⟨d, later, hLater, hDigit⟩ := exists_cons_of_any hNext
    rw [hLater]
    exact hDigit
  have hWhole : c :: (rest.take (numberLength (c :: rest) - 1) ++ behind) =
      (c :: rest).take (numberLength (c :: rest)) ++ behind := by
    rw [← List.cons_append, hText]
  rw [hText] at hEnds
  have hLength := numberLength_take_append hEnds
  have hTake : ((c :: rest).take (numberLength (c :: rest)) ++ behind).take
      (numberLength (c :: rest)) = (c :: rest).take (numberLength (c :: rest)) :=
    List.take_left' (length_take_numberLength _)
  have hAgain := LexedAt.number (x := x) (lexemeKind_number hBegins)
  rw [hWhole, hLength, hTake] at hAgain
  exact hAgain hRead

/-- A lexeme is read from its own characters, if what stands behind leaves it as it is. -/
theorem LexedAt.take_append {c : Char} {rest : List Char} {found : Lexed}
    (h : LexedAt c rest found) (hEnds : found.lexeme.Ends (c :: rest.take found.more) behind) :
    LexedAt c (rest.take found.more ++ behind) found := by
  cases h with
  | number hKind hRead => exact .number_take_append (begins_of_lexemeKind hKind) hRead hEnds
  | string hKind hBody =>
      exact .string (lexemeKind_quote _ (begins_of_lexemeKind hKind))
        (stringBody_take_append hBody behind)
  | reference hKind hPath =>
      obtain ⟨rfl, hNext⟩ := begins_of_lexemeKind hKind
      obtain ⟨inner, rfl⟩ := List.head?_eq_some_iff.mp hNext
      exact .reference (lexemeKind_reference _) (referenceBody_take_append hPath behind)
  | markedWord hKind =>
      obtain ⟨rfl, hNext⟩ := begins_of_lexemeKind hKind
      obtain ⟨d, later, rfl, hStart⟩ := exists_cons_of_any hNext
      have hFirst := List.takeWhile_cons_of_pos (l := later) (isWordPart_of_isWordStart hStart)
      have hAgain := takeWhile_append_stop ((d :: later).takeWhile isWordPart)
        List.all_takeWhile (wordLexeme_ends.mp hEnds)
      rw [hFirst] at hAgain
      have hWord := LexedAt.markedWord
        (lexemeKind_marked (later.takeWhile isWordPart ++ behind) hStart)
      rw [← List.cons_append, hAgain] at hWord
      rwa [take_length_takeWhile, hFirst]
  | word hKind =>
      have hAgain := takeWhile_append_stop (rest.takeWhile isWordPart)
        List.all_takeWhile (wordLexeme_ends.mp hEnds)
      have hWord := LexedAt.word (lexemeKind_word (rest.takeWhile isWordPart ++ behind)
        (begins_of_lexemeKind hKind))
      rw [hAgain] at hWord
      rwa [take_length_takeWhile]
  | optionalChain hKind =>
      obtain ⟨rfl, hNext⟩ := begins_of_lexemeKind hKind
      obtain ⟨later, rfl⟩ := List.head?_eq_some_iff.mp hNext
      exact .optionalChain (lexemeKind_optional (hEnds.2.1 (by simp)))
  | @symbol s hKind hFound =>
      have hText := symbol_text hFound
      have hChain : s ≠ .optionalChain := by
        rintro rfl
        exact absurd (List.mem_of_find?_eq_some hFound) (by decide)
      refine .symbol (lexemeKind_symbol hText.symm hChain hEnds) ?_
      rw [← List.cons_append, hText]
      exact find?_symbol hFound hEnds.1

theorem lexAt_take_append {c : Char} {rest : List Char} {found : Lexed}
    (h : lexAt 0 c rest = .ok found)
    (hEnds : found.lexeme.Ends (c :: rest.take found.more) behind) :
    lexAt 0 c (rest.take found.more ++ behind) = .ok found :=
  lexAt_eq_ok.mpr ((lexAt_eq_ok.mp h).take_append hEnds)

/-- A lexeme takes no more characters than there are. -/
theorem more_le_of_lexAt {c : Char} {rest : List Char} {found : Lexed}
    (h : lexAt 0 c rest = .ok found) : found.more ≤ rest.length := by
  cases lexAt_eq_ok.mp h with
  | number => exact Nat.sub_le_of_le_add (numberLength_le (c :: rest))
  | string hKind hBody => exact length_of_stringBody hBody
  | reference hKind hPath =>
      obtain ⟨inner, rfl⟩ := List.head?_eq_some_iff.mp (begins_of_lexemeKind hKind).2
      exact Nat.succ_le_succ (length_of_referenceBody hPath)
  | markedWord | word => exact (List.takeWhile_prefix isWordPart).length_le
  | optionalChain hKind =>
      obtain ⟨later, rfl⟩ := List.head?_eq_some_iff.mp (begins_of_lexemeKind hKind).2
      exact Nat.succ_pos _
  | symbol hKind hFound =>
      have hLength := congrArg List.length (symbol_text hFound)
      rw [String.length_toList, List.length_cons, List.length_take] at hLength
      dsimp only
      omega

end

end HtmlTemplate.Script
