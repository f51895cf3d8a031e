import HtmlTemplate.Proofs.Script.Clinging
import HtmlTemplate.Proofs.Script.Reading
import HtmlTemplate.Proofs.Script.Traversal

/-! Neighbours in script text. In an expression an operand is followed by a symbol, and a symbol
by the beginning of an expression, names behind a dot and what follows a bracket apart. That
leaves few pieces that are not read as they are when nothing is between them and the next. -/
namespace HtmlTemplate.Script

/-- A lexeme that an expression can begin with, or a bracket that closes what has none. -/
def Lexeme.Starts : Lexeme → Prop
  | .symbol s => s ∈ [.not, .minus, .plus, .openParen, .openBracket, .openBrace, .closeParen,
      .closeBracket, .closeBrace]
  | .finish => False
  | _ => True

def Lexeme.IsSymbol : Lexeme → Prop
  | .symbol _ => True
  | _ => False

/-- What can follow a lexeme in an expression. -/
def Lexeme.Admits (l m : Lexeme) : Prop :=
  match l with
  | .symbol .dot | .symbol .optionalChain => m.IsName
  | .symbol .plusPlus | .symbol .minusMinus | .symbol .closeParen | .symbol .closeBracket
  | .symbol .closeBrace | .typeof | .finish => True
  | .symbol _ => m.Starts
  | _ => m.IsSymbol

/-- Whether tokens follow each other so up to the end of the text, the first one being of some
kind. -/
def Orders (P : Lexeme → Prop) (ts : List Token) : Prop :=
  ((ts.map (·.lexeme)).takeWhile (· ≠ .finish)).IsChain Lexeme.Admits ∧
    ∀ l ∈ ((ts.map (·.lexeme)).takeWhile (· ≠ .finish)).head?, P l

section

variable {P Q : Lexeme → Prop} {t : Token} {rest : List Token} {x : Extent}

theorem orders_finish : Orders P (⟨.finish, x⟩ :: rest) := by
  simp [Orders]

theorem Orders.cons (h : Orders P rest) (hFinish : t.lexeme ≠ .finish)
    (hAdmits : ∀ m, P m → t.lexeme.Admits m) (hFirst : Q t.lexeme) : Orders Q (t :: rest) := by
  unfold Orders at h ⊢
  rw [List.map_cons, List.takeWhile_cons_of_pos (by simpa using hFinish), List.isChain_cons]
  exact ⟨⟨fun m hm => hAdmits m (h.2 m hm), h.1⟩, by rintro l ⟨⟩; exact hFirst⟩

end

/-- The order goes back over expressions. -/
theorem orders_tracks : Tracks (fun _ => Orders Lexeme.Starts) fun _ => Orders Lexeme.IsSymbol where
  operand {n t rest} ht h := by
    obtain ⟨lexeme, x⟩ := t
    refine h.cons ?_ ?_ ?_ <;> cases lexeme <;>
      first | exact ht.elim | simp [Lexeme.Admits, Lexeme.Starts]
  sign {n t rest} ht h := by
    obtain ⟨lexeme, x⟩ := t
    cases lexeme with
    | symbol s =>
        cases s <;> first
          | (cases ht; done)
          | exact h.cons (by simp) (fun _ => id) (by simp [Lexeme.Starts])
    | typeof => exact h.cons (by simp) (fun _ _ => trivial) trivial
    | _ => cases ht
  join {n s x rest} hs h := by
    refine h.cons (by simp) (fun m hm => ?_) trivial
    cases s <;> first
      | exact hm
      | trivial
      | simp [Symbol.Joins, BinaryOp.ofSymbol?, AssignOp.ofSymbol?] at hs
  member {n s x t rest} hs ht h := by
    obtain ⟨lexeme, y⟩ := t
    have hName : Orders Lexeme.IsName (⟨lexeme, y⟩ :: rest) := by
      refine h.cons ?_ ?_ ht <;> cases lexeme <;> first | exact ht.elim | simp [Lexeme.Admits]
    refine hName.cons (by simp) (fun m hm => ?_) trivial
    rcases (by simpa using hs : s = .dot ∨ s = .optionalChain) with rfl | rfl <;> exact hm
  step {n s x rest} hs h := by
    refine h.cons (by simp) (fun m hm => ?_) trivial
    rcases (by simpa using hs : s = .plusPlus ∨ s = .minusMinus) with rfl | rfl <;> trivial
  opening {n s x rest} hs h := by
    rcases (by simpa using hs : s = .openParen ∨ s = .openBracket) with rfl | rfl <;>
      exact ⟨h.cons (by simp) (fun _ => id) (by simp [Lexeme.Starts]),
        h.cons (by simp) (fun _ => id) trivial⟩
  closing {n s x rest} hs h := by
    rcases (by simpa using hs : s = .closeParen ∨ s = .closeBracket) with rfl | rfl <;>
      exact ⟨h.cons (by simp) (fun _ _ => trivial) (by simp [Lexeme.Starts]),
        h.cons (by simp) (fun _ _ => trivial) trivial⟩
  openBrace h := h.cons (by simp) (fun _ => id) (by simp [Lexeme.Starts])
  closeBrace h :=
    ⟨h.cons (by simp) (fun _ _ => trivial) (by simp [Lexeme.Starts]),
      h.cons (by simp) (fun _ _ => trivial) trivial⟩

/-- The tokens of an expression come in that order. -/
theorem orders_of_parse {source : String} {e : Expr} {ts : List Token}
    (hTokens : parserTokens source = .ok ts) (h : Expr.parse source = .ok e) :
    ((ts.map (·.lexeme)).takeWhile (· ≠ .finish)).IsChain Lexeme.Admits := by
  obtain ⟨x, rest, less, hRead⟩ := (parse_eq_ok hTokens).mp h
  exact ((derives_of_assignment hRead).leads orders_tracks 0 orders_finish).1

/-! What the order leaves as it is. -/

section

variable {q : Piece} {behind : List Char}

/-- What goes on with a word begins with a character of a word. -/
theorem ends_word (hq : q.Sound)
    (h : ∀ m text, q = .lexeme m text → m.IsSymbol ∨ text.head?.any isWordPart = false) :
    ∀ c ∈ (q.text ++ behind).head?, isWordPart c = false := by
  obtain ⟨c, rest, hText, hFirst⟩ := hq.first
  rw [hText]
  rintro _ ⟨⟩
  cases q with
  | blank d =>
      have hOther := of_isBlank (p := fun c => !isWordPart c) (by decide +kernel) hFirst
      simpa using hOther
  | comment text =>
      have hSlash : c = '/' := hFirst
      rw [hSlash]
      rfl
  | lexeme m text =>
      rcases h m text rfl with hSymbol | hOther
      · cases m with
        | symbol s =>
            have hSame : c :: rest = s.text.toList := hFirst
            cases s <;> (cases hSame; rfl)
        | _ => exact hSymbol.elim
      · have hSame : text = c :: rest := hText
        simpa [hSame] using hOther

/-- What goes on with a number begins with a digit, a dot or the mark of an exponent. -/
theorem ends_number {text : List Char} (hq : q.Sound)
    (hSymbol : ∀ m more, q = .lexeme m more → m.IsSymbol)
    (hDot : ∀ more, q = .lexeme (.symbol .dot) more → text.all isMantissa = false) :
    ∀ c ∈ (q.text ++ behind).head?,
      c.isDigit = false ∧ (text.all isMantissa = true → c ∉ ['.', 'e', 'E']) := by
  obtain ⟨c, rest, hText, hFirst⟩ := hq.first
  rw [hText]
  rintro _ ⟨⟩
  cases q with
  | blank d =>
      have hOther := of_isBlank (p := fun c => !c.isDigit && !(c ∈ ['.', 'e', 'E'])) (by decide)
        hFirst
      simp only [Bool.and_eq_true, Bool.not_eq_true', decide_eq_false_iff_not] at hOther
      exact ⟨hOther.1, fun _ => hOther.2⟩
  | comment _ =>
      have hSlash : c = '/' := hFirst
      rw [hSlash]
      exact ⟨rfl, fun _ => by decide⟩
  | lexeme m more =>
      have hSymbol := hSymbol m more rfl
      cases m with
      | symbol s =>
          have hSame : c :: rest = s.text.toList := hFirst
          by_cases hs : s = .dot
          · subst hs
            have hOther := hDot more rfl
            cases hSame
            exact ⟨rfl, fun hAll => absurd hAll (by simp [hOther])⟩
          · cases s <;> first | exact absurd rfl hs | (cases hSame; exact ⟨rfl, fun _ => by decide⟩)
      | _ => exact hSymbol.elim

/-- The beginning of an expression. -/
theorem first_of_starts {m : Lexeme} {c : Char} {rest : List Char} (h : m.Starts)
    (hWritten : m.Written c rest) : c ∉ ['=', '/', '*', '?'] ∧ (c = '+' → m = .symbol .plus) ∧
      (c = '-' → m = .symbol .minus) ∧ (c = '.' → rest.head?.any Char.isDigit = true) := by
  have hPlain {p : Char → Bool} (hp : p c = true)
      (hOthers : (['=', '/', '*', '?', '+', '-', '.'].any p) = false) :
      c ∉ ['=', '/', '*', '?'] ∧ (c = '+' → m = .symbol .plus) ∧ (c = '-' → m = .symbol .minus) ∧
        (c = '.' → rest.head?.any Char.isDigit = true) := by
    have hNot : c ∉ ['=', '/', '*', '?', '+', '-', '.'] := fun hc => by
      rw [List.any_eq_true.mpr ⟨c, hc, hp⟩] at hOthers
      cases hOthers
    simp_all
  cases m with
  | number x =>
      rcases hWritten.1 with hDigit | ⟨rfl, hNext⟩
      · exact hPlain hDigit (by decide)
      · exact ⟨by decide, by simp, by simp, fun _ => hNext⟩
  | string text =>
      obtain ⟨body, found, n, hQuote, -⟩ := hWritten
      exact hPlain hQuote (by decide)
  | reference path =>
      obtain rfl : c = '@' := hWritten
      exact hPlain (p := (· == '@')) rfl (by decide)
  | symbol s =>
      have hText : c :: rest = s.text.toList := hWritten
      have hBracket (h : (['!', '(', '[', '\x7b', ')', ']', '\x7d'].contains c) = true) :=
        hPlain h (by decide)
      cases s <;> first
        | (simp [Lexeme.Starts] at h; done)
        | (cases hText; exact hBracket rfl)
        | (cases hText; exact ⟨by decide, fun _ => rfl, by decide, by decide⟩)
        | (cases hText; exact ⟨by decide, by decide, fun _ => rfl, by decide⟩)
  | identifier | boolean | null | undefined | typeof =>
      rcases hWritten.1 with hStart | rfl
      · exact hPlain hStart (by decide)
      · exact hPlain (p := (· == '@')) rfl (by decide)
  | finish => exact h.elim

theorem mem_followers {s : Symbol} {c : Char} (h : c ∈ s.followers) :
    (c ∈ ['=', '/', '*', '?'] ∧ (c = '/' → s = .slash)) ∨ c = '+' ∧ s = .plus ∨
      c = '-' ∧ s = .minus := by
  cases s <;> simp_all [Symbol.followers] <;> grind

/-- What goes on with a symbol is no expression. -/
theorem ends_symbol {s : Symbol} (hq : q.Sound)
    (hAdmits : ∀ m text, q = .lexeme m text → (Lexeme.symbol s).Admits m)
    (hPlus : ∀ text, q = .lexeme (.symbol .plus) text → s ≠ .plus)
    (hMinus : ∀ text, q = .lexeme (.symbol .minus) text → s ≠ .minus)
    (hSlash : ∀ text, q = .comment text → s ≠ .slash) : s.Ends (q.text ++ behind) := by
  obtain ⟨c, rest, hText, hFirst⟩ := hq.first
  rw [hText]
  unfold Symbol.Ends
  simp only [List.cons_append, List.head?_cons, Option.mem_some_iff, forall_eq', Option.any_some,
    List.drop_one, List.tail_cons, Option.some.injEq]
  cases q with
  | blank d =>
      have hOther := of_isBlank (p := fun c =>
        !c.isDigit && !(c ∈ ['=', '/', '*', '?', '+', '-', '.'])) (by decide) hFirst
      simp only [Bool.and_eq_true, Bool.not_eq_true', decide_eq_false_iff_not] at hOther
      refine ⟨fun hc => hOther.2 ?_, fun _ => hOther.1, fun _ h => absurd h ?_⟩
      · rcases mem_followers hc with ⟨h, -⟩ | ⟨rfl, -⟩ | ⟨rfl, -⟩
        · exact List.mem_append_left ['+', '-', '.'] h
        · decide
        · decide
      · rintro rfl
        exact hOther.2 (by decide)
  | comment text =>
      obtain rfl : c = '/' := hFirst
      refine ⟨fun hc => ?_, fun _ => rfl, fun _ h => absurd h (by decide)⟩
      rcases mem_followers hc with ⟨-, hs⟩ | ⟨h, -⟩ | ⟨h, -⟩
      · exact hSlash text rfl (hs rfl)
      · exact absurd h (by decide)
      · exact absurd h (by decide)
  | lexeme m text =>
      have hAdmits := hAdmits m text rfl
      have hStarts (h : s.followers ≠ []) : m.Starts := by
        cases s <;> first | exact hAdmits | exact absurd rfl h
      refine ⟨fun hc => ?_, fun hs => ?_, fun hs hc => ?_⟩
      · obtain ⟨hOther, hSame, hSame', -⟩ :=
          first_of_starts (hStarts (List.ne_nil_of_mem hc)) hFirst
        rcases mem_followers hc with ⟨h, -⟩ | ⟨h, hs⟩ | ⟨h, hs⟩
        · exact hOther h
        · rw [hSame h] at hPlus
          exact hPlus text rfl hs
        · rw [hSame' h] at hMinus
          exact hMinus text rfl hs
      · have hName : m.IsName := by
          rcases (by simpa using hs : s = .dot ∨ s = .optionalChain) with rfl | rfl <;>
            exact hAdmits
        have hWord : isWordStart c = true ∨ c = '@' := by
          cases m <;> first | exact hFirst.1 | exact hName.elim
        rcases hWord with hStart | rfl
        · exact isDigit_of_isWordStart hStart
        · rfl
      · subst hs
        obtain ⟨-, -, -, hDot⟩ := first_of_starts hAdmits hFirst
        have hNext := hDot hc
        cases rest with
        | nil => cases hNext
        | cons d more => exact hNext

/-- In an expression a piece is left as it is by the next one that it does not cling to. -/
theorem ends_of_admits {p : Piece} (hp : p.Sound) (hq : q.Sound) (hClings : ¬ p.Clings q)
    (hAdmits : ∀ l ∈ p.lexeme?, ∀ m ∈ q.lexeme?, l.Admits m)
    (hClosed : p.IsClosed) :
    p.Ends (q.text ++ behind) := by
  cases p with
  | blank c => trivial
  | comment text =>
      change if _ then _ else _
      by_cases hLine : ['/', '/'].isPrefixOf text = true
      · have hNext : q = .blank '\n' :=
          Decidable.byContradiction fun hOther => hClings ⟨hLine, hOther⟩
        rw [if_pos hLine, hNext]
        rintro _ ⟨⟩
        rfl
      · rw [if_neg hLine]
        exact .inl (Or.resolve_left hClosed hLine)
  | lexeme l text =>
      have hAdmits : ∀ m more, q = .lexeme m more → l.Admits m := by
        rintro m more rfl
        exact hAdmits l rfl m rfl
      cases l with
      | number x =>
          refine ends_number hq hAdmits ?_
          rintro more rfl
          simpa [Piece.Clings] using hClings
      | string | reference | finish => trivial
      | symbol s =>
          refine ends_symbol hq hAdmits ?_ ?_ ?_
          · rintro more rfl rfl
            exact hClings trivial
          · rintro more rfl rfl
            exact hClings trivial
          · rintro more rfl rfl
            exact hClings trivial
      | typeof =>
          refine ends_word hq ?_
          rintro m more rfl
          exact .inr (by simpa [Piece.Clings] using hClings)
      | identifier | boolean | null | undefined =>
          exact ends_word hq fun m more h => .inl (hAdmits m more h)

end

end HtmlTemplate.Script
