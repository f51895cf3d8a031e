import HtmlTemplate.Proofs.Script.Lexemes
import HtmlTemplate.Proofs.Script.Nesting
import HtmlTemplate.Proofs.Source.Enclosing
import HtmlTemplate.Source.Scanner

/-! Function bodies between braces. -/
namespace HtmlTemplate.Script

open Source (Brackets braces isQuote)

/-- Braces around script code. -/
def scriptBraces : Brackets := braces .setup

/-- Characters that braces around script code do not look at. -/
def isInert (c : Char) : Bool :=
  !isQuote c && c != '\x7b' && c != '\x7d'

/-- The other characters. -/
def marks : List Char :=
  ['"', '\'', '\x60', '\x7b', '\x7d']

theorem mem_marks_of_not_inert (c : Char) (h : isInert c = false) : c ∈ marks := by
  simp only [isInert, isQuote, Bool.and_eq_false_iff, Bool.not_eq_false', Bool.or_eq_true,
    beq_iff_eq, bne_eq_false_iff_eq] at h
  simp only [marks, List.mem_cons]
  grind

theorem inert_of_class {p : Char → Bool} {c : Char} (h : p c = true)
    (hClass : marks.any p = false) : isInert c = true :=
  of_class mem_marks_of_not_inert h hClass

theorem inert_of_all {p : Char → Bool} {text : List Char} (h : text.all p = true)
    (hClass : marks.any p = false) : text.all isInert = true :=
  List.all_eq_true.mpr fun c hc => inert_of_class (List.all_eq_true.mp h c hc) hClass

theorem passes_of_inert {text : List Char} (h : text.all isInert = true) :
    scriptBraces.Passes text := by
  refine Source.passes_of_all fun c hc => ?_
  have hInert := List.all_eq_true.mp h c hc
  simp only [isInert, Bool.and_eq_true, Bool.not_eq_true', bne_iff_ne] at hInert
  exact ⟨hInert.1.1, hInert.1.2, hInert.2⟩

/-- A string is passed over from its opening quote on. -/
theorem enclosed?_stringBody {b : Brackets} {quote : Char} {text found : List Char} {n : Nat}
    (hQuote : isQuote quote = true) (h : stringBody quote text = .ok (found, n)) (depth : Nat)
    (behind : List Char) :
    Source.enclosed? b depth (some quote) (text.take n ++ behind) =
      (Source.enclosed? b depth none behind).map (text.take n ++ ·) := by
  have hSlash : quote ≠ '\\' := by
    rintro rfl
    cases hQuote
  fun_induction stringBody quote text generalizing found n with
  | case1 => cases h
  | case2 rest =>
      cases h
      rw [List.take_succ_cons, List.take_zero, List.singleton_append, Source.enclosed?.eq_def]
      simp only [hSlash, ↓reduceIte, List.singleton_append]
  | case3 => cases h
  | case4 d rest hOther ih =>
      obtain ⟨⟨inner, m⟩, hInner, hEq⟩ := map_eq_ok.mp h
      cases hEq
      rw [List.take_succ_cons, List.take_succ_cons, List.cons_append, List.cons_append,
        Source.enclosed?.eq_def]
      simp only [↓reduceIte, ih hInner, Option.map_map]
      rfl
  | case5 c rest hOther hPlain ih =>
      obtain ⟨⟨inner, m⟩, hInner, hEq⟩ := map_eq_ok.mp h
      cases hEq
      rw [List.take_succ_cons, List.cons_append, Source.enclosed?.eq_def]
      simp only [hOther, hPlain, ↓reduceIte, ih hInner, Option.map_map]
      rfl

theorem passes_string {b : Brackets} {quote : Char} {text found : List Char} {n : Nat}
    (hQuoting : b.quoting = true) (hQuote : isQuote quote = true)
    (h : stringBody quote text = .ok (found, n)) : b.Passes (quote :: text.take n) := by
  intro depth behind
  rw [List.cons_append, Source.enclosed?.eq_def]
  simp only [hQuoting, hQuote, Bool.and_self, ↓reduceIte, enclosed?_stringBody hQuote h,
    Option.map_map]
  rfl

theorem inert_of_symbol {s : Symbol} (h : s ≠ .openBrace ∧ s ≠ .closeBrace) :
    s.text.toList.all isInert = true := by
  cases s <;> first | exact absurd rfl h.1 | exact absurd rfl h.2 | decide

/-- Whether the search for the closing brace goes over a text and keeps count of the braces
behind it. -/
def Steps (n : Nat) (lexemes : List Lexeme) (text : List Char) : Prop :=
  ∃ m, Braced m lexemes ∧ scriptBraces.PassesFrom n m text

section

variable {n : Nat} {c : Char} {rest : List Char} {lexeme : Lexeme} {lexemes : List Lexeme}
  {text : List Char}

theorem steps_of_passes (h : scriptBraces.Passes text) (hOpens : lexeme.opensBrace = false)
    (hCloses : lexeme.closesBrace = false) (hBraced : Braced n (lexeme :: lexemes)) :
    Steps n lexemes text :=
  ⟨n, (balances_of_neither hOpens hCloses).mp hBraced, h.deeper n⟩

theorem steps_of_symbol {s : Symbol} (hBraced : Braced n (.symbol s :: lexemes)) :
    Steps n lexemes s.text.toList := by
  by_cases hOpen : s = .openBrace
  · subst hOpen
    refine ⟨n + 1, (balances_of_opens rfl rfl).mp hBraced, fun depth behind => ?_⟩
    rw [Nat.add_comm n 1, ← Nat.add_assoc, Nat.add_right_comm]
    exact Source.passesFrom_opening rfl (depth + n) behind
  · by_cases hClose : s = .closeBrace
    · subst hClose
      cases n with
      | zero => exact absurd hBraced (not_balances_of_closes rfl rfl)
      | succ n =>
          refine ⟨n, (balances_of_closes rfl rfl).mp hBraced, fun depth behind => ?_⟩
          exact Source.passesFrom_closing rfl (by decide) (depth + n) behind
    · refine steps_of_passes (passes_of_inert (inert_of_symbol ⟨hOpen, hClose⟩)) ?_ ?_ hBraced
      · cases s <;> first | rfl | exact absurd rfl hOpen
      · cases s <;> first | rfl | exact absurd rfl hClose

/-- The search goes over a lexeme, if it goes over references. -/
theorem steps_of_written (hWritten : lexeme.Written c rest)
    (hReference : ∀ path, lexeme = .reference path → scriptBraces.Passes (c :: rest))
    (hBraced : Braced n (lexeme :: lexemes)) : Steps n lexemes (c :: rest) := by
  have hWord (h : (isWordStart c = true ∨ c = '@') ∧ rest.all isWordPart = true) :
      scriptBraces.Passes (c :: rest) := by
    have hFirst : isInert c = true := by
      rcases h.1 with hStart | rfl
      · exact inert_of_class hStart (by decide)
      · rfl
    refine passes_of_inert ?_
    rw [List.all_cons, hFirst, inert_of_all h.2 (by decide)]
    rfl
  cases lexeme with
  | number x =>
      exact steps_of_passes (passes_of_inert (inert_of_all hWritten.2 (by decide))) rfl rfl hBraced
  | string text =>
      obtain ⟨body, found, length, hQuote, hBody, rfl⟩ := hWritten
      exact steps_of_passes (passes_string rfl hQuote hBody) rfl rfl hBraced
  | reference path => exact steps_of_passes (hReference path rfl) rfl rfl hBraced
  | symbol s =>
      rw [show c :: rest = s.text.toList from hWritten]
      exact steps_of_symbol hBraced
  | finish => exact hWritten.elim
  | identifier | boolean | null | undefined | typeof =>
      exact steps_of_passes (hWord hWritten) rfl rfl hBraced

/-- The search goes over the pieces of a text whose braces are balanced. -/
theorem passesFrom_pieces {ps : List Piece} (hSound : ∀ p ∈ ps, p.Sound)
    (hPassages : ∀ t ∈ ps.filterMap Piece.passage?, scriptBraces.Encloses t)
    (hBraced : Braced n (ps.filterMap Piece.lexeme?)) :
    scriptBraces.PassesFrom n 0 (ps.flatMap Piece.text) := by
  induction ps generalizing n with
  | nil =>
      obtain rfl := balances_nil_iff.mp hBraced
      exact Source.passesFrom_nil
  | cons p rest ih =>
      obtain ⟨hFirst, hRest⟩ := List.forall_mem_cons.mp hSound
      have hLater : ∀ t ∈ rest.filterMap Piece.passage?, scriptBraces.Encloses t := by
        intro t ht
        obtain ⟨q, hq, hPassage⟩ := List.mem_filterMap.mp ht
        exact hPassages t (List.mem_filterMap.mpr ⟨q, List.mem_cons_of_mem _ hq, hPassage⟩)
      have hOwn : ∀ t, p.passage? = some t → scriptBraces.Encloses t := fun t ht =>
        hPassages t (List.mem_filterMap.mpr ⟨p, List.mem_cons_self, ht⟩)
      rw [List.flatMap_cons]
      cases hFirst with
      | @blank c hBlank =>
          have hInert : isInert c = true := inert_of_class hBlank (by decide)
          have hPasses : scriptBraces.Passes [c] := passes_of_inert (by simp [hInert])
          exact (hPasses.deeper n).append (ih hRest hLater hBraced)
      | comment hComment => exact ((hOwn _ rfl).passes.deeper n).append (ih hRest hLater hBraced)
      | @lexeme c text found hBlank hFound =>
          have hReference (path : String) (h : found.lexeme = .reference path) :
              scriptBraces.Passes (c :: text.take found.more) := by
            refine (hOwn _ ?_).passes
            rw [h]
            rfl
          obtain ⟨m, hBehind, hPasses⟩ :=
            steps_of_written (written_of_lexAt hFound) hReference hBraced
          exact hPasses.append (ih hRest hLater hBehind)

end

/-- Braces enclose a function body, if they enclose its comments and references. -/
theorem encloses_of_parseAll {body : String} {program : List Statement}
    (h : Statement.parseAll body = .ok program)
    (hPassages : ∀ t ∈ passages body.toList, scriptBraces.Encloses t) :
    scriptBraces.Encloses body.toList := by
  obtain ⟨ts, hTokens, hProgram⟩ := bind_eq_ok.mp h
  obtain ⟨hTexts, hLexemes⟩ := tokens_pieces (mapError_eq_ok.mp hTokens)
  have hNested := nested_of_statements hProgram
  rw [Nested, hLexemes, takeWhile_lexemes] at hNested
  have hPasses := passesFrom_pieces (pieces_sound _) hPassages hNested
  rw [hTexts] at hPasses
  exact Source.Brackets.Passes.encloses hPasses rfl (by decide)

end HtmlTemplate.Script
