import HtmlTemplate.Proofs.Assets.Place
import HtmlTemplate.Proofs.Source.Enclosing
import HtmlTemplate.Proofs.Source.Positions
import Mathlib.Data.List.TakeWhile

/-! What the scanner reports, and where. A token is reported where it begins if it is a single
character or a control word, and where it ends otherwise; a fault is reported where the
construct begins that is not closed, at the end of the text, or where a parenthesis is
missing. All of these are functions of an offset. -/
namespace HtmlTemplate

/-- Whether a token is reported where it begins. -/
def TokenKind.atStart : TokenKind → Bool
  | .blank | .openParen | .closeParen | .unknown => true
  | .keyword k => k.isControl
  | _ => false

/-- The end of a token's span that the token is reported at. -/
def Token.place (t : Token) : Nat :=
  if t.kind.atStart then t.span.start else t.span.stop

namespace Source

/-- Whether a token of a text is reported as its place in the text says. -/
def Reported (source : List Char) (file : String) (t : Token) : Prop :=
  t.location = locationAt source file t.place

/-- A text, behind an opening bracket, in which nothing closes that bracket. -/
def Unclosed (b : Brackets) (text : List Char) : Prop :=
  ∀ inner, inner ++ [b.closing] <+: text → ¬ b.Encloses inner

/-- What stands between the beginning of a control word and the block behind it. -/
inductive ControlFront : List Char → Prop where
  | alternative {blanks : List Char} (hBlanks : blanks.all isSpace = true) :
      ControlFront (Keyword.elseBranch.text.toList ++ blanks)
  | headed {k : Keyword} {blanks head behind : List Char} (hWord : k = .ifBranch ∨ k = .eachItem)
      (hBlanks : blanks.all isSpace = true) (hHead : Parenthesised head)
      (hBehind : behind.all isSpace = true) :
      ControlFront (k.text.toList ++ blanks ++ head ++ behind)

/-- How a text breaks off for a scanner that has come to an offset, and the offset that this
is reported at. -/
inductive BreaksOff (source : List Char) (mode : ScanMode) (start : Nat) :
    ScanFault → Nat → Prop where
  | string {quote : Char} {rest : List Char} (hQuote : isQuote quote = true)
      (hText : source.drop start = quote :: rest) (hOpen : closeQuote? quote rest = none) :
      BreaksOff source mode start .unterminatedString source.length
  | tag {rest : List Char} (hText : source.drop start = '<' :: rest) (hOpen : '>' ∉ rest) :
      BreaksOff source mode start .unterminatedTag source.length
  | comment {rest : List Char} (hMode : mode = .markup)
      (hText : source.drop start = "<!--".toList ++ rest) (hOpen : ¬ "-->".toList <:+: rest) :
      BreaksOff source mode start .unterminatedComment start
  | reference {rest : List Char} (hText : source.drop start = '@' :: '(' :: rest)
      (hOpen : Unclosed plainParens rest) :
      BreaksOff source mode start .unterminatedReference start
  | block {front rest : List Char} (hFront : front = [] ∧ mode = .setup ∨ ControlFront front)
      (hText : source.drop start = front ++ '\x7b' :: rest)
      (hOpen : Unclosed (braces mode) rest) :
      BreaksOff source mode start .unterminatedBlock (start + front.length)
  | paren {k : Keyword} {blanks rest : List Char} (hWord : k = .ifBranch ∨ k = .eachItem)
      (hBlanks : blanks.all isSpace = true)
      (hText : source.drop start = (k.text.toList ++ blanks) ++ '(' :: rest)
      (hOpen : Unclosed parens rest) :
      BreaksOff source mode start .unterminatedParen (start + (k.text.toList ++ blanks).length)
  | missing {k : Keyword} {blanks rest : List Char} (hWord : k = .ifBranch ∨ k = .eachItem)
      (hBlanks : blanks.all isSpace = true)
      (hText : source.drop start = (k.text.toList ++ blanks) ++ rest)
      (hNext : ∀ ch ∈ rest.head?, isSpace ch = false ∧ ch ≠ '(') :
      BreaksOff source mode start (.missingParen k) (start + (k.text.toList ++ blanks).length)

/-- A result that is good, or an error that is reported where the text breaks off. -/
def Accounts {α : Type} (source : List Char) (file : String) (Bad : ScanFault → Nat → Prop)
    (Good : α → Prop) : Except ScanError α → Prop
  | .ok a => Good a
  | .error e => ∃ offset, Bad e.fault offset ∧ e.location = locationAt source file offset

section

variable {α β : Type} {source : List Char} {file : String} {Bad : ScanFault → Nat → Prop}
  {Good : α → Prop} {x : Except ScanError α}

theorem Accounts.bind {Next : β → Prop} {f : α → Except ScanError β}
    (h : Accounts source file Bad Good x)
    (hNext : ∀ a, Good a → Accounts source file Bad Next (f a)) :
    Accounts source file Bad Next (x >>= f) := by
  cases x with
  | error e => exact h
  | ok a => exact hNext a h

theorem Accounts.ite {y : Except ScanError α} {p : Prop} [Decidable p]
    (hThen : p → Accounts source file Bad Good x) (hElse : ¬ p → Accounts source file Bad Good y) :
    Accounts source file Bad Good (if p then x else y) := by
  split
  · next h => exact hThen h
  · next h => exact hElse h

theorem Accounts.map {Next : β → Prop} {f : α → β} (h : Accounts source file Bad Good x)
    (hNext : ∀ a, Good a → Next (f a)) : Accounts source file Bad Next (x.map f) := by
  cases x with
  | error e => exact h
  | ok a => exact hNext a h

end

/-- A search that finds no closing bracket has missed none. -/
theorem unclosed_of_enclosed? {b : Brackets} {text : List Char}
    (h : enclosed? b 0 none text = none) : Unclosed b text := by
  rintro inner ⟨behind, rfl⟩ hEncloses
  have hFound := enclosed?_append hEncloses behind
  cases h.symm.trans hFound

end Source

namespace Cursor

open Source

/-- Whether one cursor comes to another over a text. -/
structure Moves (c : Cursor) (text : List Char) (after : Cursor) : Prop where
  after_eq : after = c.skip text.length
  rest_eq : c.rest = text ++ after.rest

variable {source text more behind : List Char} {c d after : Cursor}

theorem moves_of_rest (h : c.rest = text ++ behind) : c.Moves text (c.skip text.length) :=
  ⟨rfl, by rw [rest_skip_length h, h]⟩

theorem Moves.trans (h : c.Moves text d) (hMore : d.Moves more after) :
    c.Moves (text ++ more) after where
  after_eq := by rw [hMore.after_eq, h.after_eq, List.length_append, skip_add]
  rest_eq := by rw [h.rest_eq, hMore.rest_eq, List.append_assoc]

theorem moves_skipWhile (c : Cursor) (p : Char → Bool) :
    c.Moves (c.rest.takeWhile p) (c.skipWhile p) :=
  moves_of_rest List.takeWhile_append_dropWhile.symm

theorem Moves.follows (h : c.Moves text after) (hFollows : c.Follows source) :
    after.Follows source :=
  h.after_eq ▸ hFollows.skip _

theorem Moves.offset_eq (h : c.Moves text after) : after.offset = c.offset + text.length := by
  rw [h.after_eq, offset_skip_length h.rest_eq]

/-- What stands at the offset of the first cursor. -/
theorem Moves.drop_eq (h : c.Moves text after) (hFollows : c.Follows source) :
    source.drop c.offset = text ++ after.rest := by
  rw [← hFollows.rest_eq, h.rest_eq]

variable {kind : TokenKind}

theorem Follows.reported_token (h : c.Follows source) (file : String) (hKind : kind.atStart = false)
    (value : List Char) (n : Nat) : Reported source file (c.token file kind value n).1 := by
  have hPlace : (c.token file kind value n).1.place = (c.skip n).offset := by
    simp [Token.place, token, hKind]
  rw [Reported, hPlace]
  exact (h.skip n).location_eq file

theorem Follows.reported_tokenHere (h : c.Follows source) (file : String)
    (hKind : kind.atStart = true) (value : List Char) (n : Nat) :
    Reported source file (c.tokenHere file kind value n).1 := by
  have hPlace : (c.tokenHere file kind value n).1.place = c.offset := by
    simp [Token.place, tokenHere, hKind]
  rw [Reported, hPlace]
  exact h.location_eq file

end Cursor

namespace Source

open Cursor

/-- Whether what a step finds is reported by offsets, and the scanner goes on in the text. -/
structure Scanned.Reports (source : List Char) (file : String) (s : Scanned) : Prop where
  tokens : ∀ t ∈ s.tokens, Reported source file t
  cursor : s.cursor.Follows source

variable {source front : List Char} {file : String} {mode : ScanMode} {c d : Cursor}

theorem scanSingle_reports (h : c.Follows source) (file : String) {kind : TokenKind}
    (hKind : kind.atStart = true) (ch : Char) (mode : ScanMode) :
    (scanSingle file kind ch mode c).Reports source file :=
  ⟨List.forall_mem_singleton.mpr (h.reported_tokenHere file hKind _ _), h.skip 1⟩

theorem scanWord_reports (h : c.Follows source) (file : String) (mode : ScanMode) :
    (scanWord file mode c).Reports source file := by
  refine ⟨List.forall_mem_singleton.mpr (h.reported_token file ?_ _ _), h.skip _⟩
  split
  · next k hKeyword =>
    cases mode with
    | setup => exact Keyword.isControl_of_ofWord? hKeyword
    | markup => cases hKeyword
  · rfl

theorem scanString_accounts (h : c.Follows source) {quote : Char} (hQuote : isQuote quote = true)
    (hHead : c.rest.head? = some quote) (file : String) (mode : ScanMode) :
    Accounts source file (BreaksOff source mode c.offset) (Scanned.Reports source file)
      (scanString file quote mode c) := by
  obtain ⟨rest, hRest⟩ := List.head?_eq_some_iff.mp hHead
  unfold scanString
  split
  · next hOpen =>
    rw [hRest, List.drop_succ_cons, List.drop_zero] at hOpen
    refine ⟨source.length, .string hQuote (h.rest_eq ▸ hRest) hOpen, ?_⟩
    rw [← h.offset_finish]
    exact (h.skip _).location_eq file
  · exact ⟨List.forall_mem_singleton.mpr (h.reported_token file rfl _ _), h.skip _⟩

theorem scanComment_accounts (h : c.Follows source)
    (hStart : "<!--".toList.isPrefixOf c.rest = true) (file : String) :
    Accounts source file (BreaksOff source .markup c.offset) (Scanned.Reports source file)
      (scanComment file .markup c) := by
  obtain ⟨rest, hRest⟩ := List.isPrefixOf_iff_prefix.mp hStart
  have hDrop : c.rest.drop 4 = rest := by rw [← hRest]; rfl
  unfold scanComment
  rw [hDrop]
  split
  · next hNone =>
    refine ⟨c.offset, .comment rfl (h.rest_eq ▸ hRest.symm) ?_, h.location_eq file⟩
    rintro ⟨before, behind, hInfix⟩
    exact not_hasPart_of_splitFirst? hNone ⟨before, _, behind, hInfix.symm, rfl⟩
  · exact ⟨nofun, h.skip _⟩

theorem scanTag_accounts (h : c.Follows source) (hHead : c.rest.head? = some '<') (file : String)
    (mode : ScanMode) :
    Accounts source file (BreaksOff source mode c.offset) (Scanned.Reports source file)
      (scanTag file mode c) := by
  obtain ⟨rest, hRest⟩ := List.head?_eq_some_iff.mp hHead
  have hKind (tag : List Char) : (classifyTag tag).atStart = false := by
    rcases classifyTag_cases tag with h | h | h | h <;> rw [h] <;> rfl
  unfold scanTag
  dsimp only
  split
  · next hOpen =>
    have hAll := List.dropWhile_eq_nil_iff.mp hOpen
    refine ⟨source.length, .tag (h.rest_eq ▸ hRest) (fun hMem => ?_), ?_⟩
    · have hNot := hAll '>' (hRest ▸ List.mem_cons_of_mem _ hMem)
      simp at hNot
    · rw [← h.offset_finish]
      exact (h.skip _).location_eq file
  · have hTag := h.reported_token file (hKind (c.rest.takeWhile (· ≠ '>') ++ ['>']))
      (c.rest.takeWhile (· ≠ '>') ++ ['>']) ((c.rest.takeWhile (· ≠ '>')).length + 1)
    split
    · refine ⟨?_, (h.skip _).skip _⟩
      have hText : TokenKind.atStart .text = false := rfl
      have hContent := fun content : List Char => (h.skip ((c.rest.takeWhile (· ≠ '>')).length +
        1)).reported_token file hText content content.length
      dsimp only
      split
      · exact List.forall_mem_singleton.mpr hTag
      · exact List.forall_mem_cons.mpr ⟨hTag, List.forall_mem_singleton.mpr (hContent _)⟩
    · exact ⟨List.forall_mem_singleton.mpr hTag, h.skip _⟩

/-- A block behind what has been taken since an offset. -/
theorem scanBlock_accounts (mode : ScanMode) (h : d.Follows source) (hMoves : d.Moves front c)
    (hFront : front = [] ∧ mode = .setup ∨ ControlFront front)
    (hHead : c.rest.head? = some '\x7b') (file : String) :
    Accounts source file (BreaksOff source mode d.offset)
      (fun found => Reported source file found.1 ∧ found.2.Follows source)
      (scanBlock file mode c) := by
  obtain ⟨rest, hRest⟩ := List.head?_eq_some_iff.mp hHead
  have hFollows := hMoves.follows h
  unfold scanBlock
  split
  · next hOpen =>
    rw [hRest, List.drop_succ_cons, List.drop_zero] at hOpen
    have hText := hMoves.drop_eq h
    rw [hRest] at hText
    refine ⟨_, .block hFront hText (unclosed_of_enclosed? hOpen), ?_⟩
    rw [← hMoves.offset_eq]
    exact hFollows.location_eq file
  · exact ⟨hFollows.reported_token file rfl _ _, hFollows.skip _⟩

theorem scanOptionalBlock_accounts (h : d.Follows source) (hMoves : d.Moves front c)
    (hFront : ∀ blanks : List Char, blanks.all isSpace = true → ControlFront (front ++ blanks))
    (file : String) (mode : ScanMode) :
    Accounts source file (BreaksOff source mode d.offset)
      (fun found => (∀ t ∈ found.1, Reported source file t) ∧ found.2.Follows source)
      (scanOptionalBlock file mode c) := by
  have hBlanks := hMoves.trans (moves_skipWhile c isSpace)
  unfold scanOptionalBlock
  dsimp only
  split
  · next hHead =>
    have hBlock := scanBlock_accounts mode h hBlanks (.inr (hFront _ List.all_takeWhile))
      hHead file
    exact hBlock.map fun found hFound => ⟨List.forall_mem_singleton.mpr hFound.1, hFound.2⟩
  · exact ⟨nofun, hBlanks.follows h⟩

/-- The head of a control word, with what has been taken since the word began. -/
theorem scanHead_accounts {k : Keyword} (hWord : k = .ifBranch ∨ k = .eachItem)
    (h : d.Follows source) (hMoves : d.Moves k.text.toList c) {kind : TokenKind}
    (hKind : kind.atStart = false) (file : String) (mode : ScanMode) :
    Accounts source file (BreaksOff source mode d.offset)
      (fun found => Reported source file found.1 ∧ ∃ blanks head, blanks.all isSpace = true ∧
        Parenthesised head ∧ d.Moves (k.text.toList ++ blanks ++ head) found.2)
      (scanHead file k kind c) := by
  have hBlanks := hMoves.trans (moves_skipWhile c isSpace)
  have hFollows := hBlanks.follows h
  have hText := hBlanks.drop_eq h
  have hNext : ∀ ch ∈ (c.skipWhile isSpace).rest.head?, isSpace ch = false := by
    intro ch hCh
    obtain ⟨rest, hRest⟩ := List.head?_eq_some_iff.mp hCh
    rw [rest_skipWhile] at hRest
    exact of_dropWhile_eq_cons hRest
  unfold scanHead
  dsimp only
  generalize c.skipWhile isSpace = start at *
  split
  · next hHead =>
    obtain ⟨rest, hRest⟩ := List.head?_eq_some_iff.mp hHead
    rw [hRest] at hText
    split
    · next hOpen =>
      rw [hRest, List.drop_succ_cons, List.drop_zero] at hOpen
      refine ⟨_, .paren hWord List.all_takeWhile hText (unclosed_of_enclosed? hOpen), ?_⟩
      rw [← hBlanks.offset_eq]
      exact hFollows.location_eq file
    · next taken hTaken =>
      rw [hRest, List.drop_succ_cons, List.drop_zero] at hTaken
      obtain ⟨behind, rfl⟩ := enclosed?_prefix hTaken
      have hHead : start.Moves ('(' :: taken) (start.skip (taken.length + 1)) :=
        moves_of_rest (hRest.trans List.cons_append.symm)
      exact ⟨(hFollows.skip _).reported_token file hKind _ _, _, _, List.all_takeWhile,
        parenthesised_of_enclosed? hTaken, hBlanks.trans hHead⟩
  · next hOther =>
    refine ⟨_, .missing hWord List.all_takeWhile hText fun ch hCh => ⟨hNext ch hCh, ?_⟩, ?_⟩
    · rintro rfl
      exact hOther hCh
    · rw [← hBlanks.offset_eq]
      exact hFollows.location_eq file

/-- A control word with its head and its block. -/
theorem scanHeaded_accounts {k : Keyword} (hWord : k = .ifBranch ∨ k = .eachItem)
    (h : c.Follows source) {behind : List Char} (hRest : c.rest = k.text.toList ++ behind)
    {kind : TokenKind} (hKind : kind.atStart = false) (file : String) (mode : ScanMode) :
    Accounts source file (BreaksOff source mode c.offset) (Scanned.Reports source file)
      (scanHeaded file k kind mode c) := by
  have hMoves : c.Moves k.text.toList (scanKeyword file k c).2 := by
    have hWhole := moves_of_rest hRest
    rwa [String.length_toList] at hWhole
  have hKeyword : (TokenKind.keyword k).atStart = true := by
    obtain rfl | rfl := hWord <;> rfl
  unfold scanHeaded
  dsimp only
  refine (scanHead_accounts hWord h hMoves hKind file mode).bind ?_
  rintro ⟨head, middle⟩ ⟨hHead, blanks, text, hBlanks, hText, hMiddle⟩
  refine (scanOptionalBlock_accounts h hMiddle
    (fun behind hBehind => .headed hWord hBlanks hText hBehind) file mode).bind ?_
  rintro ⟨block, after⟩ ⟨hBlock, hAfter⟩
  refine ⟨?_, hAfter⟩
  exact List.forall_mem_cons.mpr ⟨h.reported_tokenHere file hKeyword _ _,
    List.forall_mem_cons.mpr ⟨hHead, hBlock⟩⟩

theorem scanElse_accounts (h : c.Follows source) {behind : List Char}
    (hRest : c.rest = Keyword.elseBranch.text.toList ++ behind) (file : String) (mode : ScanMode) :
    Accounts source file (BreaksOff source mode c.offset) (Scanned.Reports source file)
      (scanElse file mode c) := by
  have hMoves : c.Moves Keyword.elseBranch.text.toList (scanKeyword file .elseBranch c).2 := by
    have hWhole := moves_of_rest hRest
    rwa [String.length_toList] at hWhole
  unfold scanElse
  dsimp only
  refine (scanOptionalBlock_accounts h hMoves (fun _ => .alternative) file mode).bind ?_
  rintro ⟨block, after⟩ ⟨hBlock, hAfter⟩
  exact ⟨List.forall_mem_cons.mpr ⟨h.reported_tokenHere file rfl _ _, hBlock⟩, hAfter⟩

theorem scanAt_accounts (h : c.Follows source) (hHead : c.rest.head? = some '@') (file : String)
    (mode : ScanMode) :
    Accounts source file (BreaksOff source mode c.offset) (Scanned.Reports source file)
      (scanAt file mode c) := by
  obtain ⟨rest, hRest⟩ := List.head?_eq_some_iff.mp hHead
  unfold scanAt
  dsimp only
  rw [hRest, List.drop_succ_cons, List.drop_zero]
  by_cases hParen : rest.head? = some '('
  · rw [if_pos hParen]
    obtain ⟨inner, rfl⟩ := List.head?_eq_some_iff.mp hParen
    rw [List.drop_succ_cons, List.drop_zero]
    split
    · next hOpen =>
      exact ⟨c.offset, .reference (h.rest_eq ▸ hRest) (unclosed_of_enclosed? hOpen),
        h.location_eq file⟩
    · exact ⟨List.forall_mem_singleton.mpr (h.reported_token file rfl _ _), h.skip _⟩
  rw [if_neg hParen]
  by_cases hIf : atControlWord "if" rest = true
  · rw [if_pos hIf]
    obtain ⟨behind, hBehind⟩ := atControlWord_prefix hIf
    exact scanHeaded_accounts (.inl rfl) h (hRest.trans (congrArg _ hBehind)) rfl file mode
  rw [if_neg hIf]
  by_cases hElse : atControlWord "else" rest = true
  · rw [if_pos hElse]
    obtain ⟨behind, hBehind⟩ := atControlWord_prefix hElse
    exact scanElse_accounts h (hRest.trans (congrArg _ hBehind)) file mode
  rw [if_neg hElse]
  by_cases hEach : atControlWord "each" rest = true
  · rw [if_pos hEach]
    obtain ⟨behind, hBehind⟩ := atControlWord_prefix hEach
    exact scanHeaded_accounts (.inr rfl) h (hRest.trans (congrArg _ hBehind)) rfl file mode
  rw [if_neg hEach]
  split
  · exact ⟨List.forall_mem_singleton.mpr (h.reported_token file rfl _ _), h.skip _⟩
  · -- nothing has moved while a call was looked for
    exact scanSingle_reports h file rfl '@' mode

/-- What one step finds, and what it fails with, is reported by offsets. -/
theorem scanStep_accounts (h : c.Follows source) {ch : Char} (hHead : c.rest.head? = some ch)
    (file : String) (mode : ScanMode) :
    Accounts source file (BreaksOff source mode c.offset) (Scanned.Reports source file)
      (scanStep file mode ch c) := by
  unfold scanStep
  refine .ite (fun _ => scanSingle_reports h file rfl ch mode) fun _ => ?_
  refine .ite (fun _ => ⟨nofun, h.skip _⟩) fun _ => ?_
  refine .ite (fun hComment => ?_) fun _ => ?_
  · simp only [Bool.and_eq_true, decide_eq_true_eq] at hComment
    obtain ⟨rfl, hStart⟩ := hComment
    exact scanComment_accounts h hStart file
  refine .ite (fun _ => scanWord_reports h file mode) fun _ => ?_
  refine .ite (fun hQuote => ?_) fun _ => ?_
  · exact scanString_accounts h (Bool.and_eq_true_iff.mp hQuote).1 hHead file mode
  refine .ite (fun _ => scanSingle_reports h file rfl ch mode) fun _ => ?_
  refine .ite (fun _ => scanSingle_reports h file rfl ch mode) fun _ => ?_
  refine .ite (fun hTag => scanTag_accounts h (hTag ▸ hHead) file mode) fun _ => ?_
  refine .ite (fun hAt => scanAt_accounts h (hAt ▸ hHead) file mode) fun _ => ?_
  refine .ite (fun hBrace => ?_) fun _ => scanSingle_reports h file rfl ch mode
  simp only [Bool.and_eq_true, decide_eq_true_eq] at hBrace
  obtain ⟨rfl, rfl⟩ := hBrace
  have hHere : c.Moves [] c := ⟨rfl, rfl⟩
  refine (scanBlock_accounts _ h hHere (.inl ⟨rfl, rfl⟩) hHead file).bind ?_
  rintro ⟨token, after⟩ ⟨hToken, hAfter⟩
  exact ⟨List.forall_mem_singleton.mpr hToken, hAfter⟩

/-- The modes and cursors that a scan of a text comes to, step by step. -/
inductive Comes (file : String) (mode : ScanMode) (source : List Char) :
    ScanMode → Cursor → Prop where
  | start : Comes file mode source mode (.start source)
  | step {here : ScanMode} {c : Cursor} {ch : Char} {s : Scanned}
      (prior : Comes file mode source here c) (hHead : c.rest.head? = some ch)
      (hStep : scanStep file here ch c = .ok s) : Comes file mode source s.mode s.cursor

theorem Comes.follows {here : ScanMode} (h : Comes file mode source here c) :
    c.Follows source := by
  induction h with
  | start => exact follows_start source
  | @step here _ _ _ _ hHead hStep ih =>
      have hReports := scanStep_accounts ih hHead file here
      rw [hStep] at hReports
      exact hReports.cursor

/-- Where a scan that has come to an offset breaks off. -/
def ComesToBreak (file : String) (mode : ScanMode) (source : List Char) (fault : ScanFault)
    (offset : Nat) : Prop :=
  ∃ here c, Comes file mode source here c ∧ BreaksOff source here c.offset fault offset

theorem scanFrom_accounts {here : ScanMode} (h : Comes file mode source here c) :
    Accounts source file (ComesToBreak file mode source)
      (fun tokens => ∀ t ∈ tokens, Reported source file t) (scanFrom file here c) := by
  induction hLength : c.rest.length using Nat.strongRecOn generalizing c here with
  | ind length ih =>
      subst hLength
      rw [scanFrom.eq_def]
      split
      · exact List.forall_mem_nil _
      · next ch hHead =>
        have hStep := scanStep_accounts h.follows hHead file here
        split
        · next e hFound =>
          rw [hFound] at hStep
          obtain ⟨offset, hBreaks, hLocation⟩ := hStep
          exact ⟨offset, ⟨here, c, h, hBreaks⟩, hLocation⟩
        · next s hFound =>
          rw [hFound] at hStep
          have hRest := ih _ (scanStep_lt hHead hFound) (h.step hHead hFound) rfl
          refine hRest.map fun tokens hTokens => ?_
          exact List.forall_mem_append.mpr ⟨hStep.tokens, hTokens⟩

end Source

/-- Lines and columns depend on nothing but offsets. Wherever a scan comes to, and however many
characters the scanner then moves past, its line and column are those of its offset; every
token is reported at the beginning or at the end of its span, as its kind says; and every
error is reported where the text breaks off. -/
theorem Token.positions_of_offsets (mode : ScanMode) (source file : String) :
    (∀ here c, Source.Comes file mode source.toList here c →
      ∀ n, (c.skip n).Follows source.toList) ∧
    (∀ tokens, Token.scan mode source file = .ok tokens →
      ∀ t ∈ tokens, t.location = Source.locationAt source.toList file t.place) ∧
    (∀ e, Token.scan mode source file = .error e →
      ∃ offset, Source.ComesToBreak file mode source.toList e.fault offset ∧
        e.location = Source.locationAt source.toList file offset) := by
  have hStart : Source.Comes file mode source.toList mode (.start source.toList) := .start
  have hScan := Source.scanFrom_accounts hStart
  refine ⟨fun here c h n => h.follows.skip n, fun tokens h => ?_, fun e h => ?_⟩
  · rw [Token.scan] at h
    rwa [h] at hScan
  · rw [Token.scan] at h
    rwa [h] at hScan

/-- A call that is not closed, so that the scanner goes on behind its `@`, and a control word
without a parenthesis, which is missed a line further on. -/
theorem Token.positions_of_offsets_of_page :
    (∃ tokens, Token.scan .setup "serve (\n  @b(\nx" "page" = .ok tokens ∧
      tokens.map (fun t => (t.location.line, t.location.column)) =
        [(1, 6), (1, 6), (1, 7), (2, 1), (2, 2), (2, 3), (2, 4), (2, 6), (2, 6), (3, 1), (3, 2)] ∧
      ∀ t ∈ tokens,
        t.location = Source.locationAt "serve (\n  @b(\nx".toList "page" t.place) ∧
    ∃ e offset, Token.scan .setup "serve (\n@if\n x" "page" = .error e ∧
      e.location = ⟨"page", 3, 3⟩ ∧
      e.location = Source.locationAt "serve (\n@if\n x".toList "page" offset := by
  obtain ⟨-, hTokens, -⟩ := positions_of_offsets .setup "serve (\n  @b(\nx" "page"
  obtain ⟨-, -, hErrors⟩ := positions_of_offsets .setup "serve (\n@if\n x" "page"
  constructor
  · have hPlaces : ((Token.scan .setup "serve (\n  @b(\nx" "page").map (·.map fun t =>
        (t.location.line, t.location.column))).toOption = some [(1, 6), (1, 6), (1, 7), (2, 1),
          (2, 2), (2, 3), (2, 4), (2, 6), (2, 6), (3, 1), (3, 2)] := by decide +kernel
    cases hScan : Token.scan .setup "serve (\n  @b(\nx" "page" with
    | error e =>
        rw [hScan] at hPlaces
        cases hPlaces
    | ok tokens =>
        rw [hScan] at hPlaces
        exact ⟨tokens, rfl, Option.some.inj hPlaces, hTokens tokens hScan⟩
  · have hFails : Token.scan .setup "serve (\n@if\n x" "page" =
        .error ⟨.missingParen .ifBranch, ⟨"page", 3, 3⟩⟩ := by decide +kernel
    obtain ⟨offset, -, hLocation⟩ := hErrors _ hFails
    exact ⟨_, offset, hFails, rfl, hLocation⟩

end HtmlTemplate
