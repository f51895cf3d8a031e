import HtmlTemplate.Source.Scanner
/-!
The token stream of a source text: the scanner's steps repeated to the end.
`Source.scanStep_lt` says that each step leaves less text, which is why the stream
ends.
-/
namespace HtmlTemplate

namespace Source

theorem scanBlock_le {file : String} {mode : ScanMode} {c after : Cursor} {token : Token}
    (h : scanBlock file mode c = .ok (token, after)) : after.rest.length ≤ c.rest.length := by
  unfold scanBlock at h
  split at h
  · simp at h
  · simp only [Cursor.token, Except.ok.injEq, Prod.mk.injEq] at h
    rw [← h.2]
    exact Cursor.length_skip_le _ _

theorem scanBlock_lt {file : String} {mode : ScanMode} {c after : Cursor} {token : Token}
    (some : c.rest ≠ []) (h : scanBlock file mode c = .ok (token, after)) :
    after.rest.length < c.rest.length := by
  unfold scanBlock at h
  split at h
  · simp at h
  · simp only [Cursor.token, Except.ok.injEq, Prod.mk.injEq] at h
    rw [← h.2]
    exact Cursor.length_skip_lt some (Nat.succ_pos _)

theorem scanOptionalBlock_le {file : String} {mode : ScanMode} {c after : Cursor}
    {tokens : List Token} (h : scanOptionalBlock file mode c = .ok (tokens, after)) :
    after.rest.length ≤ c.rest.length := by
  have spaces := c.length_skipWhile_le isSpace
  simp only [scanOptionalBlock] at h
  split at h
  · cases block : scanBlock file mode (c.skipWhile isSpace) with
    | error e => simp [block, Except.map] at h
    | ok found =>
      obtain ⟨token, last⟩ := found
      simp only [block, Except.map, Except.ok.injEq, Prod.mk.injEq] at h
      have := scanBlock_le block
      rw [← h.2]
      omega
  · simp only [Except.ok.injEq, Prod.mk.injEq] at h
    rw [← h.2]
    exact spaces

theorem scanHead_le {file : String} {keyword : Keyword} {kind : TokenKind} {c after : Cursor}
    {token : Token} (h : scanHead file keyword kind c = .ok (token, after)) :
    after.rest.length ≤ c.rest.length := by
  have spaces := c.length_skipWhile_le isSpace
  simp only [scanHead] at h
  split at h
  · split at h
    · simp at h
    · next taken _ =>
      simp only [Cursor.token, Except.ok.injEq, Prod.mk.injEq] at h
      have := (c.skipWhile isSpace).length_skip_le (taken.length + 1)
      have := ((c.skipWhile isSpace).skip (taken.length + 1)).length_skip_le 0
      rw [← h.2]
      omega
  · simp at h

theorem scanKeyword_lt {file : String} {keyword : Keyword} {c : Cursor} (some : c.rest ≠ []) :
    (scanKeyword file keyword c).2.rest.length < c.rest.length :=
  Cursor.length_skip_lt some (by cases keyword <;> decide)

theorem scanHeaded_lt {file : String} {keyword : Keyword} {kind : TokenKind} {mode : ScanMode}
    {c : Cursor} {s : Scanned} (some : c.rest ≠ [])
    (h : scanHeaded file keyword kind mode c = .ok s) : s.cursor.rest.length < c.rest.length := by
  have first := @scanKeyword_lt file keyword c some
  unfold scanHeaded at h
  cases head : scanHead file keyword kind (scanKeyword file keyword c).2 with
  | error e => simp [head, bind, Except.bind] at h
  | ok found =>
    obtain ⟨token, middle⟩ := found
    cases block : scanOptionalBlock file mode middle with
    | error e => simp [head, block, bind, Except.bind] at h
    | ok found =>
      obtain ⟨tokens, last⟩ := found
      simp only [head, block, bind, Except.bind, pure, Except.pure, Except.ok.injEq] at h
      have := scanHead_le head
      have := scanOptionalBlock_le block
      rw [← h]
      simp only
      omega

theorem scanElse_lt {file : String} {mode : ScanMode} {c : Cursor} {s : Scanned}
    (some : c.rest ≠ []) (h : scanElse file mode c = .ok s) :
    s.cursor.rest.length < c.rest.length := by
  have first := @scanKeyword_lt file .elseBranch c some
  unfold scanElse at h
  cases block : scanOptionalBlock file mode (scanKeyword file .elseBranch c).2 with
  | error e => simp [block, bind, Except.bind] at h
  | ok found =>
    obtain ⟨tokens, last⟩ := found
    simp only [block, bind, Except.bind, pure, Except.pure, Except.ok.injEq] at h
    have := scanOptionalBlock_le block
    rw [← h]
    simp only
    omega

theorem scanTag_lt {file : String} {mode : ScanMode} {c : Cursor} {s : Scanned}
    (some : c.rest ≠ []) (h : scanTag file mode c = .ok s) :
    s.cursor.rest.length < c.rest.length := by
  have first (n : Nat) : (c.skip (n + 1)).rest.length < c.rest.length :=
    Cursor.length_skip_lt some (Nat.succ_pos n)
  simp only [scanTag, Cursor.token] at h
  split at h
  · simp at h
  · split at h
    · rw [← Except.ok.inj h]
      exact Nat.lt_of_le_of_lt (Cursor.length_skip_le _ _) (first _)
    · rw [← Except.ok.inj h]
      exact first _

theorem scanWord_lt {file : String} {mode : ScanMode} {c : Cursor} {ch : Char}
    (head : c.rest.head? = some ch) (word : isWordChar ch = true) :
    (scanWord file mode c).cursor.rest.length < c.rest.length := by
  obtain ⟨rest, offset, line, column⟩ := c
  match rest, head with
  | _ :: rest, rfl =>
    exact Cursor.length_skip_lt (by simp) (by simp [word])

theorem scanString_lt {file : String} {quote : Char} {mode : ScanMode} {c : Cursor} {s : Scanned}
    (some : c.rest ≠ []) (h : scanString file quote mode c = .ok s) :
    s.cursor.rest.length < c.rest.length := by
  simp only [scanString, Cursor.token] at h
  split at h
  · simp at h
  · rw [← Except.ok.inj h]
    exact Cursor.length_skip_lt some (Nat.succ_pos _)

theorem scanComment_lt {mode : ScanMode} {file : String} {c : Cursor} {s : Scanned}
    (some : c.rest ≠ []) (h : scanComment file mode c = .ok s) :
    s.cursor.rest.length < c.rest.length := by
  unfold scanComment at h
  split at h
  · simp at h
  · rw [← Except.ok.inj h]
    exact Cursor.length_skip_lt some (Nat.succ_pos _)

theorem scanSingle_lt {file : String} {kind : TokenKind} {ch : Char} {mode : ScanMode} {c : Cursor}
    (some : c.rest ≠ []) : (scanSingle file kind ch mode c).cursor.rest.length < c.rest.length :=
  Cursor.length_skip_lt some Nat.one_pos

theorem scanAt_lt {file : String} {mode : ScanMode} {c : Cursor} {s : Scanned}
    (some : c.rest ≠ []) (h : scanAt file mode c = .ok s) :
    s.cursor.rest.length < c.rest.length := by
  simp only [scanAt, Cursor.token] at h
  split at h
  · split at h
    · simp at h
    · rw [← Except.ok.inj h]
      exact Cursor.length_skip_lt some (Nat.succ_pos _)
  · split at h
    · exact scanHeaded_lt some h
    · split at h
      · exact scanElse_lt some h
      · split at h
        · exact scanHeaded_lt some h
        · split at h
          · rw [← Except.ok.inj h]
            exact Cursor.length_skip_lt some (Nat.succ_pos _)
          · rw [← Except.ok.inj h]
            exact scanSingle_lt some

/-- Each step of the scanner leaves less text than it found. -/
theorem scanStep_lt {file : String} {mode : ScanMode} {ch : Char} {c : Cursor} {s : Scanned}
    (head : c.rest.head? = some ch) (h : scanStep file mode ch c = .ok s) :
    s.cursor.rest.length < c.rest.length := by
  have some : c.rest ≠ [] := by
    intro empty
    simp [empty] at head
  unfold scanStep at h
  split at h
  · rw [← Except.ok.inj h]; exact scanSingle_lt some
  split at h
  · rw [← Except.ok.inj h]; exact Cursor.length_skip_lt some (Nat.succ_pos _)
  split at h
  · exact scanComment_lt some h
  split at h
  · next word => rw [← Except.ok.inj h]; exact scanWord_lt head word
  split at h
  · exact scanString_lt some h
  split at h
  · rw [← Except.ok.inj h]; exact scanSingle_lt some
  split at h
  · rw [← Except.ok.inj h]; exact scanSingle_lt some
  split at h
  · exact scanTag_lt some h
  split at h
  · exact scanAt_lt some h
  split at h
  · cases block : scanBlock file mode c with
    | error e => simp [block, bind, Except.bind] at h
    | ok found =>
      simp only [block, bind, Except.bind, pure, Except.pure, Except.ok.injEq] at h
      rw [← h]
      exact scanBlock_lt some block
  · rw [← Except.ok.inj h]; exact scanSingle_lt some

/-- The tokens from the cursor to the end of the text. -/
def scanFrom (file : String) (mode : ScanMode) (c : Cursor) : Except ScanError (List Token) :=
  match _head : c.rest.head? with
  | none => .ok []
  | some ch =>
    match _step : scanStep file mode ch c with
    | .error e => .error e
    | .ok s => (scanFrom file s.mode s.cursor).map (s.tokens ++ ·)
termination_by c.rest.length
decreasing_by exact scanStep_lt _head _step

end Source

/-- The tokens of a text that begins in `mode`. -/
def Token.scan (mode : ScanMode) (source file : String) : Except ScanError (List Token) :=
  Source.scanFrom file mode (.start source.toList)

/-- The tokens of a whole template, which begins with setup statements. -/
def Token.scanTemplate (source file : String) : Except ScanError (List Token) :=
  Token.scan .setup source file

/-- The tokens of a piece of markup, such as the block of a branch or loop. -/
def Token.scanMarkup (source file : String) : Except ScanError (List Token) :=
  Token.scan .markup source file

end HtmlTemplate
