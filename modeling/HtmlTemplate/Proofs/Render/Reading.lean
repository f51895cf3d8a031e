import HtmlTemplate.Render.Step

/-! Laws of readings: how one that goes on with another succeeds, and that what it
found it found among the tokens it was given. -/
namespace HtmlTemplate

namespace Reading

section

variable {α β : Type} {m : Reading α} {f g : α → Reading β} {tokens : List Token} {a : α} {b : β}

theorem bind_eq (m : Reading α) (f : α → Reading β) : m >>= f = Reading.bind m f := rfl

theorem bind_value_eq_ok :
    ((m >>= f) tokens).value = .ok b ↔
      ∃ a, (m tokens).value = .ok a ∧ (f a (m tokens).rest).value = .ok b := by
  rw [bind_eq]
  unfold Reading.bind
  cases hFirst : (m tokens).value with
  | error e => simp [hFirst]
  | ok a => simp [hFirst]

/-- Two readings that go on alike with whatever the first part finds are alike. -/
theorem bind_congr
    (h : ∀ a, (m tokens).value = .ok a → f a (m tokens).rest = g a (m tokens).rest) :
    (m >>= f) tokens = (m >>= g) tokens := by
  rw [bind_eq, bind_eq]
  unfold Reading.bind
  cases hFirst : (m tokens).value with
  | error e => simp [hFirst]
  | ok a => simp [hFirst, h a hFirst]

end

/-- A reading finds a value and leaves some of the tokens. -/
def Finds {α : Type} (m : Reading α) (tokens : List Token) (a : α) (behind : List Token) : Prop :=
  (m tokens).value = .ok a ∧ (m tokens).rest = behind

theorem Finds.bind {α β : Type} {m : Reading α} {f : α → Reading β} {a : α} {b : β}
    {tokens middle behind : List Token} (h : m.Finds tokens a middle)
    (hNext : (f a).Finds middle b behind) : (m >>= f).Finds tokens b behind := by
  obtain ⟨hValue, rfl⟩ := h
  unfold Finds
  rw [bind_eq]
  unfold Reading.bind
  simp only [hValue]
  exact hNext

theorem Finds.ofExcept {α : Type} {result : Except RenderError α} {a : α} {tokens : List Token}
    (h : result = .ok a) : (Reading.ofExcept result).Finds tokens a tokens :=
  ⟨h, rfl⟩

/-- Blanks in front of the token that is expected are passed over. -/
theorem Finds.expect_of_dropBlanks {endAt : Location} {kind : TokenKind}
    {expectation : Expectation} {token : Token} {tokens rest : List Token}
    (hLeft : dropBlanks tokens = token :: rest) (hKind : token.kind = kind) :
    (Reading.expect endAt kind expectation).Finds tokens token rest := by
  unfold Finds Reading.expect
  split
  · next hNone => cases hNone.symm.trans hLeft
  · next hFound =>
    cases hFound.symm.trans hLeft
    simp [hKind]

theorem Finds.expect {endAt : Location} {kind : TokenKind} {expectation : Expectation}
    {token : Token} {rest : List Token} (hKind : token.kind = kind) (hBlank : kind ≠ .blank) :
    (Reading.expect endAt kind expectation).Finds (token :: rest) token rest :=
  .expect_of_dropBlanks (by simp [dropBlanks, hKind, hBlank]) hKind

/-- A reading fails and leaves some of the tokens. -/
def Breaks {α : Type} (m : Reading α) (tokens : List Token) (e : RenderError)
    (behind : List Token) : Prop :=
  (m tokens).value = .error e ∧ (m tokens).rest = behind

section

variable {α β : Type} {m : Reading α} {f : α → Reading β} {a : α} {e : RenderError}
  {tokens middle behind : List Token}

theorem Breaks.bind (h : m.Breaks tokens e behind) : (m >>= f).Breaks tokens e behind := by
  obtain ⟨hValue, rfl⟩ := h
  unfold Breaks
  rw [bind_eq]
  unfold Reading.bind
  simp [hValue]

theorem Finds.breaks (h : m.Finds tokens a middle) (hNext : (f a).Breaks middle e behind) :
    (m >>= f).Breaks tokens e behind := by
  obtain ⟨hValue, rfl⟩ := h
  unfold Breaks
  rw [bind_eq]
  unfold Reading.bind
  simp only [hValue]
  exact hNext

end

theorem mem_of_mem_dropBlanks {t : Token} {tokens : List Token} (h : t ∈ dropBlanks tokens) :
    t ∈ tokens :=
  (dropBlanks_suffix tokens).subset h

/-- A token that is taken is of the kind that was expected and was among the tokens. -/
theorem expect_value_eq_ok {endAt : Location} {kind : TokenKind} {expectation : Expectation}
    {tokens : List Token} {t : Token}
    (h : (expect endAt kind expectation tokens).value = .ok t) :
    t.kind = kind ∧ t ∈ tokens := by
  unfold expect at h
  split at h
  · cases h
  · next token rest hLeft =>
    dsimp only at h
    split at h
    · next hKind =>
      cases h
      exact ⟨hKind, mem_of_mem_dropBlanks (hLeft ▸ List.mem_cons_self)⟩
    · cases h

/-- What a reading leaves was among its tokens. -/
theorem mem_of_mem_rest {α : Type} {m : Reading α} {tokens : List Token} {t : Token}
    (h : t ∈ (m tokens).rest) : t ∈ tokens :=
  (m tokens).forward.subset h

end Reading

/-- An alternative that is found stands among the tokens. -/
theorem splitElse_eq_some {tokens : List Token} {source : String}
    (h : (splitElse tokens).1 = some source) :
    ∃ t ∈ tokens, t.kind = .block ∧ t.value = source := by
  unfold splitElse at h
  split at h
  · cases h
  · next token rest hLeft =>
    split at h
    · split at h
      · cases h
      · next block after hBlock =>
        split at h
        · next hKind =>
          cases h
          have hRest : block ∈ rest :=
            Reading.mem_of_mem_dropBlanks (hBlock ▸ List.mem_cons_self)
          have hMem : block ∈ dropBlanks tokens := hLeft ▸ List.mem_cons_of_mem _ hRest
          exact ⟨block, Reading.mem_of_mem_dropBlanks hMem, hKind, rfl⟩
        · cases h
    · cases h

/-- A branch asks for nothing or for a block among its tokens. -/
theorem readBranch_eq_ok {session : Session} {context : Context} {endAt : Location}
    {keyword : Token} {tokens : List Token} {action : Action}
    (h : (readBranch session context endAt keyword tokens).value = .ok action) :
    action = .emit [] ∨
    ∃ t ∈ tokens, t.kind = .block ∧ action = .run (.block t.value) keyword := by
  unfold readBranch at h
  obtain ⟨condition, -, h⟩ := Reading.bind_value_eq_ok.mp h
  obtain ⟨holds, -, h⟩ := Reading.bind_value_eq_ok.mp h
  obtain ⟨block, hBlock, h⟩ := Reading.bind_value_eq_ok.mp h
  obtain ⟨alternative, hElse, h⟩ := Reading.bind_value_eq_ok.mp h
  obtain ⟨hKind, hMem⟩ := Reading.expect_value_eq_ok hBlock
  have hBack {t : Token} (ht : t ∈ (Reading.expect endAt .condition .condition tokens).rest) :
      t ∈ tokens := Reading.mem_of_mem_rest ht
  cases holds with
  | true =>
      cases h
      exact .inr ⟨block, hBack hMem, hKind, rfl⟩
  | false =>
      cases alternative with
      | none =>
          cases h
          exact .inl rfl
      | some source =>
          cases h
          obtain ⟨t, ht, hBlockKind, rfl⟩ := splitElse_eq_some (Except.ok.inj hElse)
          exact .inr ⟨t, hBack (Reading.mem_of_mem_rest ht), hBlockKind, rfl⟩

/-- A loop asks for a block among its tokens, under a head read from one of them. -/
theorem readLoop_eq_ok {context : Context} {endAt : Location} {keyword : Token}
    {tokens : List Token} {action : Action}
    (h : (readLoop context endAt keyword tokens).value = .ok action) :
    ∃ t ∈ tokens, ∃ head, context.loopHead t = .ok head ∧
      ∃ block ∈ tokens, block.kind = .block ∧ action = .run (.loop head block.value) keyword := by
  unfold readLoop at h
  obtain ⟨token, hToken, h⟩ := Reading.bind_value_eq_ok.mp h
  obtain ⟨head, hHead, h⟩ := Reading.bind_value_eq_ok.mp h
  obtain ⟨block, hBlock, h⟩ := Reading.bind_value_eq_ok.mp h
  obtain ⟨hKind, hMem⟩ := Reading.expect_value_eq_ok hBlock
  cases h
  exact ⟨token, (Reading.expect_value_eq_ok hToken).2, head, hHead, block,
    Reading.mem_of_mem_rest hMem, hKind, rfl⟩

/-- Branches are read alike where their conditions mean the same. -/
theorem readBranch_congr {session other : Session} {context changed : Context}
    {tokens : List Token} (endAt : Location) (keyword : Token)
    (h : ∀ t ∈ tokens, t.kind = .condition →
      context.conditionHolds session t.value = changed.conditionHolds other t.value) :
    readBranch session context endAt keyword tokens =
      readBranch other changed endAt keyword tokens := by
  unfold readBranch
  apply Reading.bind_congr
  intro condition hCondition
  obtain ⟨hKind, hMem⟩ := Reading.expect_value_eq_ok hCondition
  rw [h condition hMem hKind]

/-- Loops are read alike where their heads mean the same. -/
theorem readLoop_congr {context changed : Context} {tokens : List Token} (endAt : Location)
    (keyword : Token)
    (h : ∀ t ∈ tokens, t.kind = .each → context.loopHead t = changed.loopHead t) :
    readLoop context endAt keyword tokens = readLoop changed endAt keyword tokens := by
  unfold readLoop
  apply Reading.bind_congr
  intro token hToken
  obtain ⟨hKind, hMem⟩ := Reading.expect_value_eq_ok hToken
  rw [h token hMem hKind]

end HtmlTemplate
