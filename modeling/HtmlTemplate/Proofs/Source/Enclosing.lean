import HtmlTemplate.Source.Lexeme
import Mathlib.Data.List.Induction

/-! Texts that brackets enclose as a whole. Such a text is passed over wherever it stands
outside of quoted texts, whatever brackets are open there and whatever follows. Characters that
are neither brackets nor quotes may be added at its end or taken away there. -/
namespace HtmlTemplate.Source

/-- Whether the bracket behind a text closes the one in front of it. -/
def Brackets.Encloses (b : Brackets) (text : List Char) : Prop :=
  enclosed? b 0 none (text ++ [b.closing]) = some (text ++ [b.closing])

instance (b : Brackets) (text : List Char) : Decidable (b.Encloses text) :=
  inferInstanceAs (Decidable (_ = _))

/-- A step of the search for a closing bracket: from a depth and a quote over some characters
to another depth and quote. -/
inductive Brackets.Step (b : Brackets) :
    Nat → Option Char → List Char → Nat → Option Char → Prop where
  | escaped (depth : Nat) (quote d : Char) :
      b.Step depth (some quote) ['\\', d] depth (some quote)
  | quoted (depth : Nat) (quote : Char) {c : Char} (h : c ≠ '\\') :
      b.Step depth (some quote) [c] depth (if c = quote then none else some quote)
  | quotes (depth : Nat) {c : Char} (h : (b.quoting && isQuote c) = true) :
      b.Step depth none [c] depth (some c)
  | opens (depth : Nat) (hQuote : ¬(b.quoting && isQuote b.opening) = true) :
      b.Step depth none [b.opening] (depth + 1) none
  | closes (depth : Nat) (hQuote : ¬(b.quoting && isQuote b.closing) = true)
      (hOther : b.closing ≠ b.opening) : b.Step (depth + 1) none [b.closing] depth none
  | plain (depth : Nat) {c : Char} (hQuote : ¬(b.quoting && isQuote c) = true)
      (hOpening : c ≠ b.opening) (hClosing : c ≠ b.closing) : b.Step depth none [c] depth none

section

variable {b : Brackets} {depth later : Nat} {quote next : Option Char} {front : List Char}

/-- More brackets that are open in front of a step stay open behind it. -/
theorem Brackets.Step.enclosed?_append (h : b.Step depth quote front later next) (extra : Nat)
    (behind : List Char) : enclosed? b (extra + depth) quote (front ++ behind) =
      (enclosed? b (extra + later) next behind).map (front ++ ·) := by
  cases h with
  | escaped =>
      rw [List.cons_append, List.cons_append, enclosed?.eq_def]
      rfl
  | quoted _ _ hOther =>
      rw [List.singleton_append, enclosed?.eq_def]
      simp only [hOther, ↓reduceIte]
      rfl
  | quotes _ hQuote =>
      rw [List.singleton_append, enclosed?.eq_def]
      simp only [hQuote, ↓reduceIte]
      rfl
  | opens _ hQuote =>
      rw [List.singleton_append, enclosed?.eq_def]
      simp only [hQuote, ↓reduceIte]
      rfl
  | closes _ hQuote hOther =>
      rw [List.singleton_append, enclosed?.eq_def]
      simp only [hQuote, hOther, ↓reduceIte]
      rfl
  | plain _ hQuote hOpening hClosing =>
      rw [List.singleton_append, enclosed?.eq_def]
      simp only [hQuote, hOpening, hClosing, ↓reduceIte]
      rfl

theorem Brackets.Step.isQuote_of_mem (h : b.Step depth quote front later next)
    (hQuote : ∀ q ∈ quote, isQuote q = true) : ∀ q ∈ next, isQuote q = true := by
  cases h with
  | escaped => exact hQuote
  | quoted =>
      split
      · simp
      · exact hQuote
  | quotes _ hOpens =>
      rintro q ⟨⟩
      exact (Bool.and_eq_true_iff.mp hOpens).2
  | opens | closes | plain => simp

/-- The search takes steps until the text is at its end or the bracket is found. -/
theorem Brackets.step_induction {motive : Nat → Option Char → List Char → Prop}
    (nil : ∀ depth quote, motive depth quote [])
    (backslash : ∀ depth quote, motive depth (some quote) ['\\'])
    (found : ∀ rest, ¬(b.quoting && isQuote b.closing) = true → b.closing ≠ b.opening →
      motive 0 none (b.closing :: rest))
    (step : ∀ {depth quote front later next} rest, b.Step depth quote front later next →
      motive later next rest → motive depth quote (front ++ rest))
    (depth : Nat) (quote : Option Char) (text : List Char) : motive depth quote text := by
  fun_induction enclosed? b depth quote text
  case case1 => exact nil _ _
  case case2 => exact backslash _ _
  case case3 rest ih => exact step rest (.escaped _ _ _) ih
  case case4 rest hOther ih => exact step rest (.quoted _ _ hOther) ih
  case case5 rest hQuote ih => exact step rest (.quotes _ hQuote) ih
  case case6 rest hQuote ih => exact step rest (.opens _ hQuote) ih
  case case7 rest hQuote hOther => exact found rest hQuote hOther
  case case8 rest depth hQuote hOther ih => exact step rest (.closes _ hQuote hOther) ih
  case case9 rest hQuote hOpening hClosing ih =>
      exact step rest (.plain _ hQuote hOpening hClosing) ih

theorem enclosed?_nil : enclosed? b depth quote [] = none := by
  cases quote <;> rfl

theorem enclosed?_closing (hQuote : ¬(b.quoting && isQuote b.closing) = true)
    (hOther : b.closing ≠ b.opening) (behind : List Char) :
    enclosed? b 0 none (b.closing :: behind) = some [b.closing] := by
  rw [enclosed?.eq_def]
  simp only [hQuote, hOther, ↓reduceIte]
  rfl

theorem Brackets.Step.enclosed?_self {rest : List Char} (h : b.Step depth quote front later next)
    (hClosed : enclosed? b depth quote (front ++ rest) = some (front ++ rest)) :
    enclosed? b later next rest = some rest := by
  have hStep := h.enclosed?_append 0 rest
  rw [Nat.zero_add, Nat.zero_add, hClosed] at hStep
  obtain ⟨taken, hTaken, hSame⟩ := Option.map_eq_some_iff.mp hStep.symm
  rwa [List.append_cancel_left hSame] at hTaken

end

/-- Whether the search for a closing bracket goes over a text and leaves off as it came,
with `opened` more brackets open in front of the text and `closed` more behind it. -/
def Brackets.PassesFrom (b : Brackets) (opened closed : Nat) (text : List Char) : Prop :=
  ∀ depth behind, enclosed? b (depth + opened) none (text ++ behind) =
    (enclosed? b (depth + closed) none behind).map (text ++ ·)

/-- Whether it leaves off with the brackets that were open in front of the text. -/
def Brackets.Passes (b : Brackets) (text : List Char) : Prop :=
  b.PassesFrom 0 0 text

section

variable {b : Brackets} {opened middle closed : Nat} {text more : List Char}

theorem passesFrom_nil : b.PassesFrom opened opened [] := by
  intro depth behind
  exact Option.map_id'.symm

theorem Brackets.PassesFrom.append (h : b.PassesFrom opened middle text)
    (hMore : b.PassesFrom middle closed more) : b.PassesFrom opened closed (text ++ more) := by
  intro depth behind
  rw [List.append_assoc, h, hMore, Option.map_map]
  congr 1
  funext taken
  exact (List.append_assoc text more taken).symm

theorem Brackets.Passes.deeper (h : b.Passes text) (opened : Nat) :
    b.PassesFrom opened opened text :=
  fun depth behind => h (depth + opened) behind

/-- Characters that are neither brackets nor quotes are passed over, -/
theorem passes_of_all
    (h : ∀ c ∈ text, isQuote c = false ∧ c ≠ b.opening ∧ c ≠ b.closing) : b.Passes text := by
  induction text with
  | nil => exact passesFrom_nil
  | cons c rest ih =>
      obtain ⟨⟨hQuote, hOpening, hClosing⟩, hRest⟩ := List.forall_mem_cons.mp h
      have hFirst : b.PassesFrom 0 0 [c] :=
        (Brackets.Step.plain 0 (by simp [hQuote]) hOpening hClosing).enclosed?_append
      exact hFirst.append (ih hRest)

/-- an opening bracket is one more, -/
theorem passesFrom_opening (hQuote : isQuote b.opening = false) :
    b.PassesFrom 0 1 [b.opening] :=
  (Brackets.Step.opens 0 (by simp [hQuote])).enclosed?_append

/-- and a closing bracket is one less. -/
theorem passesFrom_closing (hQuote : isQuote b.closing = false) (hOther : b.closing ≠ b.opening) :
    b.PassesFrom 1 0 [b.closing] :=
  (Brackets.Step.closes 0 (by simp [hQuote]) hOther).enclosed?_append

theorem Brackets.Passes.encloses (h : b.Passes text) (hQuote : isQuote b.closing = false)
    (hOther : b.closing ≠ b.opening) : b.Encloses text := by
  have hText := h 0 [b.closing]
  rwa [Nat.add_zero, enclosed?_closing (by simp [hQuote]) hOther] at hText

/-- Whether a text ends with the bracket that is found from its beginning, and the text in
front of that bracket is passed over. -/
def Brackets.PassesTo (b : Brackets) (depth : Nat) (quote : Option Char) (whole : List Char) :
    Prop :=
  ∃ text, whole = text ++ [b.closing] ∧ ∀ extra behind,
    enclosed? b (extra + depth) quote (text ++ behind) =
      (enclosed? b extra none behind).map (text ++ ·)

theorem passesTo_of_enclosed? {depth : Nat} {quote : Option Char} {whole : List Char}
    (h : enclosed? b depth quote whole = some whole) : b.PassesTo depth quote whole := by
  induction depth, quote, whole using b.step_induction with
  | nil =>
      rw [enclosed?_nil] at h
      cases h
  | backslash => cases h
  | found rest hQuote hOther =>
      rw [enclosed?_closing hQuote hOther] at h
      cases h
      exact ⟨[], rfl, fun extra behind => Option.map_id'.symm⟩
  | step rest hStep ih =>
      obtain ⟨text, rfl, hText⟩ := ih (hStep.enclosed?_self h)
      refine ⟨_ ++ text, (List.append_assoc _ _ _).symm, fun extra behind => ?_⟩
      rw [List.append_assoc, hStep.enclosed?_append, hText, Option.map_map]
      congr 1
      funext taken
      exact (List.append_assoc _ text taken).symm

/-- A text that brackets enclose is passed over. -/
theorem Brackets.Encloses.passes (h : b.Encloses text) : b.Passes text := by
  obtain ⟨inner, hSame, hInner⟩ := passesTo_of_enclosed? h
  obtain rfl := (List.append_inj' hSame rfl).1
  exact hInner

end

section

variable {b : Brackets} {depth : Nat} {quote : Option Char} {text plain : List Char}

/-- A quoted text does not end where no quote is. -/
theorem enclosed?_unquoted {q : Char} (hQuote : isQuote q = true)
    (hText : ∀ c ∈ text, isQuote c = false) : enclosed? b depth (some q) text = none := by
  induction text using List.twoStepInduction with
  | nil => rfl
  | singleton c =>
      have hOther : c ≠ q := by
        rintro rfl
        exact absurd hQuote (by simp [hText c])
      rw [enclosed?.eq_def]
      simp only [hOther, if_false]
      split <;> rfl
  | cons_cons c d rest ihRest ihTail =>
      have hOther : c ≠ q := by
        rintro rfl
        exact absurd hQuote (by simp [hText c])
      rw [enclosed?.eq_def]
      simp only [hOther, if_false]
      split
      · rw [ihRest fun e hMem => hText e (by simp [hMem])]
        rfl
      · rw [ihTail d fun e hMem => hText e (by simp_all)]
        rfl

/-- Characters that are neither brackets nor quotes do not matter in front of the bracket that
closes. -/
theorem Brackets.closed_of_plain (hQuote : ∀ q ∈ quote, isQuote q = true)
    (hClosing : isQuote b.closing = false)
    (hPlain : ∀ c ∈ plain, isQuote c = false ∧ c ≠ b.opening ∧ c ≠ b.closing)
    (h : enclosed? b depth quote (text ++ (plain ++ [b.closing])) =
      some (text ++ (plain ++ [b.closing]))) :
    enclosed? b depth quote (text ++ [b.closing]) = some (text ++ [b.closing]) := by
  have hUnquoted : ∀ c ∈ plain ++ [b.closing], isQuote c = false := by
    intro c hMem
    obtain hMem | hMem := List.mem_append.mp hMem
    · exact (hPlain c hMem).1
    · rwa [List.mem_singleton.mp hMem]
  induction depth, quote, text using b.step_induction with
  | nil depth quote =>
      cases quote with
      | none =>
          have hLast := passes_of_all hPlain depth [b.closing]
          rw [Nat.add_zero] at hLast
          rw [List.nil_append, hLast] at h
          obtain ⟨taken, hTaken, hSame⟩ := Option.map_eq_some_iff.mp h
          rwa [List.append_cancel_left hSame] at hTaken
      | some q =>
          rw [List.nil_append, enclosed?_unquoted (hQuote q rfl) hUnquoted] at h
          cases h
  | backslash depth q =>
      -- the backslash takes the character behind it along, and no quote follows
      obtain ⟨c, rest, hRest⟩ := List.exists_cons_of_ne_nil (l := plain ++ [b.closing]) (by simp)
      rw [hRest] at hUnquoted h
      rw [List.singleton_append, enclosed?.eq_def] at h
      simp only [↓reduceIte] at h
      rw [enclosed?_unquoted (hQuote q rfl) fun d hMem => hUnquoted d (List.mem_cons_of_mem _ hMem)]
        at h
      cases h
  | found rest hQuoting hOther =>
      rw [List.cons_append, enclosed?_closing hQuoting hOther] at h
      simp at h
  | step rest hStep ih =>
      rw [List.append_assoc] at h ⊢
      have hRest := hStep.enclosed?_append 0 (rest ++ [b.closing])
      rw [Nat.zero_add, Nat.zero_add, ih (hStep.isQuote_of_mem hQuote) (hStep.enclosed?_self h)] at hRest
      exact hRest

theorem Brackets.encloses_append_plain (hClosing : isQuote b.closing = false)
    (hOther : b.closing ≠ b.opening)
    (hPlain : ∀ c ∈ plain, isQuote c = false ∧ c ≠ b.opening ∧ c ≠ b.closing) :
    b.Encloses (text ++ plain) ↔ b.Encloses text := by
  constructor
  · intro h
    unfold Brackets.Encloses at h
    rw [List.append_assoc] at h
    exact b.closed_of_plain (by simp) hClosing hPlain h
  · intro h
    exact Brackets.Passes.encloses (h.passes.append (passes_of_all hPlain)) hClosing hOther

end

end HtmlTemplate.Source
