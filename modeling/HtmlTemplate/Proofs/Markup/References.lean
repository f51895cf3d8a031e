import Mathlib.Data.List.TakeWhile
import HtmlTemplate.Proofs.Data.Paths
import HtmlTemplate.Proofs.Raw.Forgery
import HtmlTemplate.Proofs.Source.Pieces

/-! Where references end. The scanner counts parentheses and takes a reference up to the one
that closes it; substitution takes it up to the first closing parenthesis. The two agree
exactly on references without parentheses inside, whatever quotes stand around them. -/
namespace HtmlTemplate

namespace Source

variable {file : String} {mode : ScanMode} {c : Cursor} {s : Scanned}

/-- The text of a reference: what stands behind its first parenthesis ends with the
parenthesis that closes it. -/
def IsReference (text : List Char) : Prop :=
  ∃ taken, text = '@' :: '(' :: taken ∧ enclosed? plainParens 0 none taken = some taken

/-- Tokens whose references are references. -/
def References (tokens : List Token) : Prop :=
  ∀ t ∈ tokens, t.kind = .reference → IsReference t.value.toList

theorem references_nil : References [] :=
  List.forall_mem_nil _

theorem references_cons {t : Token} {rest : List Token} :
    References (t :: rest) ↔ (t.kind = .reference → IsReference t.value.toList) ∧ References rest :=
  List.forall_mem_cons

theorem references_append {tokens rest : List Token} :
    References (tokens ++ rest) ↔ References tokens ∧ References rest :=
  List.forall_mem_append

/-- A token of another kind. -/
theorem references_single {t : Token} (h : t.kind ≠ .reference) : References [t] :=
  references_cons.mpr ⟨fun hKind => absurd hKind h, references_nil⟩

theorem references_scanOptionalBlock {tokens : List Token} {after : Cursor}
    (h : scanOptionalBlock file mode c = .ok (tokens, after)) : References tokens := by
  obtain ⟨rfl, -⟩ | ⟨token, rfl, -, hBlock⟩ := scanOptionalBlock_cases h
  · exact references_nil
  · exact references_single (by rw [scanBlock_kind hBlock]; exact TokenKind.noConfusion)

theorem classifyTag_ne_reference (tag : List Char) : classifyTag tag ≠ .reference := by
  rcases classifyTag_cases tag with h | h | h | h <;> rw [h] <;> exact TokenKind.noConfusion

theorem references_scanWord : References (scanWord file mode c).tokens := by
  unfold scanWord
  dsimp only
  generalize (if mode = .setup then Keyword.ofWord? _ else none) = keyword?
  cases keyword? with
  | none => exact references_single TokenKind.noConfusion
  | some keyword => exact references_single TokenKind.noConfusion

theorem references_scanStep {ch : Char} (hHead : c.rest.head? = some ch)
    (h : scanStep file mode ch c = .ok s) : References s.tokens := by
  cases stepped_of_scanStep hHead h with
  | single hKind => exact references_single (hKind.ne id)
  | line | comment => exact references_nil
  | word => exact references_scanWord
  | string | call | sigil => exact references_single TokenKind.noConfusion
  | tag => exact references_single (classifyTag_ne_reference _)
  | raw _ _ _ _ hTexts =>
      refine references_cons.mpr ⟨fun hKind => absurd hKind (classifyTag_ne_reference _), ?_⟩
      rw [hTexts]
      split
      · exact references_nil
      · exact references_single TokenKind.noConfusion
  | @reference rest taken _ hTaken =>
      refine references_cons.mpr ⟨fun _ => ⟨taken, String.toList_ofList, ?_⟩, references_nil⟩
      simpa using enclosed?_append hTaken []
  | headed hWord _ hFound hBlock =>
      refine references_cons.mpr ⟨TokenKind.noConfusion, references_cons.mpr
        ⟨fun hKind => ?_, references_scanOptionalBlock hBlock⟩⟩
      rw [scanHead_kind hFound] at hKind
      obtain ⟨-, rfl⟩ | ⟨-, rfl⟩ := hWord <;> cases hKind
  | alternative _ hBlock =>
      exact references_cons.mpr ⟨TokenKind.noConfusion, references_scanOptionalBlock hBlock⟩
  | block _ _ hBlock =>
      exact references_single (by rw [scanBlock_kind hBlock]; exact TokenKind.noConfusion)

theorem references_scanFrom {tokens : List Token} (h : scanFrom file mode c = .ok tokens) :
    References tokens := by
  refine scanFrom_induction (motive := fun _ _ tokens => References tokens)
    (fun _ _ _ => references_nil) ?_ h
  intro mode c ch s rest hHead hStep _ ih
  exact references_append.mpr ⟨references_scanStep hHead hStep, ih⟩

end Source

open Source

section

variable (depth : Nat) (rest : List Char)

theorem enclosed?_opening : enclosed? plainParens depth none ('(' :: rest) =
    (enclosed? plainParens (depth + 1) none rest).map ('(' :: ·) := by
  rw [enclosed?.eq_def]
  rfl

theorem enclosed?_closing_last : enclosed? plainParens 0 none (')' :: rest) = some [')'] := by
  rw [enclosed?.eq_def]
  rfl

theorem enclosed?_closing : enclosed? plainParens (depth + 1) none (')' :: rest) =
    (enclosed? plainParens depth none rest).map (')' :: ·) := by
  rw [enclosed?.eq_def]
  rfl

theorem enclosed?_neither {c : Char} (hOpening : c ≠ '(') (hClosing : c ≠ ')') :
    enclosed? plainParens depth none (c :: rest) =
      (enclosed? plainParens depth none rest).map (c :: ·) := by
  rw [enclosed?.eq_def]
  simp [plainParens, hOpening, hClosing]

end

theorem map_cons_eq_self_iff {c : Char} {text : List Char} {found : Option (List Char)} :
    found.map (c :: ·) = some (c :: text) ↔ found = some text := by
  cases found with
  | none => exact ⟨nofun, nofun⟩
  | some taken => simp

/-- What ends with a parenthesis that belongs to something else does not end within
parentheses. -/
theorem enclosed?_without_closing {inner : List Char} (h : ')' ∉ inner) (depth : Nat) :
    enclosed? plainParens (depth + 1) none (inner ++ [')']) = none := by
  induction inner generalizing depth with
  | nil => rfl
  | cons c rest ih =>
      obtain ⟨hFirst, hRest⟩ := List.ne_and_not_mem_of_not_mem_cons h
      rw [List.cons_append]
      by_cases hOpening : c = '('
      · rw [hOpening, enclosed?_opening, ih hRest, Option.map_none]
      · rw [enclosed?_neither _ _ hOpening hFirst.symm, ih hRest, Option.map_none]

/-- A text whose last character is a parenthesis that closes no reference: it is never the
first one behind an `@(`. -/
structure LooseEnd (text : List Char) : Prop where
  closing : [')'] <:+ text
  apart : ∀ inner, ')' ∉ inner → ¬('@' :: '(' :: (inner ++ [')'])) <:+ text

theorem LooseEnd.suffix {text rest : List Char} (h : LooseEnd text) (hSuffix : rest <:+ text)
    (hRest : rest ≠ []) : LooseEnd rest where
  closing := by
    rcases List.suffix_or_suffix_of_suffix h.closing hSuffix with hClosing | hShort
    · exact hClosing
    · rcases List.suffix_cons_iff.mp hShort with hWhole | hNone
      · exact hWhole ▸ List.suffix_rfl
      · exact absurd (List.suffix_nil.mp hNone) hRest
  apart inner hInner hReference := h.apart inner hInner (hReference.trans hSuffix)

/-- So ends what is found up to the parenthesis that closes another one. -/
theorem looseEnd_of_enclosed {depth : Nat} {text : List Char}
    (h : enclosed? plainParens depth none text = some text) : LooseEnd text where
  closing := enclosed?_last h
  apart inner hInner := by
    rintro ⟨before, rfl⟩
    induction before generalizing depth with
    | nil =>
        rw [List.nil_append, enclosed?_neither _ _ (by decide) (by decide), enclosed?_opening,
          enclosed?_without_closing hInner] at h
        cases h
    | cons c rest ih =>
        rw [List.cons_append] at h
        by_cases hOpening : c = '('
        · subst hOpening
          rw [enclosed?_opening, map_cons_eq_self_iff] at h
          exact ih h
        · by_cases hClosing : c = ')'
          · subst hClosing
            cases depth with
            | zero =>
                rw [enclosed?_closing_last] at h
                simp at h
            | succ depth =>
                rw [enclosed?_closing, map_cons_eq_self_iff] at h
                exact ih h
          · rw [enclosed?_neither _ _ hOpening hClosing, map_cons_eq_self_iff] at h
            exact ih h

/-! Substitution. -/

theorem referenceInner?_eq_some_iff {text inner after : List Char} :
    referenceInner? text = some (inner, after) ↔
      text = inner ++ ')' :: after ∧ ')' ∉ inner ∧ '\n' ∉ inner := by
  unfold referenceInner?
  constructor
  · intro h
    dsimp only at h
    split at h
    · next behind hBehind =>
      cases h
      have hSplit := List.takeWhile_append_dropWhile
        (p := fun c => decide (c ≠ ')') && decide (c ≠ '\n')) (l := text)
      rw [hBehind] at hSplit
      refine ⟨hSplit.symm, fun hMem => ?_, fun hMem => ?_⟩
      · simpa using List.mem_takeWhile_imp hMem
      · simpa using List.mem_takeWhile_imp hMem
    · cases h
  · rintro ⟨rfl, hClosing, hLine⟩
    have hInside : ∀ c ∈ inner, (decide (c ≠ ')') && decide (c ≠ '\n')) = true := by
      intro c hMem
      have hFirst : c ≠ ')' := fun hSame => hClosing (hSame ▸ hMem)
      have hSecond : c ≠ '\n' := fun hSame => hLine (hSame ▸ hMem)
      simp [hFirst, hSecond]
    dsimp only
    rw [List.dropWhile_append_of_pos hInside, List.takeWhile_append_of_pos hInside]
    simp

section

variable (bag : Bag)

theorem closing_suffix_cons {c : Char} {rest : List Char} (h : LooseEnd (c :: rest))
    (hRest : LooseEnd rest → [')'] <:+ substitute bag rest) : [')'] <:+ c :: substitute bag rest := by
  by_cases hNil : rest = []
  · subst hNil
    rw [substitute_nil]
    exact h.closing
  · exact (hRest (h.suffix (List.suffix_cons c rest) hNil)).trans (List.suffix_cons c _)

/-- The parenthesis at such an end is still there after substitution. -/
theorem closing_suffix_substitute {text : List Char} (h : LooseEnd text) :
    [')'] <:+ substitute bag text := by
  fun_induction substitute bag text with
  | case1 => exact h.closing
  | case2 c rest hAt inner after hInner ih =>
    -- a reference, which ends before the last parenthesis
    obtain ⟨hText, hClosing, -⟩ := referenceInner?_eq_some_iff.mp hInner
    simp only [Bool.and_eq_true, decide_eq_true_eq] at hAt
    obtain ⟨rfl, hHead⟩ := hAt
    obtain ⟨behind, rfl⟩ := List.head?_eq_some_iff.mp hHead
    rw [List.drop_one, List.tail_cons] at hText
    subst hText
    have hAfter : after ≠ [] := by
      rintro rfl
      exact h.apart inner hClosing List.suffix_rfl
    have hSuffix : after <:+ '@' :: '(' :: (inner ++ ')' :: after) :=
      ⟨'@' :: '(' :: (inner ++ [')']), by simp⟩
    exact (ih (h.suffix hSuffix hAfter)).trans (List.suffix_append _ _)
  | case3 c rest hAt hNone ih => exact closing_suffix_cons bag h ih
  | case4 rest length hRaw hAt ih =>
    -- a raw element, with what follows it if anything does
    by_cases hNil : rest.drop length = []
    · have hWhole : rest.take length = rest := List.take_of_length_le (List.drop_eq_nil_iff.mp hNil)
      rw [hNil, hWhole, substitute_nil, List.append_nil]
      exact h.closing
    · have hSuffix : rest.drop length <:+ '<' :: rest :=
        (List.drop_suffix length rest).trans (List.suffix_cons _ _)
      have hLater : substitute bag (rest.drop length) <:+
          '<' :: (rest.take length ++ substitute bag (rest.drop length)) :=
        (List.suffix_append _ _).trans (List.suffix_cons _ _)
      exact (ih (h.suffix hSuffix hNil)).trans hLater
  | case5 rest hRaw hAt ih => exact closing_suffix_cons bag h ih
  | case6 c rest hAt hTag ih => exact closing_suffix_cons bag h ih

end

/-! Values for a path. -/

/-- The value in which some keys lead to a given one. -/
def Data.nest (value : Data) : List String → Data
  | [] => value
  | key :: rest => .object [(key, value.nest rest)]

theorem Data.follow?_nest (value : Data) (keys : List String) :
    (value.nest keys).follow? keys = some value := by
  induction keys with
  | nil => rfl
  | cons key rest ih =>
      have hChild : (value.nest (key :: rest)).child? key = some (value.nest rest) := by
        simp [nest, child?, Bag.get?]
      cases rest with
      | nil => exact hChild
      | cons next rest =>
          rw [follow?, hChild]
          exact ih

/-- Any path leads to any value in some bag. -/
theorem Bag.exists_lookup? (path : String) (value : Data) :
    ∃ bag : Bag, bag.Sorted ∧ bag.lookup? path = some value := by
  unfold lookup?
  cases hKeys : pathSegments path with
  | nil => exact absurd hKeys (pathSegments_ne_nil path)
  | cons name rest =>
      refine ⟨[(name, value.nest rest)], List.pairwise_singleton _ _, ?_⟩
      simp only [get?, ↓reduceIte, Option.bind_some]
      exact value.follow?_nest rest

/-- A reference is written as any text in some bag. -/
theorem exists_resolveReference (inner : List Char) (text : String) (hText : text ≠ "")
    (hNumber : text ≠ "NaN") :
    ∃ bag : Bag, bag.Sorted ∧ resolveReference bag inner = text := by
  unfold resolveReference
  dsimp only
  cases Text.splitFirst? "||".toList (Text.trim inner) with
  | none =>
      obtain ⟨bag, hSorted, hFound⟩ :=
        Bag.exists_lookup? (String.ofList (Text.trim inner)) (.string text)
      exact ⟨bag, hSorted, by rw [hFound]; rfl⟩
  | some parts =>
      obtain ⟨left, right⟩ := parts
      obtain ⟨bag, hSorted, hFound⟩ :=
        Bag.exists_lookup? (String.ofList (Text.trim left)) (.string text)
      have hTruthy : (Data.string text).truthy = true := by simp [Data.truthy, hText, hNumber]
      refine ⟨bag, hSorted, ?_⟩
      dsimp only
      rw [hFound, Option.filter_some, if_pos hTruthy]
      rfl

/-- A reference in one line is replaced as a whole exactly if it has no parentheses inside:
what is left of any other is the parenthesis that closes it. -/
theorem Token.reference_replaced_iff {mode : ScanMode} {source file : String}
    {tokens : List Token} (hScan : Token.scan mode source file = .ok tokens) {t : Token}
    (hMem : t ∈ tokens) (hKind : t.kind = .reference) (hLine : '\n' ∉ t.value.toList) :
    ∃ inner, t.value.toList = '@' :: '(' :: (inner ++ [')']) ∧
      ((∀ bag : Bag, bag.Sorted →
          substitute bag t.value.toList = shield (resolveReference bag inner).toList) ↔
        ')' ∉ inner) := by
  obtain ⟨taken, hText, hTaken⟩ := references_scanFrom hScan t hMem hKind
  obtain ⟨inner, rfl⟩ : [')'] <:+ taken := enclosed?_last hTaken
  rw [hText] at hLine ⊢
  have hInnerLine : '\n' ∉ inner := by simp_all
  refine ⟨inner, rfl, fun hAll hClosing => ?_, fun hClosing bag _ => ?_⟩
  · -- substitution ends at the first closing parenthesis, before the last one
    obtain ⟨part, rest, rfl, hPart⟩ := List.eq_append_cons_of_mem hClosing
    have hPartLine : '\n' ∉ part := by simp_all
    obtain ⟨bag, hSorted, hResolved⟩ :=
      exists_resolveReference (part ++ ')' :: rest) "z" (by decide) (by decide)
    have hFound : referenceInner? (part ++ ')' :: rest ++ [')']) = some (part, rest ++ [')']) :=
      referenceInner?_eq_some_iff.mpr ⟨by simp, hPart, hPartLine⟩
    have hLoose : LooseEnd (rest ++ [')']) :=
      (looseEnd_of_enclosed hTaken).suffix ⟨part ++ [')'], by simp⟩ (by simp)
    have hWritten := hAll bag hSorted
    rw [substitute_reference bag hFound, hResolved] at hWritten
    have hEnd := (closing_suffix_substitute bag hLoose).trans
      (List.suffix_append (shield (resolveReference bag part).toList) _)
    rw [hWritten] at hEnd
    exact absurd hEnd (by decide)
  · have hFound : referenceInner? (inner ++ [')']) = some (inner, []) :=
      referenceInner?_eq_some_iff.mpr ⟨rfl, hClosing, hInnerLine⟩
    rw [substitute_reference bag hFound, substitute_nil, List.append_nil]

/-- A reference with a quoted alternative in which there are parentheses. -/
def guestReference : Token :=
  ⟨.reference, "@(name || \"Guest (anonymous)\")", ⟨0, 30, 1, 30⟩, "page"⟩

theorem scan_guestReference : Token.scanMarkup guestReference.value "page" = .ok [guestReference] :=
  toOption_eq_some.mp (by decide +kernel)

theorem guestReference_replaced_iff : '\n' ∉ guestReference.value.toList ∧
    ∃ inner, guestReference.value.toList = '@' :: '(' :: (inner ++ [')']) ∧
      ((∀ bag : Bag, bag.Sorted → substitute bag guestReference.value.toList =
        shield (resolveReference bag inner).toList) ↔ ')' ∉ inner) :=
  ⟨by decide, Token.reference_replaced_iff scan_guestReference (List.mem_singleton_self _) rfl
    (by decide)⟩

/-- The scanner takes that reference as a whole, and its text without parameters is the
alternative; substitution leaves a quote and the closing parenthesis of it. -/
theorem guestReference_not_replaced : ¬∀ (source file : String) (tokens : List Token),
    Token.scanMarkup source file = .ok tokens → ∀ t ∈ tokens, t.kind = .reference →
      '\n' ∉ t.value.toList → ∀ bag : Bag, bag.Sorted → ∀ inner,
        t.value.toList = '@' :: '(' :: (inner ++ [')']) →
          substitute bag t.value.toList = shield (resolveReference bag inner).toList := by
  intro hAll
  have hSame := hAll guestReference.value "page" [guestReference] scan_guestReference
    guestReference (List.mem_singleton_self _) rfl (by decide) [] List.Pairwise.nil
    "name || \"Guest (anonymous)\"".toList (by decide)
  have hLeft : substitute [] guestReference.value.toList = "\")".toList := by decide +kernel
  have hAlternative : resolveReference [] "name || \"Guest (anonymous)\"".toList =
      "Guest (anonymous)" := by decide +kernel
  rw [hLeft, hAlternative] at hSame
  exact absurd hSame (by decide)

end HtmlTemplate
