import HtmlTemplate.Proofs.Render.Walk
import HtmlTemplate.Proofs.Source.Pieces

/-! Markup without calls, control words and components. Rendering copies it, and goes
through exactly if every raw element is closed and the other elements are well nested;
parentheses do not count. -/
namespace HtmlTemplate

/-- A tag that counts for the nesting of elements. -/
inductive Bracket where
  | opens (name : String)
  | closes (name : String)
  deriving Repr, DecidableEq

/-- Words in which every opening bracket is closed by one of its own name, and what stands
between the two is such a word again. -/
inductive WellNested : List Bracket → Prop
  | nil : WellNested []
  | pair (name : String) {inner rest : List Bracket} (hInner : WellNested inner)
      (hRest : WellNested rest) : WellNested (.opens name :: (inner ++ .closes name :: rest))

/-- Words that close the elements that are open, innermost first, and are well nested
in between. -/
def ClosesAll : List String → List Bracket → Prop
  | [], word => WellNested word
  | name :: below, word => ∃ inner rest, word = inner ++ .closes name :: rest ∧
      WellNested inner ∧ ClosesAll below rest

section

variable {name : String} {names : List String} {word : List Bracket}

theorem closesAll_nil : ClosesAll names [] ↔ names = [] := by
  cases names with
  | nil => simp [ClosesAll, WellNested.nil]
  | cons name below => simp [ClosesAll]

theorem closesAll_opens :
    ClosesAll names (.opens name :: word) ↔ ClosesAll (name :: names) word := by
  cases names with
  | nil =>
      constructor
      · rintro (_ | ⟨_, hInner, hRest⟩)
        exact ⟨_, _, rfl, hInner, hRest⟩
      · rintro ⟨inner, rest, rfl, hInner, hRest⟩
        exact .pair name hInner hRest
  | cons outer below =>
      constructor
      · rintro ⟨front, rest, hWord, hFront, hRest⟩
        -- the word before the outer closing bracket begins with the opening one
        cases hFront with
        | nil => cases hWord
        | pair _ hInner hMiddle =>
            obtain ⟨rfl, rfl⟩ : name = _ ∧ word = _ := by simpa using hWord
            exact ⟨_, _, by simp, hInner, _, rest, rfl, hMiddle, hRest⟩
      · rintro ⟨inner, _, rfl, hInner, middle, rest, rfl, hMiddle, hRest⟩
        exact ⟨.opens name :: (inner ++ .closes name :: middle), rest, by simp,
          .pair name hInner hMiddle, hRest⟩

theorem closesAll_closes : ClosesAll names (.closes name :: word) ↔
    ∃ below, names = name :: below ∧ ClosesAll below word := by
  cases names with
  | nil =>
      constructor
      · intro h
        cases h
      · rintro ⟨below, hNames, -⟩
        cases hNames
  | cons first below =>
      constructor
      · rintro ⟨front, rest, hWord, hFront, hRest⟩
        cases hFront with
        | nil =>
            cases hWord
            exact ⟨below, rfl, hRest⟩
        | pair _ _ _ => cases hWord
      · rintro ⟨_, hNames, hRest⟩
        cases hNames
        exact ⟨[], word, rfl, .nil, hRest⟩

end

/-- The raw element that a token opens. -/
def Token.raw? (t : Token) : Option (List Char) :=
  if t.kind = .openingTag then
    ((tagParts? t.value.toList).map (·.1)).filter fun name => isRawElement (String.ofList name)
  else none

/-- What a token counts for in the nesting of elements. -/
def Token.bracket? (t : Token) : Option Bracket :=
  match t.kind with
  | .openingTag => (t.element?.filter fun name => !isVoidElement name).map .opens
  | .closingTag => t.closedElement?.map .closes
  | _ => none

/-- The tags of some tokens that count for the nesting of elements. -/
def brackets (tokens : List Token) : List Bracket :=
  tokens.filterMap Token.bracket?

/-- Takes the raw elements out of some tokens, from the opening tag to the first tag that
closes it, and leaves the others. -/
inductive RawCut : List Token → List Token → Prop
  | nil : RawCut [] []
  | keep {t : Token} {rest kept : List Token} (hRaw : t.raw? = none) (hRest : RawCut rest kept) :
      RawCut (t :: rest) (t :: kept)
  | cut {t close : Token} {name : List Char} {inner rest kept : List Token}
      (hRaw : t.raw? = some name) (hInner : ∀ u ∈ inner, u.closesRaw name = false)
      (hClose : close.closesRaw name = true) (hRest : RawCut rest kept) :
      RawCut (t :: (inner ++ close :: rest)) kept

/-- Whether every raw element is closed. A tag opens one if it is not itself inside of
another, that is, if all that are opened before it are closed before it. -/
def RawClosed (tokens : List Token) : Prop :=
  ∀ front t rest name, tokens = front ++ t :: rest → t.raw? = some name →
    (∃ kept, RawCut front kept) → ∃ u ∈ rest, u.closesRaw name = true

/-- Whether a token is a parenthesis. -/
def Token.isParen (t : Token) : Bool :=
  t.kind = .openParen || t.kind = .closeParen

/-- Some tokens without the parentheses among them. -/
def withoutParens (tokens : List Token) : List Token :=
  tokens.filter fun t => !t.isParen

/-- How some tokens are written. -/
def valuesText (tokens : List Token) : List Char :=
  tokens.flatMap (·.value.toList)

theorem valuesText_cons (t : Token) (rest : List Token) :
    valuesText (t :: rest) = t.value.toList ++ valuesText rest :=
  List.flatMap_cons

theorem valuesText_single (t : Token) : valuesText [t] = t.value.toList := by
  simp [valuesText]

theorem valuesText_append (tokens rest : List Token) :
    valuesText (tokens ++ rest) = valuesText tokens ++ valuesText rest :=
  List.flatMap_append

section

variable {name text : List Char} {t close : Token} {inner rest after kept : List Token}

theorem splitRaw?_append (hInner : ∀ u ∈ inner, u.closesRaw name = false)
    (hClose : close.closesRaw name = true) :
    splitRaw? name (inner ++ close :: after) = some (valuesText (inner ++ [close]), after) := by
  induction inner with
  | nil => simp [splitRaw?, hClose, valuesText]
  | cons u inner ih =>
      have hFirst := hInner u List.mem_cons_self
      have hLater := ih fun v hv => hInner v (List.mem_cons_of_mem _ hv)
      simp [splitRaw?, hFirst, hLater, valuesText]

theorem splitRaw?_eq_some (h : splitRaw? name rest = some (text, after)) :
    ∃ inner close, rest = inner ++ close :: after ∧ (∀ u ∈ inner, u.closesRaw name = false) ∧
      close.closesRaw name = true := by
  induction rest generalizing text with
  | nil => cases h
  | cons t rest ih =>
      unfold splitRaw? at h
      split at h
      · next hClose =>
        cases h
        exact ⟨[], t, rfl, List.forall_mem_nil _, hClose⟩
      · next hOther =>
        obtain ⟨⟨before, last⟩, hFound, hEq⟩ := Option.map_eq_some_iff.mp h
        cases hEq
        obtain ⟨inner, close, rfl, hInner, hClose⟩ := ih hFound
        refine ⟨t :: inner, close, rfl, ?_, hClose⟩
        exact List.forall_mem_cons.mpr ⟨Bool.eq_false_iff.mpr hOther, hInner⟩

theorem valuesText_of_splitRaw? (h : splitRaw? name rest = some (text, after)) :
    valuesText rest = text ++ valuesText after := by
  obtain ⟨inner, close, rfl, hInner, hClose⟩ := splitRaw?_eq_some h
  cases (splitRaw?_append hInner hClose).symm.trans h
  simp [valuesText]

theorem splitRaw?_isSome (h : ∃ u ∈ rest, u.closesRaw name = true) :
    ∃ text after, splitRaw? name rest = some (text, after) := by
  induction rest with
  | nil => simp at h
  | cons t rest ih =>
      unfold splitRaw?
      by_cases hClose : t.closesRaw name = true
      · exact ⟨_, _, if_pos hClose⟩
      · obtain ⟨u, hMem, hRaw⟩ := h
        rcases List.mem_cons.mp hMem with rfl | hMem
        · exact absurd hRaw hClose
        · obtain ⟨text, after, hFound⟩ := ih ⟨u, hMem, hRaw⟩
          exact ⟨_, _, by rw [if_neg hClose, hFound]; rfl⟩

theorem rawCut_of_keep (hRaw : t.raw? = none) (h : RawCut (t :: rest) kept) :
    ∃ later, kept = t :: later ∧ RawCut rest later := by
  cases h with
  | keep _ hRest => exact ⟨_, rfl, hRest⟩
  | cut hOther => cases hRaw.symm.trans hOther

/-- A raw element ends with the first tag that closes it. -/
theorem rawCut_of_cut (hRaw : t.raw? = some name) (h : RawCut (t :: rest) kept) :
    ∃ text after, splitRaw? name rest = some (text, after) ∧ RawCut after kept := by
  cases h with
  | keep hOther _ => cases hRaw.symm.trans hOther
  | cut hOther hInner hClose hRest =>
      cases hRaw.symm.trans hOther
      exact ⟨_, _, splitRaw?_append hInner hClose, hRest⟩

theorem rawCut_cut (hRaw : t.raw? = some name) (hSplit : splitRaw? name rest = some (text, after))
    (h : RawCut after kept) : RawCut (t :: rest) kept := by
  obtain ⟨inner, close, rfl, hInner, hClose⟩ := splitRaw?_eq_some hSplit
  exact .cut hRaw hInner hClose h

theorem RawCut.unique {other : List Token} (h : RawCut rest kept) (hOther : RawCut rest other) :
    kept = other := by
  induction h generalizing other with
  | nil => cases hOther; rfl
  | keep hRaw _ ih =>
      obtain ⟨later, rfl, hLater⟩ := rawCut_of_keep hRaw hOther
      rw [ih hLater]
  | cut hRaw hInner hClose _ ih =>
      obtain ⟨text, after, hSplit, hAfter⟩ := rawCut_of_cut hRaw hOther
      cases (splitRaw?_append hInner hClose).symm.trans hSplit
      exact ih hAfter

theorem RawClosed.exists_rawCut (h : RawClosed rest) : ∃ kept, RawCut rest kept := by
  induction hLength : rest.length using Nat.strongRecOn generalizing rest with
  | ind length ih =>
      subst hLength
      cases rest with
      | nil => exact ⟨[], .nil⟩
      | cons t rest =>
          cases hRaw : t.raw? with
          | none =>
              have hRest : RawClosed rest := by
                rintro front u behind name rfl hName ⟨kept, hKept⟩
                exact h (t :: front) u behind name rfl hName ⟨_, .keep hRaw hKept⟩
              obtain ⟨kept, hKept⟩ := ih rest.length (Nat.lt_succ_self _) hRest rfl
              exact ⟨_, .keep hRaw hKept⟩
          | some name =>
              obtain ⟨text, after, hSplit⟩ :=
                splitRaw?_isSome (h [] t rest name rfl hRaw ⟨[], .nil⟩)
              obtain ⟨inner, close, rfl, hInner, hClose⟩ := splitRaw?_eq_some hSplit
              have hAfter : RawClosed after := by
                rintro front u behind other rfl hName ⟨kept, hKept⟩
                exact h (t :: (inner ++ close :: front)) u behind other (by simp) hName
                  ⟨_, .cut hRaw hInner hClose hKept⟩
              obtain ⟨kept, hKept⟩ := ih after.length (by simp; omega) hAfter rfl
              exact ⟨_, .cut hRaw hInner hClose hKept⟩

theorem RawCut.rawClosed (h : RawCut rest kept) : RawClosed rest := by
  induction h with
  | nil =>
      intro front t behind name hNil
      simp at hNil
  | @keep t rest kept hRaw hRest ih =>
      rintro front u behind name hSplit hName ⟨frontKept, hFront⟩
      cases front with
      | nil =>
          cases hSplit
          cases hRaw.symm.trans hName
      | cons first front =>
          cases hSplit
          obtain ⟨later, -, hLater⟩ := rawCut_of_keep hRaw hFront
          exact ih front u behind name rfl hName ⟨later, hLater⟩
  | @cut t close opened inner rest kept hRaw hInner hClose hRest ih =>
      rintro front u behind name hSplit hName ⟨frontKept, hFront⟩
      cases front with
      | nil =>
          cases hSplit
          cases hRaw.symm.trans hName
          exact ⟨close, by simp, hClose⟩
      | cons first front =>
          simp only [List.cons_append, List.cons.injEq] at hSplit
          obtain ⟨rfl, hSplit⟩ := hSplit
          -- the front goes past the element that is cut out
          obtain ⟨text, after, hFound, hAfter⟩ := rawCut_of_cut hRaw hFront
          obtain ⟨before, last, rfl, hBefore, hLast⟩ := splitRaw?_eq_some hFound
          have hWhole : splitRaw? opened (inner ++ close :: rest) =
              some (valuesText (before ++ [last]), after ++ u :: behind) := by
            rw [hSplit, List.append_assoc, List.cons_append]
            exact splitRaw?_append hBefore hLast
          rw [splitRaw?_append hInner hClose, Option.some.injEq, Prod.mk.injEq] at hWhole
          exact ih after u behind name hWhole.2 hName ⟨frontKept, hAfter⟩

/-- Every raw element is closed exactly if all of them can be taken out. -/
theorem rawClosed_iff : RawClosed rest ↔ ∃ kept, RawCut rest kept :=
  ⟨RawClosed.exists_rawCut, fun ⟨_, h⟩ => h.rawClosed⟩

theorem Token.inert_of_isParen (h : t.isParen = true) :
    t.raw? = none ∧ t.bracket? = none ∧ ∀ name, t.closesRaw name = false := by
  simp only [Token.isParen, Bool.or_eq_true, decide_eq_true_eq] at h
  rcases h with hKind | hKind <;> simp [Token.raw?, Token.bracket?, Token.closesRaw, hKind]

theorem brackets_withoutParens (tokens : List Token) :
    brackets (withoutParens tokens) = brackets tokens := by
  induction tokens with
  | nil => rfl
  | cons t rest ih =>
      cases hParen : t.isParen with
      | true =>
          obtain ⟨-, hBracket, -⟩ := t.inert_of_isParen hParen
          simpa [brackets, withoutParens, hParen, hBracket] using ih
      | false =>
          cases hBracket : t.bracket? <;>
            simpa [brackets, withoutParens, hParen, hBracket] using ih

theorem splitRaw?_withoutParens (name : List Char) (tokens : List Token) :
    (splitRaw? name (withoutParens tokens)).map (·.2) =
      (splitRaw? name tokens).map fun found => withoutParens found.2 := by
  induction tokens with
  | nil => rfl
  | cons t rest ih =>
      cases hParen : t.isParen with
      | true =>
          obtain ⟨-, -, hOther⟩ := t.inert_of_isParen hParen
          have hRest : withoutParens (t :: rest) = withoutParens rest := by
            simp [withoutParens, hParen]
          simpa [splitRaw?, hRest, hOther, Function.comp_def] using ih
      | false =>
          have hRest : withoutParens (t :: rest) = t :: withoutParens rest := by
            simp [withoutParens, hParen]
          cases hClose : t.closesRaw name with
          | true => simp [splitRaw?, hRest, hClose]
          | false => simpa [splitRaw?, hRest, hClose, Function.comp_def] using ih

/-- Raw elements are taken out in the same way if parentheses are left out. -/
theorem rawCut_withoutParens (h : RawCut rest kept) :
    RawCut (withoutParens rest) (withoutParens kept) := by
  induction h with
  | nil => exact .nil
  | @keep t rest kept hRaw hRest ih =>
      cases hParen : t.isParen with
      | true => simpa [withoutParens, hParen] using ih
      | false => simpa [withoutParens, hParen] using ih.keep hRaw
  | @cut t close name inner rest kept hRaw hInner hClose hRest ih =>
      have hOpening : t.isParen = false := by
        cases hParen : t.isParen with
        | true => cases hRaw.symm.trans (t.inert_of_isParen hParen).1
        | false => rfl
      have hClosing : close.isParen = false := by
        cases hParen : close.isParen with
        | true => cases hClose.symm.trans ((close.inert_of_isParen hParen).2.2 name)
        | false => rfl
      have hLeft : ∀ u ∈ withoutParens inner, u.closesRaw name = false :=
        fun u hu => hInner u (List.mem_filter.mp hu).1
      simpa [withoutParens, hOpening, hClosing] using RawCut.cut hRaw hLeft hClose ih

theorem rawCut_of_withoutParens (h : RawCut (withoutParens rest) kept) :
    ∃ later, RawCut rest later ∧ withoutParens later = kept := by
  induction hLength : rest.length using Nat.strongRecOn generalizing rest kept with
  | ind length ih =>
      subst hLength
      cases rest with
      | nil =>
          cases h
          exact ⟨[], .nil, rfl⟩
      | cons t rest =>
          have hShorter {kept : List Token} (h : RawCut (withoutParens rest) kept) :=
            ih rest.length (Nat.lt_succ_self _) h rfl
          cases hParen : t.isParen with
          | true =>
              simp only [withoutParens, hParen, Bool.not_true, List.filter_cons,
                Bool.false_eq_true, ↓reduceIte] at h
              obtain ⟨later, hLater, rfl⟩ := hShorter h
              refine ⟨t :: later, .keep (t.inert_of_isParen hParen).1 hLater, ?_⟩
              simp [withoutParens, hParen]
          | false =>
              simp only [withoutParens, hParen, Bool.not_false, List.filter_cons,
                ↓reduceIte] at h
              cases hRaw : t.raw? with
              | none =>
                  obtain ⟨kept, rfl, hKept⟩ := rawCut_of_keep hRaw h
                  obtain ⟨later, hLater, rfl⟩ := hShorter hKept
                  refine ⟨t :: later, .keep hRaw hLater, ?_⟩
                  simp [withoutParens, hParen]
              | some name =>
                  obtain ⟨text, after, hSplit, hKept⟩ := rawCut_of_cut hRaw h
                  have hFound := splitRaw?_withoutParens name rest
                  rw [withoutParens, hSplit, Option.map_some, eq_comm,
                    Option.map_eq_some_iff] at hFound
                  obtain ⟨⟨before, behind⟩, hFound, rfl⟩ := hFound
                  have hLess := Nat.lt_succ_of_le (splitRaw?_suffix hFound).length_le
                  obtain ⟨later, hLater, rfl⟩ := ih behind.length hLess hKept rfl
                  exact ⟨later, rawCut_cut hRaw hFound hLater, rfl⟩

end

/-- A token that asks for nothing to be computed. -/
structure Token.IsInert (t : Token) (session : Session) (scopes : Scopes) : Prop where
  placed : t.kind.misplaced? = none
  keyword : ∀ k, t.kind ≠ .keyword k
  call : t.kind ≠ .call
  component : t.kind = .openingTag ∨ t.kind = .selfClosingTag →
    ∀ name, t.element? = some name → session.component? scopes name = none

/-- The elements that are open, innermost first. -/
def elementNames (opened : List Pending) : List String :=
  opened.filterMap fun p =>
    match p.opener with
    | .paren => none
    | .element name => some name

theorem elementNames_paren (token : Token) (opened : List Pending) :
    elementNames (⟨.paren, token⟩ :: opened) = elementNames opened := rfl

theorem elementNames_element (name : String) (token : Token) (opened : List Pending) :
    elementNames (⟨.element name, token⟩ :: opened) = name :: elementNames opened := rfl

theorem elementNames_dropWhile (opened : List Pending) :
    elementNames (opened.dropWhile Pending.isParen) = elementNames opened := by
  induction opened with
  | nil => rfl
  | cons p below ih =>
      obtain ⟨opener, token⟩ := p
      cases opener with
      | paren => simpa [Pending.isParen, elementNames_paren] using ih
      | element name => simp [Pending.isParen]

/-- The innermost element is the first thing open that is no parenthesis. -/
theorem elementNames_of_dropWhile {opened below : List Pending} {p : Pending}
    (h : opened.dropWhile Pending.isParen = p :: below) :
    ∃ name, p.opener = .element name ∧ elementNames opened = name :: elementNames below := by
  have hFirst : p.isParen = false := Source.of_dropWhile_eq_cons h
  obtain ⟨opener, token⟩ := p
  cases opener with
  | paren => simp [Pending.isParen] at hFirst
  | element name => exact ⟨name, rfl, by rw [← elementNames_dropWhile, h, elementNames_element]⟩

namespace Rendering

/-- Whether the tokens that are left close everything that is open. -/
def Balanced (r : Rendering) : Prop :=
  ∃ kept, RawCut r.rest kept ∧ ClosesAll (elementNames r.opened) (brackets kept)

section

variable {r : Rendering} {session : Session} {t : Token} {rest after : List Token}
  {opened : List Pending} {name : List Char} {text : List Char}

theorem balanced_of_keep (hRest : r.rest = t :: rest) (hRaw : t.raw? = none) :
    r.Balanced ↔ ∃ kept, RawCut rest kept ∧
      ClosesAll (elementNames r.opened) (t.bracket?.toList ++ brackets kept) := by
  have hBrackets (kept : List Token) :
      brackets (t :: kept) = t.bracket?.toList ++ brackets kept := by
    cases hBracket : t.bracket? <;> simp [brackets, hBracket]
  unfold Balanced
  rw [hRest]
  constructor
  · rintro ⟨kept, hCut, hCloses⟩
    obtain ⟨later, rfl, hLater⟩ := rawCut_of_keep hRaw hCut
    exact ⟨later, hLater, hBrackets later ▸ hCloses⟩
  · rintro ⟨kept, hCut, hCloses⟩
    exact ⟨t :: kept, .keep hRaw hCut, (hBrackets kept).symm ▸ hCloses⟩

theorem balanced_of_cut (hRest : r.rest = t :: rest) (hRaw : t.raw? = some name)
    (hSplit : splitRaw? name rest = some (text, after)) :
    r.Balanced ↔ Balanced { r with rest := after } := by
  unfold Balanced
  rw [hRest]
  constructor
  · rintro ⟨kept, hCut, hCloses⟩
    obtain ⟨_, _, hFound, hAfter⟩ := rawCut_of_cut hRaw hCut
    cases hSplit.symm.trans hFound
    exact ⟨kept, hAfter, hCloses⟩
  · rintro ⟨kept, hCut, hCloses⟩
    exact ⟨kept, rawCut_cut hRaw hSplit hCut, hCloses⟩

/-- A raw element that is never closed. -/
theorem not_balanced_of_uncut (hRest : r.rest = t :: rest) (hRaw : t.raw? = some name)
    (hSplit : splitRaw? name rest = none) : ¬ r.Balanced := by
  rintro ⟨kept, hCut, -⟩
  rw [hRest] at hCut
  obtain ⟨_, _, hFound, -⟩ := rawCut_of_cut hRaw hCut
  cases hSplit.symm.trans hFound

theorem balanced_of_opens {element : String} (hRest : r.rest = t :: rest) (hRaw : t.raw? = none)
    (hBracket : t.bracket? = some (.opens element)) :
    r.Balanced ↔ Balanced { r with rest, opened := ⟨.element element, t⟩ :: r.opened } := by
  rw [balanced_of_keep hRest hRaw, Balanced, elementNames_element, hBracket]
  simp only [Option.toList_some, List.singleton_append, closesAll_opens]

theorem balanced_of_closes {element : String} (hRest : r.rest = t :: rest) (hRaw : t.raw? = none)
    (hBracket : t.bracket? = some (.closes element)) :
    r.Balanced ↔ ∃ below, elementNames r.opened = element :: below ∧
      ∃ kept, RawCut rest kept ∧ ClosesAll below (brackets kept) := by
  rw [balanced_of_keep hRest hRaw, hBracket]
  simp only [Option.toList_some, List.singleton_append, closesAll_closes]
  grind

/-- A token that counts for nothing. -/
theorem balanced_of_neutral (hRest : r.rest = t :: rest) (hRaw : t.raw? = none)
    (hBracket : t.bracket? = none) (hOpened : elementNames opened = elementNames r.opened) :
    r.Balanced ↔ Balanced { r with rest, opened } := by
  rw [balanced_of_keep hRest hRaw, hBracket, Balanced, hOpened]
  rfl

/-- What a step through inert markup can be: it fails, and what was left is not balanced,
or it copies some tokens and goes on with what is as balanced as before. -/
def CopiesFrom (r : Rendering) (rest : List Token) (stepped : Action × Rendering) : Prop :=
  (¬ r.Balanced ∧ ∃ e, stepped.1 = .fail e) ∨
  ∃ text opened after, stepped = (.emit text, { r with rest := after, opened }) ∧
    after <:+ rest ∧ valuesText r.rest = text ++ valuesText after ∧
    (r.Balanced ↔ Balanced { r with rest := after, opened })

/-- A token that is copied and counts for nothing. -/
theorem copiesFrom_of_neutral (hRest : r.rest = t :: rest) (hRaw : t.raw? = none)
    (hBracket : t.bracket? = none) (hOpened : elementNames opened = elementNames r.opened) :
    CopiesFrom r rest (.emit t.value.toList, { r with rest, opened }) := by
  refine .inr ⟨_, opened, rest, rfl, List.suffix_rfl, ?_,
    balanced_of_neutral hRest hRaw hBracket hOpened⟩
  rw [hRest]
  rfl

/-- A closing parenthesis closes no element. -/
theorem closeParen_copies (hRest : r.rest = t :: rest) (hKind : t.kind = .closeParen) :
    CopiesFrom r rest ((r.moveTo rest).closeParen false t) := by
  have hNeutral (opened : List Pending) (hOpened : elementNames opened = elementNames r.opened) :=
    copiesFrom_of_neutral hRest (by simp [Token.raw?, hKind]) (by simp [Token.bracket?, hKind])
      hOpened
  obtain ⟨tokens, left, opened, outer, context, endLocation⟩ := r
  cases opened with
  | nil => cases outer <;> exact hNeutral [] rfl
  | cons p below =>
      obtain ⟨opener, token⟩ := p
      cases opener with
      | paren => exact hNeutral below rfl
      | element name => exact hNeutral _ rfl

theorem openElement_copies (hRest : r.rest = t :: rest) (hKind : t.kind = .openingTag)
    (hComponent : ∀ name, t.element? = some name →
      session.component? r.context.scopes name = none) :
    CopiesFrom r rest ((r.moveTo rest).openElement session t) := by
  have hValue : valuesText r.rest = t.value.toList ++ valuesText rest := by
    rw [hRest]
    rfl
  unfold openElement
  cases hParts : tagParts? t.value.toList with
  | none =>
      exact copiesFrom_of_neutral hRest (by simp [Token.raw?, hParts])
        (by simp [Token.bracket?, Token.element?, hKind, hParts]) rfl
  | some parts =>
      obtain ⟨name, attributes⟩ := parts
      have hElement : t.element? = some (String.ofList name) := by simp [Token.element?, hParts]
      have hNone := hComponent _ hElement
      by_cases hRawName : isRawElement (String.ofList name) = true
      · have hRaw : t.raw? = some name := by simp [Token.raw?, hKind, hParts, hRawName]
        cases hSplit : splitRaw? name rest with
        | none =>
            simp only [hRawName, ↓reduceIte, moveTo_rest, hSplit]
            exact .inl ⟨not_balanced_of_uncut hRest hRaw hSplit, _, rfl⟩
        | some found =>
            obtain ⟨text, after⟩ := found
            simp only [hRawName, ↓reduceIte, moveTo_rest, hSplit]
            refine .inr ⟨_, r.opened, after, rfl, splitRaw?_suffix hSplit, ?_,
              balanced_of_cut hRest hRaw hSplit⟩
            rw [hValue, valuesText_of_splitRaw? hSplit, List.append_assoc]
      · have hRaw : t.raw? = none := by simp [Token.raw?, hParts, hRawName]
        simp only [hRawName, Bool.false_eq_true, ↓reduceIte, moveTo_context, hNone]
        by_cases hVoid : isVoidElement (String.ofList name) = true
        · rw [if_pos hVoid]
          have hNeutral : t.bracket? = none := by simp [Token.bracket?, hKind, hElement, hVoid]
          exact copiesFrom_of_neutral hRest hRaw hNeutral rfl
        · rw [if_neg hVoid]
          have hBracket : t.bracket? = some (.opens (String.ofList name)) := by
            simp [Token.bracket?, hKind, hElement, hVoid]
          exact .inr ⟨_, _, rest, rfl, List.suffix_rfl, hValue,
            balanced_of_opens hRest hRaw hBracket⟩

theorem closeElement_copies (hRest : r.rest = t :: rest) (hKind : t.kind = .closingTag) :
    CopiesFrom r rest ((r.moveTo rest).closeElement t) := by
  have hValue : valuesText r.rest = t.value.toList ++ valuesText rest := by
    rw [hRest]
    rfl
  have hRaw : t.raw? = none := by simp [Token.raw?, hKind]
  unfold closeElement
  cases hName : closingName? t.value.toList with
  | none =>
      exact copiesFrom_of_neutral hRest hRaw
        (by simp [Token.bracket?, Token.closedElement?, hKind, hName]) rfl
  | some name =>
      have hBracket : t.bracket? = some (.closes (String.ofList name)) := by
        simp [Token.bracket?, Token.closedElement?, hKind, hName]
      have hBalanced := balanced_of_closes hRest hRaw hBracket
      have hOpened : (r.moveTo rest).opened = r.opened := rfl
      simp only [hOpened]
      cases hDropped : r.opened.dropWhile Pending.isParen with
      | nil =>
          refine .inl ⟨?_, _, rfl⟩
          rw [hBalanced, ← elementNames_dropWhile, hDropped]
          rintro ⟨below, hNames, -⟩
          cases hNames
      | cons p below =>
          obtain ⟨inner, hOpener, hNames⟩ := elementNames_of_dropWhile hDropped
          by_cases hSame : p.opener = .element (String.ofList name)
          · simp only [if_pos hSame]
            refine .inr ⟨_, below, rest, rfl, List.suffix_rfl, hValue, ?_⟩
            cases hOpener.symm.trans hSame
            rw [hBalanced, hNames, Balanced]
            constructor
            · rintro ⟨_, hBelow, hRest⟩
              cases hBelow
              exact hRest
            · intro hRest
              exact ⟨_, rfl, hRest⟩
          · simp only [if_neg hSame]
            refine .inl ⟨?_, _, rfl⟩
            rw [hBalanced, hNames]
            rintro ⟨_, hBelow, -⟩
            cases hBelow
            exact hSame hOpener

theorem closedElement_eq_emit (hComponent : ∀ name, t.element? = some name →
      session.component? r.context.scopes name = none) :
    r.closedElement session t = .emit t.value.toList := by
  unfold closedElement
  cases hParts : tagParts? t.value.toList with
  | none => rfl
  | some parts =>
      obtain ⟨name, attributes⟩ := parts
      have hNone := hComponent (String.ofList name) (by simp [Token.element?, hParts])
      simp only [hNone]

/-- What rendering does at a token of inert markup. -/
theorem step_copies (hRest : r.rest = t :: rest) (hInert : t.IsInert session r.context.scopes) :
    CopiesFrom r rest ((r.moveTo rest).step session false t) := by
  obtain ⟨hPlaced, hKeyword, hCall, hComponent⟩ := hInert
  have hNeutral (hRaw : t.raw? = none) (hBracket : t.bracket? = none) :
      CopiesFrom r rest (.emit t.value.toList, r.moveTo rest) :=
    copiesFrom_of_neutral hRest hRaw hBracket rfl
  unfold step
  cases hKind : t.kind with
  | keyword k => exact absurd hKind (hKeyword k)
  | call => exact absurd hKind hCall
  | condition | block | each => simp [TokenKind.misplaced?, hKind] at hPlaced
  | text | string | blank | doctype | reference | unknown =>
      exact hNeutral (by simp [Token.raw?, hKind]) (by simp [Token.bracket?, hKind])
  | openParen =>
      exact copiesFrom_of_neutral hRest (by simp [Token.raw?, hKind])
        (by simp [Token.bracket?, hKind]) (elementNames_paren t r.opened)
  | closeParen => exact closeParen_copies hRest hKind
  | openingTag => exact openElement_copies hRest hKind (hComponent (.inl hKind))
  | closingTag => exact closeElement_copies hRest hKind
  | selfClosingTag =>
      simp only [closedElement_eq_emit (r := r.moveTo rest) (hComponent (.inr hKind))]
      exact hNeutral (by simp [Token.raw?, hKind]) (by simp [Token.bracket?, hKind])

end

/-- At the end nothing may be open but parentheses. -/
theorem finish_inert {r : Rendering} (hRest : r.rest = []) :
    (r.Balanced → r.finish false = (.ok (), { r with rest := [], opened := [] })) ∧
    (¬ r.Balanced → ∃ e, (r.finish false).1 = .error e) := by
  have hBalanced : r.Balanced ↔ elementNames r.opened = [] := by
    unfold Balanced
    rw [hRest, ← closesAll_nil]
    constructor
    · rintro ⟨kept, hCut, hCloses⟩
      cases hCut
      exact hCloses
    · intro hCloses
      exact ⟨[], .nil, hCloses⟩
  unfold finish
  rw [hBalanced, ← hRest]
  cases hDropped : r.opened.dropWhile Pending.isParen with
  | nil =>
      have hNone : elementNames r.opened = [] := by rw [← elementNames_dropWhile, hDropped]; rfl
      exact ⟨fun _ => rfl, fun hSome => absurd hNone hSome⟩
  | cons p below =>
      obtain ⟨name, -, hNames⟩ := elementNames_of_dropWhile hDropped
      rw [hNames]
      exact ⟨fun hNone => (List.cons_ne_nil _ _ hNone).elim, fun _ => ⟨_, rfl⟩⟩

/-- Rendering inert markup: it is copied if it is balanced, and fails if it is not. -/
theorem walk_inert (nested : Nested) {r : Rendering} {session : Session}
    (hInert : ∀ t ∈ r.rest, t.IsInert session r.context.scopes) :
    (r.Balanced → walk nested false r session =
      (.ok (valuesText r.rest), { r with rest := [], opened := [] }, session)) ∧
    (¬ r.Balanced → ∃ e, (walk nested false r session).1 = .error e) := by
  induction r using walk_induction with
  | nil r hRest =>
      obtain ⟨hOk, hError⟩ := finish_inert hRest
      rw [walk_nil nested false session hRest]
      refine ⟨fun hBalanced => ?_, fun hBalanced => ?_⟩
      · rw [hOk hBalanced, hRest]
        rfl
      · obtain ⟨e, hFinish⟩ := hError hBalanced
        exact ⟨e, by rw [hFinish]; rfl⟩
  | misplaced r t rest expectation hRest hPlaced =>
      have hHere := (hInert t (hRest ▸ List.mem_cons_self)).placed
      cases hPlaced.symm.trans hHere
  | placed r t rest hRest hPlaced ih =>
      rcases step_copies hRest (hInert t (hRest ▸ List.mem_cons_self)) with
        ⟨hOpen, e, hFail⟩ | ⟨text, opened, after, hStep, hSuffix, hText, hBalanced⟩
      · have hDone : ((r.moveTo rest).step session false t).1.perform nested r.context session =
            (.error e, session) := by rw [hFail]; rfl
        have hWalk := walk_of_error hRest hPlaced rfl hDone
        exact ⟨fun hBalanced => absurd hBalanced hOpen, fun _ => ⟨e, by rw [hWalk]⟩⟩
      · have hLess : after.length < r.rest.length := by
          have := hSuffix.length_le
          rw [hRest, List.length_cons]
          omega
        have hLater : ∀ u ∈ after, u.IsInert session r.context.scopes := fun u hu =>
          hInert u (hRest ▸ List.mem_cons_of_mem t (hSuffix.subset hu))
        obtain ⟨hOk, hError⟩ := ih { r with rest := after, opened } hLess hLater
        rw [walk_of_ok hRest hPlaced hStep rfl rfl, hBalanced]
        refine ⟨fun hBalanced => ?_, fun hBalanced => ?_⟩
        · rw [hOk hBalanced, hText]
          rfl
        · obtain ⟨e, hWalk⟩ := hError hBalanced
          exact ⟨e, by rw [hWalk]; rfl⟩

end Rendering

/-- Markup that has been scanned has no heads or blocks but behind control words. -/
theorem Token.placed_of_scanMarkup {source file : String} {tokens : List Token}
    (hScan : Token.scanMarkup source file = .ok tokens) (hKeyword : NoKeyword tokens) :
    ∀ t ∈ tokens, t.kind.misplaced? = none := by
  obtain ⟨pieces, hLaid, rfl, -, hPlain⟩ := Source.takes_all hScan
  intro t ht
  obtain ⟨p, hMem, hToken⟩ := List.mem_filterMap.mp ht
  obtain ⟨front, rest, rfl⟩ := List.append_of_mem hMem
  have hFits := (laid_append.mp hLaid).2.1
  cases p with
  | copied u =>
      cases hToken
      have hKind := hFits.1
      cases hHere : t.kind with
      | keyword k => exact absurd hHere (hKeyword t ht k)
      | condition | each | block => simp [TokenKind.IsCopied, hHere] at hKind
      | _ => rfl
  | comment text => cases hToken
  | block u | control u blanks | head text u blanks | line text =>
      exact (hPlain rfl hKeyword _ hMem).elim

namespace Rendering

/-- Whether some tokens can be rendered as a body of their own. -/
theorem balanced_enter {r : Rendering} : r.enter.Balanced ↔
    RawClosed r.rest ∧ ∀ kept, RawCut r.rest kept → WellNested (brackets kept) := by
  rw [rawClosed_iff]
  constructor
  · rintro ⟨kept, hCut, hNested⟩
    refine ⟨⟨kept, hCut⟩, fun other hOther => ?_⟩
    rw [← hCut.unique hOther]
    exact hNested
  · rintro ⟨⟨kept, hCut⟩, hNested⟩
    exact ⟨kept, hCut, hNested kept hCut⟩

/-- Parentheses do not count for the balance. -/
theorem balanced_of_withoutParens {r s : Rendering} (hOpened : r.opened = s.opened)
    (hRest : withoutParens r.rest = withoutParens s.rest) (h : r.Balanced) : s.Balanced := by
  obtain ⟨kept, hCut, hCloses⟩ := h
  have hLess := rawCut_withoutParens hCut
  rw [hRest] at hLess
  obtain ⟨later, hLater, hSame⟩ := rawCut_of_withoutParens hLess
  refine ⟨later, hLater, ?_⟩
  rw [← hOpened, ← brackets_withoutParens, hSame, brackets_withoutParens]
  exact hCloses

theorem isInert_of_isParen {t : Token} (session : Session) (scopes : Scopes)
    (h : t.isParen = true) : t.IsInert session scopes := by
  simp only [Token.isParen, Bool.or_eq_true, decide_eq_true_eq] at h
  constructor <;> rcases h with hKind | hKind <;> simp [hKind, TokenKind.misplaced?]

/-- Inert markup is accepted exactly if it is balanced. -/
theorem body_accepts_iff_balanced (nested : Nested) {r : Rendering} {session : Session}
    (hInert : ∀ t ∈ r.rest, t.IsInert session r.context.scopes) :
    (∃ text, (r.body nested session).1 = .ok text) ↔ r.enter.Balanced := by
  obtain ⟨hOk, hError⟩ := walk_inert nested (r := r.enter) hInert
  constructor
  · rintro ⟨text, hText⟩
    apply Classical.byContradiction
    intro hBalanced
    obtain ⟨e, hWalk⟩ := hError hBalanced
    cases hText.symm.trans hWalk
  · intro hBalanced
    exact ⟨_, by rw [body, hOk hBalanced]⟩

/-- Rendering markup without control words, calls and components. It goes through exactly
if every raw element is closed and the tags outside of raw elements are well nested, and
parentheses have no part in that; what comes out are the tokens as they are written, with
everything open that was open before. -/
theorem body_accepts_iff (nested : Nested) {r : Rendering} {session : Session}
    {source file : String} (hScan : Token.scanMarkup source file = .ok r.rest)
    (hKeyword : NoKeyword r.rest) (hCall : ∀ t ∈ r.rest, t.kind ≠ .call)
    (hComponent : ∀ t ∈ r.rest, t.kind = .openingTag ∨ t.kind = .selfClosingTag →
      ∀ name, t.element? = some name → session.component? r.context.scopes name = none) :
    ((∃ text, (r.body nested session).1 = .ok text) ↔
      RawClosed r.rest ∧ ∀ kept, RawCut r.rest kept → WellNested (brackets kept)) ∧
    (∀ text, (r.body nested session).1 = .ok text → text = r.rest.flatMap (·.value.toList) ∧
      (r.body nested session).2.1.opened ++ (r.body nested session).2.1.outer =
        r.opened ++ r.outer ∧ (r.body nested session).2.2 = session) ∧
    ∀ other : List Token, withoutParens other = withoutParens r.rest →
      ((∃ text, ((r.moveTo other).body nested session).1 = .ok text) ↔
        ∃ text, (r.body nested session).1 = .ok text) := by
  have hInert : ∀ t ∈ r.rest, t.IsInert session r.context.scopes := fun t ht =>
    ⟨Token.placed_of_scanMarkup hScan hKeyword t ht, hKeyword t ht, hCall t ht, hComponent t ht⟩
  refine ⟨?_, ?_, ?_⟩
  · rw [body_accepts_iff_balanced nested hInert, balanced_enter]
  · intro text hText
    have hBalanced := (body_accepts_iff_balanced nested hInert).mp ⟨text, hText⟩
    have hBody := (walk_inert nested (r := r.enter) hInert).1 hBalanced
    rw [body, hBody] at hText ⊢
    cases hText
    exact ⟨rfl, rfl, rfl⟩
  · intro other hOther
    have hOtherInert : ∀ t ∈ (r.moveTo other).rest,
        t.IsInert session (r.moveTo other).context.scopes := by
      intro t ht
      by_cases hParen : t.isParen = true
      · exact isInert_of_isParen _ _ hParen
      · have hMem : t ∈ withoutParens r.rest := by
          rw [← hOther]
          exact List.mem_filter.mpr ⟨ht, by simpa using hParen⟩
        exact hInert t (List.mem_filter.mp hMem).1
    rw [body_accepts_iff_balanced nested hOtherInert, body_accepts_iff_balanced nested hInert]
    exact ⟨balanced_of_withoutParens rfl hOther, balanced_of_withoutParens rfl hOther.symm⟩

/-- The tokens of a paragraph with a void element, a raw one and half a parenthesis. -/
def paragraphTokens : List Token := [
  ⟨.openingTag, "<p>", ⟨0, 3, 1, 4⟩, "page"⟩,
  ⟨.openParen, "(", ⟨3, 4, 1, 4⟩, "page"⟩,
  ⟨.openingTag, "<br>", ⟨4, 8, 1, 9⟩, "page"⟩,
  ⟨.openingTag, "<style>", ⟨8, 15, 1, 16⟩, "page"⟩,
  ⟨.text, "<p>", ⟨15, 18, 1, 19⟩, "page"⟩,
  ⟨.closingTag, "</STYLE>", ⟨18, 26, 1, 27⟩, "page"⟩,
  ⟨.closingTag, "</p>", ⟨26, 30, 1, 30⟩, "page"⟩]

theorem scan_paragraph :
    Token.scanMarkup "<p>(<br><style><p></STYLE></p>" "page" = .ok paragraphTokens :=
  toOption_eq_some.mp (by decide +kernel)

theorem paragraph_cut : ∃ kept, RawCut paragraphTokens kept ∧
    brackets kept = [.opens "p", .closes "p"] := by
  have hInner : ∀ u ∈ [(⟨.text, "<p>", ⟨15, 18, 1, 19⟩, "page"⟩ : Token)],
      u.closesRaw "style".toList = false := by decide +kernel
  refine ⟨_, .keep (by decide +kernel) (.keep (by decide +kernel) (.keep (by decide +kernel)
    (@RawCut.cut _ _ _ [⟨.text, "<p>", ⟨15, 18, 1, 19⟩, "page"⟩] _ _ (by decide +kernel) hInner
      (by decide +kernel) (.keep (by decide +kernel) .nil)))), ?_⟩
  decide +kernel

/-- The paragraph goes through. -/
theorem body_accepts_paragraph :
    ∃ text, ((start paragraphTokens ⟨[], ⟨0, 0, 0, 0⟩, "page"⟩).body
      (fun _ _ _ session => (.ok [], session)) (Session.start 64)).1 = .ok text := by
  have hKeyword : NoKeyword paragraphTokens := by
    simp [NoKeyword, paragraphTokens]
  have hCall : ∀ t ∈ paragraphTokens, t.kind ≠ .call := by
    simp [paragraphTokens]
  have hComponent (name : String) : (Session.start 64).component? ⟨0, 0, 0, 0⟩ name = none := by
    rw [Session.component?, ScopeArena.lookup?]
    rfl
  obtain ⟨kept, hCut, hBrackets⟩ := paragraph_cut
  refine (body_accepts_iff (fun _ _ _ session => (.ok [], session))
    (r := start paragraphTokens ⟨[], ⟨0, 0, 0, 0⟩, "page"⟩) scan_paragraph hKeyword hCall
    fun _ _ _ name _ => hComponent name).1.mpr ⟨hCut.rawClosed, fun other hOther => ?_⟩
  rw [← hCut.unique hOther, hBrackets]
  exact .pair "p" .nil .nil

end Rendering

end HtmlTemplate
