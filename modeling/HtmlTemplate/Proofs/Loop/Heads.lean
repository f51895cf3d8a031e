import HtmlTemplate.Proofs.Data.Paths
import HtmlTemplate.Proofs.Render.Branching
import HtmlTemplate.Proofs.Render.Copying
import HtmlTemplate.Proofs.Source.Enclosing
import HtmlTemplate.Proofs.Source.Iteration
import HtmlTemplate.Proofs.Source.Spaces

/-! The head of a loop, `(path:binding)`, from the markup it stands in to the array that is gone
over. The scanner takes the head up to the parenthesis that closes it, quoted texts aside; the
head is then cut at its first colon, whether that is quoted or not. So the paths a loop goes over
are those that parentheses enclose and that hold no colon. -/
namespace HtmlTemplate

namespace Text

theorem splitFirst?_of_not_mem {c : Char} {before : List Char} (h : c ∉ before)
    (after : List Char) : splitFirst? [c] (before ++ c :: after) = some (before, after) := by
  induction before with
  | nil => simp [splitFirst?, dropPrefix?]
  | cons d rest ih =>
      obtain ⟨hFirst, hRest⟩ := List.ne_and_not_mem_of_not_mem_cons h
      rw [List.cons_append, splitFirst?]
      simp [dropPrefix?, hFirst, ih hRest]

theorem mem_dropWhile {p : Char → Bool} {c : Char} {text : List Char} (hMem : c ∈ text)
    (hKept : p c = false) : c ∈ text.dropWhile p := by
  rw [← List.takeWhile_append_dropWhile (p := p) (l := text), List.mem_append] at hMem
  refine hMem.resolve_left fun hTaken => ?_
  rw [List.mem_takeWhile_imp hTaken] at hKept
  cases hKept

/-- Trimming takes nothing but blanks away. -/
theorem mem_trim {c : Char} {text : List Char} (hMem : c ∈ text) (hSolid : isBlank c = false) :
    c ∈ trim text := by
  have hStart := mem_dropWhile hMem hSolid
  exact List.mem_reverse.mpr (mem_dropWhile (List.mem_reverse.mpr hStart) hSolid)

end Text

/-- A name that a loop may bind: a word, but not the name of the loop's index. -/
structure IsBindingName (name : List Char) : Prop where
  nonempty : name ≠ []
  word : name.all Source.isWordChar = true
  free : String.ofList name ≠ loopIndexName

namespace Context

/-- The loop over the value of a path, if this is an array. -/
def headOver (context : Context) (path binding : List Char) (place : Location) :
    Except RenderError LoopHead :=
  match context.bag.lookup? (String.ofList path) with
  | some (.array items) => .ok ⟨items, String.ofList binding⟩
  | found => .error (.runtime (.notAnArray ((found.map Data.typeOf).getD "undefined")) place)

variable {context : Context} {inner path binding : List Char} {token : Token}

/-- A head is cut at its first colon. -/
theorem loopHead_eq (hValue : token.value.toList = '(' :: (path ++ ':' :: binding ++ [')']))
    (hPath : ':' ∉ path) (hBinding : IsBindingName binding) :
    context.loopHead token = context.headOver path binding token.location := by
  have hSolid : ∀ c ∈ binding, Text.isBlank c = false := fun c hMem =>
    Source.isBlank_of_isNameChar (by
      simp [Source.isNameChar, List.all_eq_true.mp hBinding.word c hMem])
  have hTrim : Text.trim binding = binding := Text.trim_eq_self_iff.mpr
    ⟨fun c h => hSolid c (List.mem_of_mem_head? h), fun c h => hSolid c (List.mem_of_getLast? h)⟩
  unfold loopHead headOver
  rcases hFound : context.bag.lookup? (String.ofList path) with _ | (_ | _ | _ | _ | _ | _) <;>
    simp only [insideParens?_eq_some.mpr hValue, Option.getD_some, hFound,
      Text.splitFirst?_of_not_mem hPath, hTrim, if_neg hBinding.free, hBinding.nonempty,
      hBinding.word, decide_false, Bool.not_true, Bool.or_self, Bool.false_eq_true, if_false]

/-- Where a head is read as far as its path, no second colon stands behind the first: it would
belong to the name to bind. -/
theorem colons_of_loopHead {fault : RuntimeFault} {place : Location}
    (hValue : token.value.toList = '(' :: (inner ++ [')']))
    (h : context.loopHead token = .error (.runtime fault place)) :
    ∃ path binding, inner = path ++ ':' :: binding ∧ ':' ∉ path ∧ ':' ∉ binding := by
  unfold loopHead at h
  simp only [insideParens?_eq_some.mpr hValue, Option.getD_some] at h
  split at h
  · cases h
  · next path binding hSplit =>
    have hPath : ':' ∉ path := by
      intro hMem
      obtain ⟨front, back, rfl⟩ := List.append_of_mem hMem
      exact Source.not_infix_of_splitFirst? (by simp) hSplit ⟨front, back, by simp⟩
    refine ⟨path, binding, Text.splitFirst?_eq_some hSplit, hPath, fun hMem => ?_⟩
    have hWord : (Text.trim binding).all Source.isWordChar = false := by
      rw [List.all_eq_false]
      exact ⟨':', Text.mem_trim hMem (by decide), by decide⟩
    simp only [hWord, Bool.not_false, Bool.or_true, if_true] at h
    split at h <;> cases h

end Context

namespace Iteration

/-- What the scanner finds in a loop with an empty block and nothing behind it, if it takes all
of this in one step: its head is what its parentheses enclose. -/
structure Taken (head : List Char) (word range body : Token) : Prop where
  encloses : Source.parens.Encloses head
  word_kind : word.kind = .keyword .eachItem
  range_kind : range.kind = .each
  range_value : range.value.toList = '(' :: (Source.dropSpaces none head ++ [')'])
  body_kind : body.kind = .block

theorem inj_of_not_mem_behind {α : Type} {a : α} {front other behind rest : List α}
    (h : front ++ a :: behind = other ++ a :: rest) (hBehind : a ∉ behind) (hRest : a ∉ rest) :
    front = other := by
  obtain ⟨more, rfl, hMore⟩ | ⟨more, rfl, hMore⟩ := List.append_eq_append_iff.mp h
  · cases more with
    | nil => exact (List.append_nil front).symm
    | cons c more =>
        obtain ⟨-, rfl⟩ := List.cons.inj hMore
        exact absurd (List.mem_append_right more List.mem_cons_self) hBehind
  · cases more with
    | nil => exact List.append_nil other
    | cons c more =>
        obtain ⟨-, rfl⟩ := List.cons.inj hMore
        exact absurd (List.mem_append_right more List.mem_cons_self) hRest

/-- An empty block with nothing behind it is a pair of braces, and white space in front of it. -/
theorem eq_braces_of_scanOptionalBlock {file : String} {c after : Cursor} {body : Token}
    (h : Source.scanOptionalBlock file .markup c = .ok ([body], after)) (hBlock : body.value = "")
    (hAfter : after.rest = []) :
    body.kind = .block ∧ c.rest.dropWhile Source.isSpace = ['\x7b', '\x7d'] := by
  unfold Source.scanOptionalBlock at h
  dsimp only at h
  rw [Cursor.rest_skipWhile] at h
  split at h
  · next hOpening =>
    obtain ⟨rest, hRest⟩ := List.head?_eq_some_iff.mp hOpening
    obtain ⟨⟨token, last⟩, hScan, hSame⟩ := map_eq_ok.mp h
    cases hSame
    unfold Source.scanBlock at hScan
    rw [Cursor.rest_skipWhile, hRest, List.drop_one, List.tail_cons] at hScan
    split at hScan
    · cases hScan
    · next taken hTaken =>
      cases hScan
      obtain ⟨inner, rfl⟩ := Source.enclosed?_last hTaken
      obtain ⟨behind, rfl⟩ := Source.enclosed?_prefix hTaken
      have hInner : inner = [] := by simpa [Cursor.token] using hBlock
      have hBehind : behind = [] := by
        simpa [Cursor.token, Cursor.rest_skip, Cursor.rest_skipWhile, hRest] using hAfter
      exact ⟨rfl, by rw [hRest, hInner, hBehind]; rfl⟩
  · cases h

/-- A head is what its parentheses enclose, without the white space outside of quoted texts. -/
theorem eq_enclosed_of_scanHead {file : String} {keyword : Keyword} {kind : TokenKind}
    {c after : Cursor} {token : Token} {text : List Char}
    (h : Source.scanHead file keyword kind c = .ok (token, after))
    (hRest : c.rest.dropWhile Source.isSpace = '(' :: text) :
    ∃ inner, text = inner ++ ')' :: after.rest ∧ Source.parens.Encloses inner ∧
      token.kind = kind ∧ token.value.toList = '(' :: (Source.dropSpaces none inner ++ [')']) := by
  unfold Source.scanHead at h
  dsimp only at h
  rw [Cursor.rest_skipWhile, hRest, List.head?_cons, if_pos rfl, List.drop_one, List.tail_cons] at h
  split at h
  · cases h
  · next taken hTaken =>
    cases h
    obtain ⟨inner, rfl⟩ := Source.enclosed?_last hTaken
    obtain ⟨behind, rfl⟩ := Source.enclosed?_prefix hTaken
    have hAgain := Source.enclosed?_append hTaken []
    rw [List.append_nil] at hAgain
    refine ⟨inner, ?_, hAgain, rfl, ?_⟩
    · simp [Cursor.rest_skip, Cursor.rest_skipWhile, hRest, Source.parens]
    · rw [← Source.dropSpaces_concat (by simp) (by decide)]
      simp [Source.parens]

theorem taken_of_scanStep {file : String} {head : List Char} {c after : Cursor} {mode : ScanMode}
    {word range body : Token} (hRest : c.rest = (Iteration.mk [] head [] []).text)
    (h : Source.scanStep file .markup '@' c = .ok ⟨[word, range, body], mode, after⟩)
    (hBlock : body.value = "") (hAfter : after.rest = []) : Taken head word range body := by
  have hSplit : c.rest = "@each".toList ++ ([] ++ '(' :: (head ++ ')' :: ['\x7b', '\x7d'])) := by
    rw [hRest]
    simp [text]
  rw [scanStep_each file rfl hSplit] at h
  unfold Source.scanHeaded at h
  dsimp only at h
  obtain ⟨⟨range, middle⟩, hHead, h⟩ := bind_eq_ok.mp h
  obtain ⟨⟨block, last⟩, hOptional, h⟩ := bind_eq_ok.mp h
  cases h
  obtain ⟨hBodyKind, hBraces⟩ := eq_braces_of_scanOptionalBlock hOptional hBlock hAfter
  have hWord : (Source.scanKeyword file .eachItem c).2.rest.dropWhile Source.isSpace =
      '(' :: (head ++ ')' :: ['\x7b', '\x7d']) := by
    rw [show (Source.scanKeyword file .eachItem c).2.rest = _ from Cursor.rest_skip_length hSplit]
    rfl
  obtain ⟨inner, hInner, hEncloses, hKind, hValue⟩ := eq_enclosed_of_scanHead hHead hWord
  have hNone : ')' ∉ middle.rest := by
    intro hMem
    have hKept := Text.mem_dropWhile (p := Source.isSpace) hMem (by decide)
    rw [hBraces] at hKept
    exact absurd hKept (by decide)
  obtain rfl := inj_of_not_mem_behind hInner (by decide) hNone
  exact ⟨hEncloses, rfl, hKind, hValue, hBodyKind⟩

end Iteration

namespace Rendering

/-- How a walk goes on from a piece of work: behind the text it gave, or not at all. -/
def goOn (nested : Nested) (serve : Bool) (r : Rendering) :
    Except RenderError (List Char) × Session → Except RenderError (List Char) × Rendering × Session
  | (.ok text, session) => prepend text (walk nested serve r session)
  | (.error e, session) => (.error e, r, session)

theorem readAction_of_breaks {r : Rendering} {m : Reading Action} {e : RenderError}
    {behind : List Token} (h : m.Breaks r.rest e behind) :
    r.readAction m = (.fail e, r.moveTo behind) := by
  obtain ⟨hValue, rfl⟩ := h
  have hRead : r.read m = (.error e, r.moveTo (m r.rest).rest) := Prod.ext hValue rfl
  unfold readAction
  rw [hRead]

/-- The walk at a loop: its head is read, then its block is rendered for the items. -/
theorem walk_loop (nested : Nested) (serve : Bool) {r : Rendering} (session : Session)
    {word range body : Token} {more : List Token} (hRest : r.rest = word :: range :: body :: more)
    (hWord : word.kind = .keyword .eachItem) (hRange : range.kind = .each)
    (hBody : body.kind = .block) :
    walk nested serve r session =
      match r.context.loopHead range with
      | .ok head =>
        (r.moveTo more).goOn nested serve (nested r.context (.loop head body.value) word session)
      | .error e => (.error e, r.moveTo (body :: more), session) := by
  have hPlaced : word.kind.misplaced? = none := by rw [hWord]; rfl
  let opened := r.moveTo (range :: body :: more)
  have hStep : opened.step session serve word =
      opened.readAction (readLoop r.context r.endLocation word) := by
    unfold step
    rw [hWord]
    rfl
  have hHead : (Reading.expect r.endLocation .each .loopHead).Finds opened.rest range (body :: more) :=
    .expect hRange nofun
  cases hFound : r.context.loopHead range with
  | error e =>
      have hBreaks : (readLoop r.context r.endLocation word).Breaks opened.rest e (body :: more) :=
        hHead.breaks (.bind ⟨hFound, rfl⟩)
      rw [readAction_of_breaks hBreaks] at hStep
      exact walk_of_error hRest hPlaced hStep rfl
  | ok head =>
      have hFinds : (readLoop r.context r.endLocation word).Finds opened.rest
          (.run (.loop head body.value) word) more :=
        .bind hHead (.bind (.ofExcept hFound) (.bind (.expect hBody nofun) ⟨rfl, rfl⟩))
      rw [readAction_of_finds hFinds] at hStep
      dsimp only
      cases hDone : nested r.context (.loop head body.value) word session with
      | mk result final =>
          cases result with
          | ok text => exact walk_of_ok hRest hPlaced hStep hDone rfl
          | error e => exact walk_of_error hRest hPlaced hStep hDone

end Rendering

/-- The loop over a path: however it is spaced and whatever its block is, the scanner takes
`@each (path:binding) \x7bblock\x7d` in one step, and then, if the path leads to an array, the block is
rendered for exactly its items, and if it does not, the rendering fails for want of an array. -/
def LoopsOver (path binding : List Char) : Prop :=
  ∀ (file : String) (l : Iteration) (c : Cursor) (behind : List Char),
    l.head = path ++ ':' :: binding → l.blanks.all Source.isSpace = true →
    l.gap.all Source.isSpace = true → BracesBalanced l.block → c.rest = l.text ++ behind →
    ∃ word range body after,
      Source.scanStep file .markup '@' c = .ok ⟨[word, range, body], .markup, after⟩ ∧
      after.rest = behind ∧ body.value = String.ofList l.block ∧
      ∀ (nested : Nested) (serve : Bool) (r : Rendering) (session : Session) (more : List Token),
        r.rest = word :: range :: body :: more →
          Rendering.walk nested serve r session =
            match r.context.bag.lookup? (String.ofList path) with
            | some (.array items) =>
              (r.moveTo more).goOn nested serve (nested r.context
                (.loop ⟨items, String.ofList binding⟩ (String.ofList l.block)) word session)
            | found =>
              (.error (.runtime (.notAnArray ((found.map Data.typeOf).getD "undefined"))
                range.location), r.moveTo (body :: more), session)

section

variable {path binding : List Char}

theorem IsBindingName.plain (h : IsBindingName binding) : ∀ c ∈ ':' :: binding,
    Source.isSolid c = true ∧ c ≠ '(' ∧ c ≠ ')' := by
  intro c hMem
  obtain rfl | hMem := List.mem_cons.mp hMem
  · decide
  · have hWord := List.all_eq_true.mp h.word c hMem
    refine ⟨?_, by rintro rfl; exact absurd hWord (by decide),
      by rintro rfl; exact absurd hWord (by decide)⟩
    by_contra hSoft
    have hWords : Source.softChars.any Source.isWordChar = true := List.any_eq_true.mpr
      ⟨c, Source.mem_softChars c (Bool.eq_false_iff.mpr hSoft), hWord⟩
    exact absurd hWords (by decide)

theorem IsBindingName.encloses_iff (h : IsBindingName binding) :
    Source.parens.Encloses (path ++ ':' :: binding) ↔ Source.parens.Encloses path := by
  refine Source.Brackets.encloses_append_plain rfl (by decide) fun c hMem => ?_
  obtain ⟨hSolid, hOpening, hClosing⟩ := h.plain c hMem
  exact ⟨by simpa using (Bool.and_eq_true_iff.mp hSolid).2, hOpening, hClosing⟩

theorem IsBindingName.dropSpaces_head (h : IsBindingName binding)
    (hSpaces : Source.dropSpaces none path = path) :
    Source.dropSpaces none (path ++ ':' :: binding) = path ++ ':' :: binding := by
  rw [Source.dropSpaces_append_solid fun c hMem => (h.plain c hMem).1, hSpaces]

theorem loopsOver_of_path (hSpaces : Source.dropSpaces none path = path)
    (hBinding : IsBindingName binding) (hColon : ':' ∉ path)
    (hEncloses : Source.parens.Encloses path) : LoopsOver path binding := by
  intro file l c behind hHead hBlanks hGap hBlock hRest
  have hParenthesised : Parenthesised ('(' :: l.head ++ [')']) :=
    ⟨l.head, rfl, by rw [hHead]; exact hBinding.encloses_iff.mpr hEncloses⟩
  obtain ⟨tokens, after, hStep, hTokens, hAfter⟩ :=
    Iteration.scanStep_eq file ⟨hBlanks, hParenthesised, hGap, hBlock⟩ hRest
  obtain ⟨word, _, rfl, hWord, hOthers⟩ := List.map_eq_cons_iff.mp hTokens
  obtain ⟨range, _, rfl, hRange, hOthers⟩ := List.map_eq_cons_iff.mp hOthers
  obtain ⟨body, rfl, hBody⟩ := lexed_single hOthers
  obtain ⟨hWordKind, -⟩ := Prod.mk.inj hWord
  obtain ⟨hRangeKind, hRangeValue⟩ := Prod.mk.inj hRange
  obtain ⟨hBodyKind, hBodyValue⟩ := Prod.mk.inj hBody
  have hValue : range.value.toList = '(' :: (path ++ ':' :: binding ++ [')']) := by
    rw [hRangeValue, Iteration.value, String.toList_ofList, hHead,
      Source.dropSpaces_concat (by simp) (by decide), hBinding.dropSpaces_head hSpaces]
  refine ⟨word, range, body, after, hStep, hAfter, hBodyValue, ?_⟩
  intro nested serve r session more hTokensLeft
  rw [Rendering.walk_loop nested serve session hTokensLeft hWordKind hRangeKind hBodyKind,
    Context.loopHead_eq hValue hColon hBinding, Context.headOver, hBodyValue]
  cases r.context.bag.lookup? (String.ofList path) with
  | none => rfl
  | some found => cases found <;> rfl

theorem path_of_loopsOver (hSpaces : Source.dropSpaces none path = path)
    (hBinding : IsBindingName binding) (h : LoopsOver path binding) :
    ':' ∉ path ∧ Source.parens.Encloses path := by
  let l : Iteration := ⟨[], path ++ ':' :: binding, [], []⟩
  have hEmpty : BracesBalanced [] := by decide
  obtain ⟨word, range, body, after, hStep, hAfter, hBody, hWalk⟩ :=
    h "page" l (Cursor.start l.text) [] rfl rfl rfl hEmpty (List.append_nil _).symm
  have hTaken := Iteration.taken_of_scanStep rfl hStep hBody hAfter
  have hValue := hTaken.range_value
  rw [hBinding.dropSpaces_head hSpaces] at hValue
  refine ⟨?_, hBinding.encloses_iff.mp hTaken.encloses⟩
  -- a rendering without parameters gets as far as looking for the array
  let bare : Context := ⟨[], ⟨0, 0, 0, 0⟩, "page"⟩
  have hHere := hWalk (fun _ _ _ session => (.error (.runtime (.tooDeep 0) word.location), session))
    false (Rendering.start [word, range, body] bare) (Session.start 0) [] rfl
  rw [Rendering.walk_loop _ _ _ rfl hTaken.word_kind hTaken.range_kind hTaken.body_kind] at hHere
  have hNone : bare.bag.lookup? (String.ofList path) = none := by
    unfold Bag.lookup?
    split <;> rfl
  have hContext : (Rendering.start [word, range, body] bare).context = bare := rfl
  rw [hContext, hNone] at hHere
  have hHead : bare.loopHead range =
      .error (.runtime (.notAnArray "undefined") range.location) := by
    cases hFound : bare.loopHead range with
    | ok head =>
        rw [hFound] at hHere
        cases hHere
    | error e =>
        rw [hFound] at hHere
        cases hHere
        rfl
  obtain ⟨front, back, hSplit, hFront, hBack⟩ := Context.colons_of_loopHead hValue hHead
  have hWord : ':' ∉ binding := fun hMem =>
    absurd (List.all_eq_true.mp hBinding.word ':' hMem) (by decide)
  rwa [Iteration.inj_of_not_mem_behind hSplit hWord hBack]

/-- Of the paths without white space outside of quoted texts, a loop goes over those that hold
no colon, not even in a quoted key, and that parentheses enclose. -/
theorem loopsOver_iff (hSpaces : Source.dropSpaces none path = path)
    (hBinding : IsBindingName binding) :
    LoopsOver path binding ↔ ':' ∉ path ∧ Source.parens.Encloses path :=
  ⟨path_of_loopsOver hSpaces hBinding, fun h => loopsOver_of_path hSpaces hBinding h.1 h.2⟩

/-- The path `rooms["a) b"]`. -/
def quotedRooms : List Char :=
  "rooms[\"a) b\"]".toList

/-- Brackets and white space in a quoted key are kept. -/
theorem quotedRooms_loopsOver :
    Source.dropSpaces none quotedRooms = quotedRooms ∧ IsBindingName "room".toList ∧
      LoopsOver quotedRooms "room".toList := by
  have hSpaces : Source.dropSpaces none quotedRooms = quotedRooms := by decide +kernel
  have hBinding : IsBindingName "room".toList := ⟨by decide, by decide, by decide⟩
  exact ⟨hSpaces, hBinding, (loopsOver_iff hSpaces hBinding).mpr
    ⟨by decide +kernel, by decide +kernel⟩⟩

/-- The path `rooms["a:b"]`. -/
def colonRooms : List Char :=
  "rooms[\"a:b\"]".toList

/-- A quoted key with a colon leads to an array, but no loop goes over it. -/
theorem colonRooms_not_loopsOver :
    Source.parens.Encloses colonRooms ∧ Source.dropSpaces none colonRooms = colonRooms ∧
      IsBindingName "x".toList ∧
      Bag.lookup? [("rooms", .object [("a:b", .array [.string "1", .string "2"])])]
        (String.ofList colonRooms) = some (.array [.string "1", .string "2"]) ∧
      ¬ LoopsOver colonRooms "x".toList := by
  have hSpaces : Source.dropSpaces none colonRooms = colonRooms := by decide +kernel
  have hBinding : IsBindingName "x".toList := ⟨by decide, by decide, by decide⟩
  have hKeys : pathSegments (String.ofList colonRooms) = ["rooms", "a:b"] := by decide +kernel
  have hColon : ':' ∈ colonRooms := by decide +kernel
  refine ⟨by decide +kernel, hSpaces, hBinding, ?_, fun h =>
    (path_of_loopsOver hSpaces hBinding h).1 hColon⟩
  unfold Bag.lookup?
  rw [hKeys]
  rfl

end

end HtmlTemplate
