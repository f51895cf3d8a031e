import HtmlTemplate.Markup.Tag
import HtmlTemplate.Render.Context
import HtmlTemplate.Render.Reading
/-!
One step of rendering markup: what the next token of a body asks for. A step
changes nothing but the place in the tokens and the list of what is open; work that
needs rendering of its own is handed out as a `Task`.
-/
namespace HtmlTemplate

/-- Work that is rendered one level deeper. -/
inductive Task where
  | component (component : Component) (bag : Bag)
  | content (tokens : List Token)
  | block (source : String)
  | loop (head : LoopHead) (source : String)

/-- What a token of a body asks for. `wrap` renders the content of a component's
element first and the component with it then; `close` ends the body. -/
inductive Action where
  | emit (text : List Char)
  | run (task : Task) (token : Token)
  | wrap (component : Component) (attributes : Bag) (content : List Token) (token : Token)
  | close
  | fail (error : RenderError)

/-- Something open, and the token that opened it. -/
structure Pending where
  opener : Opener
  token : Token

def Pending.isParen (p : Pending) : Bool :=
  p.opener = .paren

/-- A template, or a piece of markup, in the course of being rendered: all of its
tokens, those still to come, what the body at hand has opened, and what was open when
it began, both innermost first. A premature end of the tokens is reported at
`endLocation`. -/
structure Rendering where
  tokens : List Token
  rest : List Token
  opened : List Pending
  outer : List Pending
  context : Context
  endLocation : Location

namespace Rendering

/-- Rendering before its first step. It ends where the last token does, or at the
beginning of the file if there is none. -/
def start (tokens : List Token) (context : Context) : Rendering where
  tokens
  rest := tokens
  opened := []
  outer := []
  context
  endLocation := (tokens.getLast?.map Token.location).getD ⟨context.file, 1, 1⟩

/-- Begins a body: what is open now was opened outside of it. -/
def enter (r : Rendering) : Rendering :=
  { r with opened := [], outer := r.opened ++ r.outer }

/-- Does a reading at the current place. -/
def read {α : Type} (r : Rendering) (m : Reading α) : Except RenderError α × Rendering :=
  let result := m r.rest
  (result.value, { r with rest := result.rest })

theorem read_rest_suffix {α : Type} (r : Rendering) (m : Reading α) :
    (r.read m).2.rest <:+ r.rest :=
  (m r.rest).forward

end Rendering

/-- The block behind a following `@else`, and the tokens after it. Blanks count as
passed only if an `@else` follows them, and blanks behind it only if a block
does. -/
def splitElse (tokens : List Token) : Option String × List Token :=
  match dropBlanks tokens with
  | [] => (none, tokens)
  | token :: rest =>
    if token.kind = .keyword .elseBranch then
      match dropBlanks rest with
      | [] => (none, rest)
      | block :: after => if block.kind = .block then (some block.value, after) else (none, rest)
    else (none, tokens)

theorem splitElse_suffix (tokens : List Token) : (splitElse tokens).2 <:+ tokens := by
  have first := dropBlanks_suffix tokens
  unfold splitElse
  split
  · exact List.suffix_refl _
  · next token rest left =>
    rw [left] at first
    have rest_suffix := (List.suffix_cons token rest).trans first
    split
    · have second := dropBlanks_suffix rest
      split
      · exact rest_suffix
      · next block after found =>
        rw [found] at second
        split
        · exact ((List.suffix_cons block after).trans second).trans rest_suffix
        · exact rest_suffix
    · exact List.suffix_refl _

/-- The alternative of a branch, if it has one. -/
def readElse : Reading (Option String) :=
  fun tokens => ⟨.ok (splitElse tokens).1, (splitElse tokens).2, splitElse_suffix tokens⟩

/-- Reads what follows `@if` and chooses the block to render. The condition is
evaluated before the block is looked for. -/
def readBranch (session : Session) (context : Context) (endAt : Location) (keyword : Token) :
    Reading Action := do
  let condition ← Reading.expect endAt .condition .condition
  let holds ← Reading.ofExcept <|
    match context.conditionHolds session condition.value with
    | .ok holds => .ok holds
    | .error e => .error (.ofEval e condition.location)
  let block ← Reading.expect endAt .block .branchBlock
  let alternative ← readElse
  match if holds then some block.value else alternative with
  | some source => return .run (.block source) keyword
  | none => return .emit []

/-- Reads what follows `@each`. -/
def readLoop (context : Context) (endAt : Location) (keyword : Token) : Reading Action := do
  let token ← Reading.expect endAt .each .loopHead
  let head ← Reading.ofExcept (context.loopHead token)
  let block ← Reading.expect endAt .block .loopBlock
  return .run (.loop head block.value) keyword

/-- Whether a token closes an element of a name, the case of the name ignored. -/
def Token.closesRaw (t : Token) (name : List Char) : Bool :=
  t.kind = .closingTag && (closingName? t.value.toList).any (Text.sameIgnoringCase name)

/-- The text up to and including the tag that closes a raw element, and the tokens
behind it. -/
def splitRaw? (name : List Char) : List Token → Option (List Char × List Token)
  | [] => none
  | t :: rest =>
    if t.closesRaw name then some (t.value.toList, rest)
    else (splitRaw? name rest).map fun (text, after) => (t.value.toList ++ text, after)

theorem splitRaw?_suffix {name text : List Char} {tokens after : List Token}
    (h : splitRaw? name tokens = some (text, after)) : after <:+ tokens := by
  induction tokens generalizing text with
  | nil => simp [splitRaw?] at h
  | cons t rest ih =>
    unfold splitRaw? at h
    split at h
    · simp only [Option.some.injEq, Prod.mk.injEq] at h
      exact h.2 ▸ List.suffix_cons t rest
    · simp only [Option.map_eq_some_iff, Prod.mk.injEq] at h
      obtain ⟨⟨inner, last⟩, found, _, rfl⟩ := h
      exact (ih found).trans (List.suffix_cons t rest)

theorem splitContent?_suffix {name : String} {depth : Nat} {tokens content after : List Token}
    (h : splitContent? name depth tokens = some (content, after)) : after <:+ tokens := by
  obtain ⟨t, _, rfl⟩ := splitContent?_eq_some h
  exact (List.suffix_cons t after).trans (List.suffix_append content _)

/-- What has no place in markup, and why. Such a token is not taken. -/
def TokenKind.misplaced? : TokenKind → Option Expectation
  | .keyword .ifBranch | .keyword .eachItem => none
  | .keyword .elseBranch => some .branchBefore
  | .keyword k => some (.markup (some k))
  | .condition | .each | .block => some (.markup none)
  | _ => none

namespace Rendering

/-- A closing parenthesis. It closes the innermost parenthesis, or the body of
`serve` if nothing has been opened in it; any other is text. -/
def closeParen (r : Rendering) (serve : Bool) (token : Token) : Action × Rendering :=
  match r.opened, r.outer with
  | p :: below, _ =>
    if p.isParen then (.emit token.value.toList, { r with opened := below })
    else (.emit token.value.toList, r)
  | [], p :: below =>
    if serve && p.isParen then (.close, { r with outer := below })
    else (.emit token.value.toList, r)
  | [], [] => (.emit token.value.toList, r)

/-- A tag that opens an element. The content of raw elements is copied and that of
components is set aside. -/
def openElement (r : Rendering) (session : Session) (token : Token) : Action × Rendering :=
  match tagParts? token.value.toList with
  | none => (.emit token.value.toList, r)
  | some (name, attributes) =>
    let element := String.ofList name
    if isRawElement element then
      match splitRaw? name r.rest with
      | some (text, after) => (.emit (token.value.toList ++ text), { r with rest := after })
      | none => (.fail (.template (.unclosedRaw element) token.location), { r with rest := [] })
    else
      match session.component? r.context.scopes element with
      | some component =>
        match splitContent? element 0 r.rest with
        | some (content, after) =>
          (.wrap component (attributeBag r.context.bag attributes) content token,
            { r with rest := after })
        | none => (.fail (.template (.unclosedComponent element) token.location), r)
      | none =>
        if isVoidElement element then (.emit token.value.toList, r)
        else
          (.emit token.value.toList, { r with opened := ⟨.element element, token⟩ :: r.opened })

/-- A tag that closes an element. Parentheses still open within the element were
text. -/
def closeElement (r : Rendering) (token : Token) : Action × Rendering :=
  match closingName? token.value.toList with
  | none => (.emit token.value.toList, r)
  | some name =>
    let element := String.ofList name
    match r.opened.dropWhile Pending.isParen with
    | [] => (.fail (.template (.unopenedClosing element) token.location), { r with opened := [] })
    | p :: below =>
      let r := { r with opened := below }
      if p.opener = .element element then (.emit token.value.toList, r)
      else (.fail (.template (.mismatchedClosing p.opener element) token.location), r)

/-- A tag that closes itself. -/
def closedElement (r : Rendering) (session : Session) (token : Token) : Action :=
  match tagParts? token.value.toList with
  | none => .emit token.value.toList
  | some (name, attributes) =>
    match session.component? r.context.scopes (String.ofList name) with
    | some component =>
      .run (.component component (attributeBag r.context.bag attributes)) token
    | none => .emit token.value.toList

/-- Does a reading whose result is an action. -/
def readAction (r : Rendering) (m : Reading Action) : Action × Rendering :=
  match r.read m with
  | (.ok action, r) => (action, r)
  | (.error e, r) => (.fail e, r)

/-- What a token asks for, with the place behind it. The body is that of `serve`
if `serve` says so. -/
def step (r : Rendering) (session : Session) (serve : Bool) (token : Token) :
    Action × Rendering :=
  match token.kind with
  | .openParen =>
    (.emit token.value.toList, { r with opened := ⟨.paren, token⟩ :: r.opened })
  | .closeParen => r.closeParen serve token
  | .openingTag => r.openElement session token
  | .closingTag => r.closeElement token
  | .selfClosingTag => (r.closedElement session token, r)
  | .call =>
    match r.context.callText session token with
    | .ok text => (.emit text, r)
    | .error e => (.fail e, r)
  | .keyword .ifBranch => r.readAction (readBranch session r.context r.endLocation token)
  | .keyword .eachItem => r.readAction (readLoop r.context r.endLocation token)
  | _ => (.emit token.value.toList, r)

theorem closeParen_rest (r : Rendering) (serve : Bool) (token : Token) :
    (r.closeParen serve token).2.rest = r.rest := by
  unfold closeParen
  split
  · split <;> rfl
  · split <;> rfl
  · rfl

theorem closeElement_rest (r : Rendering) (token : Token) :
    (r.closeElement token).2.rest = r.rest := by
  unfold closeElement
  split
  · rfl
  · dsimp only
    split
    · rfl
    · split <;> rfl

theorem openElement_rest_suffix (r : Rendering) (session : Session) (token : Token) :
    (r.openElement session token).2.rest <:+ r.rest := by
  unfold openElement
  split
  · exact List.suffix_refl _
  · dsimp only
    split
    · split
      · next found => exact splitRaw?_suffix found
      · exact List.nil_suffix
    · split
      · split
        · next found => exact splitContent?_suffix found
        · exact List.suffix_refl _
      · split <;> exact List.suffix_refl _

theorem readAction_rest_suffix (r : Rendering) (m : Reading Action) :
    (r.readAction m).2.rest <:+ r.rest := by
  have moved := r.read_rest_suffix m
  unfold readAction
  split <;> next found => rw [found] at moved; exact moved

/-- A step only moves forward. -/
theorem step_rest_suffix (r : Rendering) (session : Session) (serve : Bool)
    (token : Token) : (r.step session serve token).2.rest <:+ r.rest := by
  unfold step
  split
  · exact List.suffix_refl _
  · exact r.closeParen_rest serve token ▸ List.suffix_refl _
  · exact r.openElement_rest_suffix session token
  · exact r.closeElement_rest token ▸ List.suffix_refl _
  · exact List.suffix_refl _
  · split <;> exact List.suffix_refl _
  · exact r.readAction_rest_suffix _
  · exact r.readAction_rest_suffix _
  · exact List.suffix_refl _

end Rendering

end HtmlTemplate
