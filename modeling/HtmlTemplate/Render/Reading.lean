import HtmlTemplate.Render.Error
/-!
Reading tokens one after the other. A reading only moves forward: what it leaves is
an end of what it was given, also if it fails, and its type says so. That is why
rendering a template ends.
-/
namespace HtmlTemplate

/-- What came out of reading `tokens`, and the tokens that are left. -/
structure Reading.Result (α : Type) (tokens : List Token) where
  value : Except RenderError α
  rest : List Token
  forward : rest <:+ tokens

/-- A computation that reads tokens and may fail. -/
def Reading (α : Type) := (tokens : List Token) → Reading.Result α tokens

/-- The tokens without the blanks they begin with. -/
def dropBlanks (tokens : List Token) : List Token :=
  tokens.dropWhile (·.kind = .blank)

theorem dropBlanks_suffix (tokens : List Token) : dropBlanks tokens <:+ tokens :=
  List.dropWhile_suffix _

namespace Reading

/-- Goes on with a reading that depends on what an earlier one found. -/
protected def bind {α β : Type} (m : Reading α) (f : α → Reading β) : Reading β :=
  fun tokens =>
    let first := m tokens
    match first.value with
    | .ok a =>
      let second := f a first.rest
      ⟨second.value, second.rest, second.forward.trans first.forward⟩
    | .error e => ⟨.error e, first.rest, first.forward⟩

/-- A reading that takes nothing, with a known result. -/
def ofExcept {α : Type} (result : Except RenderError α) : Reading α :=
  fun tokens => ⟨result, tokens, List.suffix_refl tokens⟩

instance : Monad Reading where
  pure a := ofExcept (.ok a)
  bind := Reading.bind

/-- A reading that takes nothing and fails. -/
def fail {α : Type} (e : RenderError) : Reading α :=
  ofExcept (.error e)

/-- Takes the next token, blanks aside, which must be of a kind; the end of the
tokens is reported at `endAt`. A token of another kind is not taken. -/
def expect (endAt : Location) (kind : TokenKind) (expectation : Expectation) : Reading Token :=
  fun tokens =>
    match _left : dropBlanks tokens with
    | [] => ⟨.error (.unmet expectation "end of input" endAt), [], List.nil_suffix⟩
    | token :: rest =>
      have forward : token :: rest <:+ tokens := _left ▸ dropBlanks_suffix tokens
      if token.kind = kind then
        ⟨.ok token, rest, (List.suffix_cons token rest).trans forward⟩
      else ⟨.error (.atToken expectation token), token :: rest, forward⟩

end Reading

end HtmlTemplate
