import HtmlTemplate.Proofs.Assets.Frames
import HtmlTemplate.Proofs.Render.Reading

/-! What is read and what is asked for before anything is linked. No part of it fails for
want of a head, a statement registers a path with its extension, and the components that
are asked for are known to the session. -/
namespace HtmlTemplate

/-- A failure to link files for want of a head. -/
def RenderError.IsMissingHead : RenderError → Prop
  | .runtime (.missingHead _) _ => True
  | _ => False

theorem not_isMissingHead_ofEval (e : EvalError) (location : Location) :
    ¬(RenderError.ofEval e location).IsMissingHead := by
  unfold RenderError.ofEval
  split <;> exact id

/-- A value with a property, or an error other than the want of a head. -/
def Clean {α : Type} (P : α → Prop) : Except RenderError α → Prop
  | .ok a => P a
  | .error e => ¬e.IsMissingHead

section

variable {α β : Type} {P : α → Prop} {Q : β → Prop} {x : Except RenderError α}

theorem Clean.map {f : α → β} (h : Clean P x) (hMap : ∀ a, P a → Q (f a)) : Clean Q (x.map f) := by
  cases x with
  | error e => exact h
  | ok a => exact hMap a h

theorem Clean.not_isMissingHead (h : Clean P x) {e : RenderError} (hError : x = .error e) :
    ¬e.IsMissingHead := by
  subst hError
  exact h

end

namespace Reading

variable {α β : Type} {P : α → Prop} {Q : β → Prop}

/-- A reading that finds values with a property and does not fail for want of a head. -/
def Clean (P : α → Prop) (m : Reading α) : Prop :=
  ∀ tokens, HtmlTemplate.Clean P (m tokens).value

theorem Clean.bind {m : Reading α} {f : α → Reading β} (h : m.Clean P)
    (hNext : ∀ a, P a → (f a).Clean Q) : (m >>= f).Clean Q := by
  intro tokens
  have hFirst := h tokens
  rw [bind_eq]
  unfold Reading.bind
  dsimp only
  split
  · next a hValue =>
    rw [hValue] at hFirst
    exact hNext a hFirst (m tokens).rest
  · next e hValue =>
    rw [hValue] at hFirst
    exact hFirst

theorem clean_ofExcept {x : Except RenderError α} (h : HtmlTemplate.Clean P x) :
    (ofExcept x).Clean P :=
  fun _ => h

theorem clean_pure {a : α} (h : P a) : (pure a : Reading α).Clean P :=
  fun _ => h

theorem clean_fail {e : RenderError} (h : ¬e.IsMissingHead) : (fail e : Reading α).Clean P :=
  fun _ => h

theorem clean_expect (endAt : Location) (kind : TokenKind) (expectation : Expectation) :
    (expect endAt kind expectation).Clean fun _ => True := by
  intro tokens
  unfold expect
  split
  · exact id
  · dsimp only
    split
    · trivial
    · exact id

end Reading

namespace Setup

/-- A statement registers a path as it is written, with its extension. -/
def Normalized : Setup → Prop
  | .linkAsset kind path => ∃ written : String, isAssetPath written.toList = true ∧
      path = withAssetExtension written kind.extension
  | _ => True

variable (endAt : Location)

theorem clean_readUse : (readUse endAt).Clean Normalized := by
  unfold readUse
  refine (Reading.clean_expect endAt _ _).bind fun name _ => ?_
  split
  · exact Reading.clean_pure trivial
  · exact Reading.clean_fail id

theorem clean_readImport : (readImport endAt).Clean Normalized := by
  unfold readImport
  refine (Reading.clean_expect endAt _ _).bind fun name _ => ?_
  refine (Reading.clean_expect endAt _ _).bind fun _ _ => ?_
  refine (Reading.clean_expect endAt _ _).bind fun literal _ => ?_
  split
  · exact Reading.clean_pure trivial
  · exact Reading.clean_fail id

theorem clean_readAsset (kind : AssetKind) : (readAsset endAt kind).Clean Normalized := by
  unfold readAsset
  refine (Reading.clean_expect endAt _ _).bind fun literal _ => ?_
  split
  · next path hPath =>
    refine Reading.clean_pure ⟨String.ofList path, ?_, rfl⟩
    rw [String.toList_ofList]
    exact (Option.filter_eq_some_iff.mp hPath).2
  · exact Reading.clean_fail id

theorem clean_readParams (names : List String) : (readParams endAt names).Clean fun _ => True := by
  intro tokens
  induction tokens generalizing names with
  | nil =>
      unfold readParams
      exact id
  | cons token rest ih =>
      unfold readParams
      dsimp only
      split
      · trivial
      · exact ih _
      · exact ih _
      · split
        · exact ih _
        · exact id
      · exact id

theorem clean_readFunction : (readFunction endAt).Clean Normalized := by
  unfold readFunction
  refine (Reading.clean_expect endAt _ _).bind fun name _ => ?_
  split
  · exact Reading.clean_fail id
  · refine (Reading.clean_expect endAt _ _).bind fun _ _ => ?_
    refine (clean_readParams endAt []).bind fun params _ => ?_
    refine (Reading.clean_expect endAt _ _).bind fun body _ => ?_
    split
    · exact Reading.clean_pure trivial
    · exact Reading.clean_fail id

/-- All setup statements are so. -/
theorem clean_reader {keyword : Keyword} {reader : Reading Setup}
    (h : reader? endAt keyword = some reader) : reader.Clean Normalized := by
  cases keyword with
  | useModule => exact Option.some.inj h ▸ clean_readUse endAt
  | asName => exact Option.some.inj h ▸ clean_readImport endAt
  | linkPath => exact Option.some.inj h ▸ clean_readAsset endAt .stylesheet
  | importPath => exact Option.some.inj h ▸ clean_readAsset endAt .script
  | function => exact Option.some.inj h ▸ clean_readFunction endAt
  | _ => cases h

/-- Carrying out a statement does not fail for want of a head. -/
theorem clean_run (resolve : Resolver) (context : Context) (session : Session)
    (statement : Setup) : Clean (fun _ => True) (statement.run resolve context session).1 := by
  cases statement with
  | importComponent name path location =>
      unfold run defineComponent
      dsimp only
      split
      · trivial
      · split
        · exact id
        · split
          · exact id
          · trivial
  | _ => trivial

end Setup

/-- A task for a component of the session, or for something else. -/
def Task.Fits (session : Session) : Task → Prop
  | .component k _ => session.Knows k
  | _ => True

theorem Task.Fits.grows {task : Task} {session after : Session} (h : task.Fits session)
    (hGrows : session.Grows after) : task.Fits after := by
  cases task with
  | component k bag => exact hGrows.knows h
  | _ => trivial

/-- An action that asks for components of the session and does not fail for want of a
head. -/
def Action.Fits (session : Session) : Action → Prop
  | .run task _ => task.Fits session
  | .wrap k _ _ _ => session.Knows k
  | .fail e => ¬e.IsMissingHead
  | _ => True

section

variable {session : Session} {context : Context}

theorem Session.knows_of_component? {scopes : Scopes} {name : String} {k : Component}
    (h : session.component? scopes name = some k) : session.Knows k := by
  obtain ⟨holder, hBound⟩ := session.components.exists_of_lookup? h
  exact ⟨holder, name, hBound⟩

theorem clean_readBranch (endAt : Location) (keyword : Token) :
    (readBranch session context endAt keyword).Clean (Action.Fits session) := by
  unfold readBranch
  refine (Reading.clean_expect endAt _ _).bind fun condition _ => ?_
  refine Reading.Clean.bind (Reading.clean_ofExcept (P := fun _ => True) ?_) fun holds _ => ?_
  · split
    · trivial
    · exact not_isMissingHead_ofEval _ _
  · refine (Reading.clean_expect endAt _ _).bind fun block _ => ?_
    refine Reading.Clean.bind (P := fun _ => True) (fun _ => trivial) fun alternative _ => ?_
    split
    · exact Reading.clean_pure trivial
    · exact Reading.clean_pure trivial

theorem clean_loopHead (context : Context) (token : Token) :
    Clean (fun _ => True) (context.loopHead token) := by
  unfold Context.loopHead
  dsimp only
  split
  · exact id
  · split
    · exact id
    · split
      · exact id
      · split
        · trivial
        · exact id

theorem clean_readLoop (endAt : Location) (keyword : Token) :
    (readLoop context endAt keyword).Clean (Action.Fits session) := by
  unfold readLoop
  refine (Reading.clean_expect endAt _ _).bind fun token _ => ?_
  refine (Reading.clean_ofExcept (clean_loopHead context token)).bind fun head _ => ?_
  refine (Reading.clean_expect endAt _ _).bind fun block _ => ?_
  exact Reading.clean_pure trivial

theorem clean_callText (context : Context) (session : Session) (token : Token) :
    Clean (fun _ => True) (context.callText session token) := by
  unfold Context.callText
  dsimp only
  split
  · exact id
  · split
    · trivial
    · exact not_isMissingHead_ofEval _ _

namespace Rendering

variable (r : Rendering)

theorem clean_read {α : Type} {P : α → Prop} {m : Reading α} (h : m.Clean P) :
    Clean P (r.read m).1 :=
  h r.rest

theorem readAction_fits {m : Reading Action} (h : m.Clean (Action.Fits session)) :
    (r.readAction m).1.Fits session := by
  have hFound := r.clean_read h
  unfold readAction
  split <;> next found => rw [found] at hFound; exact hFound

theorem closeParen_fits (serve : Bool) (token : Token) :
    (r.closeParen serve token).1.Fits session := by
  unfold closeParen
  split
  · split <;> trivial
  · split <;> trivial
  · trivial

theorem openElement_fits (session : Session) (token : Token) :
    (r.openElement session token).1.Fits session := by
  unfold openElement
  split
  · trivial
  · dsimp only
    split
    · split
      · trivial
      · exact id
    · split
      · next k hFound =>
        split
        · exact Session.knows_of_component? hFound
        · exact id
      · split <;> trivial

theorem closeElement_fits (token : Token) : (r.closeElement token).1.Fits session := by
  unfold closeElement
  split
  · trivial
  · dsimp only
    split
    · exact id
    · split
      · trivial
      · exact id

theorem closedElement_fits (session : Session) (token : Token) :
    (r.closedElement session token).Fits session := by
  unfold closedElement
  split
  · trivial
  · split
    · next k hFound => exact Session.knows_of_component? hFound
    · trivial

/-- What a token asks for. -/
theorem step_fits (session : Session) (serve : Bool) (token : Token) :
    (r.step session serve token).1.Fits session := by
  unfold step
  split
  · trivial
  · exact r.closeParen_fits serve token
  · exact r.openElement_fits session token
  · exact r.closeElement_fits token
  · exact r.closedElement_fits session token
  · have hCall := clean_callText r.context session token
    split <;> next found => rw [found] at hCall; exact hCall
  · exact r.readAction_fits (clean_readBranch r.endLocation token)
  · exact r.readAction_fits (clean_readLoop r.endLocation token)
  · trivial

theorem clean_finish (serve : Bool) : Clean (fun _ => True) (r.finish serve).1 := by
  unfold finish
  split
  · exact id
  · split
    · exact id
    · trivial

theorem clean_openServe : Clean (fun _ => True) r.openServe.1 := by
  have hParen := r.clean_read (Reading.clean_expect r.endLocation .openParen .serveParen)
  unfold openServe
  split <;> next found => rw [found] at hParen; exact hParen

end Rendering

end

end HtmlTemplate
