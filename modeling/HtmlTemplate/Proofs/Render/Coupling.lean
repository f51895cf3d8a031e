import HtmlTemplate.Proofs.Render.Lockstep

/-! Two renderings with the same parameters. They make the same of every text, so that of
a lockstep only what is said of sessions, scopes and components is left to be given. -/
namespace HtmlTemplate

namespace Context

variable {c d : Context} {session other : Session}

theorem environment_congr (hBag : c.bag = d.bag)
    (hFunctions : session.function? c.scopes = other.function? d.scopes) :
    c.environment session = d.environment other := by
  unfold environment
  rw [hBag, hFunctions]

theorem callText_congr (hBag : c.bag = d.bag)
    (hFunctions : session.function? c.scopes = other.function? d.scopes) (t : Token) :
    c.callText session t = d.callText other t := by
  unfold callText
  rw [environment_congr hBag hFunctions, hFunctions]

theorem conditionHolds_congr (hBag : c.bag = d.bag)
    (hFunctions : session.function? c.scopes = other.function? d.scopes) (condition : String) :
    c.conditionHolds session condition = d.conditionHolds other condition := by
  unfold conditionHolds
  rw [environment_congr hBag hFunctions]

theorem loopHead_congr (hBag : c.bag = d.bag) (t : Token) : c.loopHead t = d.loopHead t := by
  unfold loopHead
  rw [hBag]

theorem withBag_congr (h : c = d) (bag : Bag) : { c with bag := bag } = { d with bag := bag } := by
  rw [h]

end Context

/-- The relations that two renderings with the same parameters keep, as in a lockstep. -/
structure Coupling where
  Sessions : Session × Session → Prop
  Later : Session × Session → Session × Session → Prop
  Contexts : Session × Session → Context → Context → Prop
  Components : Session × Session → Component → Component → Prop
  Cut : RenderError → Prop
  later_refl : ∀ p, Later p p
  later_trans : ∀ {p q s}, Later p q → Later q s → Later p s
  contexts_later : ∀ {p q c d}, Later p q → Contexts p c d → Contexts q c d
  components_later : ∀ {p q k l}, Later p q → Components p k l → Components q k l
  file_eq : ∀ {p c d}, Contexts p c d → c.file = d.file
  bag_eq : ∀ {p c d}, Contexts p c d → c.bag = d.bag
  contexts_withBag : ∀ {p c d}, Contexts p c d → ∀ bag,
    Contexts p { c with bag := bag } { d with bag := bag }
  function?_eq : ∀ {p c d}, Sessions p → Contexts p c d →
    p.1.function? c.scopes = p.2.function? d.scopes
  components_found : ∀ {p c d}, Sessions p → Contexts p c d → ∀ name,
    Option.Rel (Components p) (p.1.component? c.scopes name) (p.2.component? d.scopes name)
  blocks : ∀ {p c d}, Sessions p → Contexts p c d →
    Sessions ((p.1.blockScopes c.scopes).1, (p.2.blockScopes d.scopes).1) ∧
    Later p ((p.1.blockScopes c.scopes).1, (p.2.blockScopes d.scopes).1) ∧
    Contexts ((p.1.blockScopes c.scopes).1, (p.2.blockScopes d.scopes).1)
      { c with scopes := (p.1.blockScopes c.scopes).2 }
      { d with scopes := (p.2.blockScopes d.scopes).2 }
  enter : ∀ {p}, Sessions p → Sessions (p.1.enter, p.2.enter) ∧ Later p (p.1.enter, p.2.enter)
  leave : ∀ {p}, Sessions p → Sessions (p.1.leave, p.2.leave) ∧ Later p (p.1.leave, p.2.leave)

/-- The lockstep in which the parameters are the same and any text will do. -/
def Coupling.lockstep (C : Coupling) : Lockstep where
  Sessions := C.Sessions
  Later := C.Later
  Contexts := C.Contexts
  Components := C.Components
  Bags a b := a = b
  Text _ := True
  Piece _ := True
  Head _ := True
  Cut := C.Cut
  later_refl := C.later_refl
  later_trans := C.later_trans
  contexts_later := C.contexts_later
  components_later := C.components_later
  file_eq := C.file_eq
  bags_of_contexts := C.bag_eq
  contexts_withBag := by
    rintro p c d a _ h rfl
    exact C.contexts_withBag h a
  components_found := C.components_found
  blocks := C.blocks
  enter := C.enter
  leave := C.leave
  callText_eq hSessions h _ :=
    Context.callText_congr (C.bag_eq h) (C.function?_eq hSessions h) _
  text_of_call _ _ _ _ := trivial
  conditionHolds_eq hSessions h _ :=
    Context.conditionHolds_congr (C.bag_eq h) (C.function?_eq hSessions h) _
  loopHead_eq h _ := Context.loopHead_congr (C.bag_eq h) _
  head_of_loop _ _ _ := trivial
  attributes h _ _ := by rw [h]
  wrap h hUser _ := by rw [h, hUser]
  forItem h _ _ _ := by rw [h]
  substitute_eq h _ := by rw [h]
  text_substitute _ _ := trivial
  text_nil := trivial
  text_append _ _ := trivial
  text_of_piece _ := trivial
  pieces_of_block _ _ _ _ _ := trivial

end HtmlTemplate
