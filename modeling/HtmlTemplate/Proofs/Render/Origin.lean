import HtmlTemplate.Proofs.Render.Levels

/-! Renderings keep what they have been started from. However far a template is rendered, all of
its tokens and its context are at hand to render it again. -/
namespace HtmlTemplate.Rendering

/-- What a rendering has been started from. -/
def origin (r : Rendering) : List Token × Context :=
  (r.tokens, r.context)

theorem closeParen_origin (r : Rendering) (serve : Bool) (token : Token) :
    (r.closeParen serve token).2.origin = r.origin := by
  unfold closeParen
  split
  · split <;> rfl
  · split <;> rfl
  · rfl

theorem closeElement_origin (r : Rendering) (token : Token) :
    (r.closeElement token).2.origin = r.origin := by
  unfold closeElement
  split
  · rfl
  · dsimp only
    split
    · rfl
    · split <;> rfl

theorem openElement_origin (r : Rendering) (session : Session) (token : Token) :
    (r.openElement session token).2.origin = r.origin := by
  unfold openElement
  split
  · rfl
  · dsimp only
    split
    · split <;> rfl
    · split
      · split <;> rfl
      · split <;> rfl

theorem readAction_origin (r : Rendering) (m : Reading Action) :
    (r.readAction m).2.origin = r.origin := by
  unfold readAction read
  dsimp only
  split <;> next found => rw [← (Prod.mk.inj found).2]; rfl

theorem step_origin (r : Rendering) (session : Session) (serve : Bool) (token : Token) :
    (r.step session serve token).2.origin = r.origin := by
  unfold step
  split
  · rfl
  · exact r.closeParen_origin serve token
  · exact r.openElement_origin session token
  · exact r.closeElement_origin token
  · rfl
  · split <;> rfl
  · exact r.readAction_origin _
  · exact r.readAction_origin _
  · rfl

theorem finish_origin (r : Rendering) (serve : Bool) : (r.finish serve).2.origin = r.origin := by
  unfold finish
  split
  · rfl
  · split <;> rfl

theorem walk_origin (nested : Nested) (serve : Bool) (r : Rendering) (session : Session) :
    (walk nested serve r session).2.1.origin = r.origin := by
  fun_induction walk nested serve r session with
  | case1 r => exact finish_origin r serve
  | case2 => rfl
  | case3 r session token rest => exact step_origin { r with rest } session serve token
  | case4 r session token rest => exact step_origin { r with rest } session serve token
  | case5 r session token rest found _ stepped _ _ _ _ _ ih =>
      exact ih.trans (step_origin { r with rest } session serve token)

theorem openServe_origin (r : Rendering) : r.openServe.2.origin = r.origin := by
  unfold openServe
  split <;> next found =>
    have hOrigin := congrArg (fun result => result.2.origin) found
    exact hOrigin.symm

theorem serve_origin (nested : Nested) (r : Rendering) (session : Session) :
    (serve nested r session).2.1.origin = r.origin := by
  unfold serve
  dsimp only
  split
  · exact (walk_origin nested true _ session).trans r.openServe_origin
  · exact r.openServe_origin

theorem setup_origin (resolve : Resolver) (reader : Reading Setup) (r : Rendering)
    (session : Session) : (setup resolve reader r session).2.1.origin = r.origin := by
  unfold setup
  dsimp only
  split <;> rfl

theorem statements_origin (nested : Nested) (resolve : Resolver) (html : List Char)
    (r : Rendering) (session : Session) :
    (statements nested resolve html r session).2.1.origin = r.origin := by
  fun_induction statements nested resolve html r session with
  | case1 | case7 | case8 => rfl
  | case2 _ _ _ _ _ _ _ ih => exact ih
  | case3 _ r session _ rest _ _ served _ _ ih =>
      exact ih.trans (serve_origin nested { r with rest } session)
  | case4 _ r session _ rest => exact serve_origin nested { r with rest } session
  | case5 _ r session _ rest _ _ _ _ reader _ done _ _ ih =>
      exact ih.trans (setup_origin resolve reader { r with rest } session)
  | case6 _ r session _ rest _ _ _ _ reader =>
      exact setup_origin resolve reader { r with rest } session

/-- A rendering that is begun again has the parameters of that. -/
theorem update_origin (nested : Nested) (resolve : Resolver) (bag : Bag) (r : Rendering)
    (session : Session) :
    (r.update nested resolve bag session).2.1.origin = (r.tokens, { r.context with bag }) :=
  statements_origin nested resolve [] (start r.tokens { r.context with bag }) session

end HtmlTemplate.Rendering
