import HtmlTemplate.Proofs.Render.Coupling
import HtmlTemplate.Proofs.Render.Setup
import HtmlTemplate.Proofs.Render.Templates

/-! The depth limit cuts off and does nothing else: nothing but the error at the lowest
level asks a session for its limit, so a page that is rendered without that error is
rendered alike under any higher limit. -/
namespace HtmlTemplate

namespace Session

variable (session : Session) (limit : Nat) (scopes : Scopes)

end Session

namespace Setup

end Setup

section

variable {limit higher : Nat} (resolve : Resolver)

end

end HtmlTemplate
