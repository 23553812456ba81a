import WalletSession.Backend.Answer
import WalletSession.Http.Client
import WalletSession.Session.Request

/-! Questions that are asked over HTTP: where each goes, what it carries and how its answer is read.
The wallet is not asked this way. -/
namespace WalletSession.Backend

def statusPath : String := "/api/token/status"

def newPath : String := "/api/token/new"

def verifyPath : String := "/api/token/verify"

def revokePath : String := "/api/token"

def viewPath : String := "/v1/view"

/-- Where a question goes, what it carries, and what the exchange makes of it. -/
structure Route (α : Type) where
  /-- The chain answers, and not the backend. -/
  isChain : Bool := false
  verb : String := "POST"
  path : String
  body : Option String
  read : Except AuthError (Nat × String) → Except AuthError α

/-- A value is posted, and another one comes back. -/
def Route.post {α β : Type} [Wire α] [Wire β] (path : String) (value : α)
    (complaint : String → String) : Route β :=
  { path, body := some (Wire.encode value), read := classify complaint }

/-- The way to the answer of a question, unless the wallet is asked. -/
def route? (complaint : String → String) : (q : Request) → Option (Route q.method.Reply)
  | .status token => some (.post statusPath token complaint : Route SessionToken)
  | .issue draft => some (.post newPath draft complaint : Route SessionToken)
  | .verify submission => some (.post verifyPath submission complaint : Route SessionToken)
  | .revoke =>
    some ({ verb := "DELETE", path := revokePath, body := none, read := classify complaint } :
      Route Bool)
  | .view request =>
    some { (Route.post viewPath request complaint : Route Json) with isChain := true }
  | _ => none

/-- What a decoder says of a text that is no answer to a question of some kind. -/
abbrev Complaints := Method → String → String

/-- The clients of the backend, which keeps cookies, and of the chain, which does not, and the
server behind both. -/
structure Remote where
  backend : Http.Client
  chain : Http.Client
  server : Http.Server
  complaints : Complaints := fun _ _ => "unexpected answer"

namespace Remote

def create (backendBase chainBase : String) (server : Http.Server) : Remote :=
  { backend := .ofBase backendBase true, chain := .ofBase chainBase false, server }

/-- The same server with new clients. -/
def renew (r : Remote) : Remote :=
  { create r.backend.base r.chain.base r.server with complaints := r.complaints }

/-- The way to the answer of a question, unless the wallet is asked. -/
def route? (r : Remote) (q : Request) : Option (Route q.method.Reply) :=
  Backend.route? (r.complaints q.method) q

/-- Sends a question along its way, and tells what the server saw. -/
def ask {α : Type} (r : Remote) (route : Route α) :
    Except AuthError α × Remote × Option Http.Request :=
  let client := if route.isChain then r.chain else r.backend
  let attempt := client.send r.server route.verb route.path route.body
  let after : Remote :=
    if route.isChain then { r with chain := attempt.client, server := attempt.server }
    else { r with backend := attempt.client, server := attempt.server }
  (route.read attempt.received, after, attempt.sent)

end Remote

end WalletSession.Backend
