import WalletSession.AuthError
import WalletSession.Http.Cookie
import WalletSession.Http.Exchange

/-! A client of one base address. A client with a jar keeps the cookies of every answer whose head
arrives and sends those back that match. An address that cannot be used fails before anything is
sent, and so does one whose scheme is not that of the server. -/
namespace WalletSession.Http

structure Client where
  /-- Without slashes at its end. -/
  base : String
  jar : Option CookieJar := none

/-- What came of one attempt to send a request. -/
structure Attempt where
  /-- Status and text, if the whole answer arrived. -/
  received : Except AuthError (Nat × String)
  client : Client
  server : Server
  /-- The request, if it reached the server. -/
  sent : Option Request

namespace Client

def ofBase (base : String) (keepsCookies : Bool) : Client :=
  { base := Text.dropSlashes base, jar := if keepsCookies then some {} else none }

/-- Sends a request to the base followed by a path; a body is JSON text. -/
def send (c : Client) (server : Server) (method path : String) (body : Option String) : Attempt :=
  match Url.parse? (c.base ++ path) with
  | none =>
    { received := .error (.transport "the address cannot be used"), client := c, server,
      sent := none }
  | some u =>
    if u.origin.isSecure ≠ server.isSecure then
      { received := .error (.transport "no connection was made"), client := c, server, sent := none }
    else
      let request : Request :=
        { origin := u.origin, method, target := u.target, accept := some "application/json"
          contentType := body.map fun _ => "application/json"
          cookies := (c.jar.map (·.cookiesFor u)).getD [], body := body.getD "" }
      let (answer, server) := server.answer
      { received :=
          match answer.received? with
          | some received => .ok received
          | none => .error (.transport "the connection was closed")
        client := { c with jar := c.jar.map (·.store u server.now answer.setCookies) }
        server
        sent := some request }

end Client

end WalletSession.Http
