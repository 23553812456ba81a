import WalletSession.AuthError
import WalletSession.Json.Reader
import WalletSession.Text.Blank

/-! How an answer of the backend or of the chain is classified: a failed exchange stays the error
that it is, a status outside 200 to 299 is a rejection with a detail, and of the others the body
must decode. -/
namespace WalletSession.Backend

/-- The readable part of a rejection's body: the detail of an object or a string as it is, any
other JSON value in its compact form, and a text that is no JSON without the white space around
it. -/
def errorDetail (body : String) : String :=
  match Json.parse? body with
  | some (.string s) => s
  | some (.object members) =>
    match members.lookup "detail" with
    | some (.string s) => s
    | some other => other.render
    | none => (Json.object members).render
  | some other => other.render
  | none => Text.trim body

def isSuccess (status : Nat) : Bool := 200 ≤ status && status < 300

/-- What an exchange answers to a question whose answer is an `α`. A text that is none draws a
complaint. -/
def classify {α : Type} [Wire α] (complaint : String → String)
    (received : Except AuthError (Nat × String)) : Except AuthError α :=
  match received with
  | .error e => .error e
  | .ok (status, body) =>
    if isSuccess status then
      match (Wire.decode? body : Option α) with
      | some a => .ok a
      | none => .error (.parse (complaint body))
    else .error (.backend status (errorDetail body))

end WalletSession.Backend
