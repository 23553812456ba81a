import WalletSession.Backend.Remote
import WalletSession.Proofs.Http.Address
import WalletSession.Proofs.Text.Trimmed
import WalletSession.Proofs.Text.Utf8

/-! What becomes of a question that is asked over HTTP. It is one request, to a place that only the base
and the kind of the question determine, and what comes back is classified in one way, whoever was
asked. -/
namespace WalletSession

namespace Http

/-- Where a path leads from a base, if it leads anywhere. -/
def address? (base path : String) : Option Url := Url.parse? (Text.dropSlashes base ++ path)

namespace Answer

variable {status : ℕ}

end Answer

end Http

namespace Backend

/-- Who is asked, how and where, by the kind of the question: `true` stands for the chain. -/
def endpoint? : Method → Option (Bool × String × String)
  | .status => some (false, "POST", statusPath)
  | .issue => some (false, "POST", newPath)
  | .verify => some (false, "POST", verifyPath)
  | .revoke => some (false, "DELETE", revokePath)
  | .view => some (true, "POST", viewPath)
  | _ => none

def paths (isChain : Bool) : List String :=
  if isChain then [viewPath] else [statusPath, newPath, verifyPath, revokePath]

/-- What the text of an answer says, if it is what the question asks for. -/
def decode? : (q : Request) → String → Option q.method.Reply
  | .status _, body | .issue _, body | .verify _, body => (Wire.decode? body : Option SessionToken)
  | .revoke, body => (Wire.decode? body : Option Bool)
  | .view _, body => (Wire.decode? body : Option Json)
  | _, _ => none

/-- The four ways in which a question may end. -/
inductive Verdict {α : Type} (decode? : String → Option α) (complaint : String → String)
    (answer : Http.Answer) : Except AuthError α → Prop
  | lost {reason : String} (lost : answer.received? = none) :
      Verdict decode? complaint answer (.error (.transport reason))
  | rejected {status : ℕ} {body : String} (received : answer.received? = some (status, body))
      (outside : ¬(200 ≤ status ∧ status < 300)) :
      Verdict decode? complaint answer (.error (.backend status (errorDetail body)))
  | answered {status : ℕ} {body : String} {a : α} (received : answer.received? = some (status, body))
      (within : 200 ≤ status ∧ status < 300) (decoded : decode? body = some a) :
      Verdict decode? complaint answer (.ok a)
  | unread {status : ℕ} {body : String} (received : answer.received? = some (status, body))
      (within : 200 ≤ status ∧ status < 300) (undecoded : decode? body = none) :
      Verdict decode? complaint answer (.error (.parse (complaint body)))

/-- What an exchange hands over to be read. -/
def heard (answer : Http.Answer) : Except AuthError (ℕ × String) :=
  match answer.received? with
  | some received => .ok received
  | none => .error (.transport "the connection was closed")

/-- What an exchange fails with, whatever its answer has to be. -/
def failure? : Except AuthError (ℕ × String) → Option AuthError
  | .error e => some e
  | .ok (status, body) => if isSuccess status then none else some (.backend status (errorDetail body))

/-- What the way of a question has to do with it. -/
structure Suits (complaint : String → String) (q : Request) (route : Route q.method.Reply) : Prop where
  endpoint : endpoint? q.method = some (route.isChain, route.verb, route.path)
  body : route.body = q.arguments.head?
  verdict (answer : Http.Answer) : Verdict (decode? q) complaint answer (route.read (heard answer))
  failure (received : Except AuthError (ℕ × String)) (e : AuthError)
    (other : ∀ reason, e ≠ .parse reason) :
    route.read received = .error e ↔ failure? received = some e
  transport (reason : String) :
    route.read (.error (.transport reason)) = .error (.transport reason)

variable {complaint : String → String}

namespace Remote

variable {r : Remote}

def client (r : Remote) (isChain : Bool) : Http.Client := if isChain then r.chain else r.backend

/-- The remotes of these bases, new ones and those that were asked, in front of any server and with any
decoder. -/
inductive Serves (bases : Bool → String) : Remote → Prop
  | create (server : Http.Server) : Serves bases (create (bases false) (bases true) server)
  | renew {r : Remote} (serves : Serves bases r) : Serves bases r.renew
  | meets {r : Remote} (serves : Serves bases r) (server : Http.Server) :
      Serves bases { r with server }
  | decodes {r : Remote} (serves : Serves bases r) (complaints : Complaints) :
      Serves bases { r with complaints }
  | ask {r : Remote} {α : Type} (serves : Serves bases r) (route : Route α) :
      Serves bases (r.ask route).2.1

theorem send_base (c : Http.Client) (server : Http.Server) (method path : String)
    (body : Option String) : (c.send server method path body).client.base = c.base := by
  unfold Http.Client.send
  split
  · rfl
  · split <;> rfl

theorem ask_base {α : Type} (r : Remote) (route : Route α) (isChain : Bool) :
    ((r.ask route).2.1.client isChain).base = (r.client isChain).base := by
  cases asksChain : route.isChain <;> cases isChain <;> simp [ask, client, asksChain, send_base]

/-- No question changes where the next one goes. -/
theorem Serves.base {bases : Bool → String} (serves : Serves bases r) (isChain : Bool) :
    (r.client isChain).base = Text.dropSlashes (bases isChain) := by
  induction serves generalizing isChain with
  | create server => cases isChain <;> rfl
  | renew serves ih =>
    cases isChain
    · exact (congrArg _ (ih false)).trans (Text.dropSlashes_dropSlashes _)
    · exact (congrArg _ (ih true)).trans (Text.dropSlashes_dropSlashes _)
  | meets serves server ih => exact ih isChain
  | decodes serves complaints ih => exact ih isChain
  | ask serves route ih => rw [ask_base, ih]

/-- Where a path leads from the base of one side, if the server can be reached there. -/
def Reaches (r : Remote) (isChain : Bool) (path : String) (u : Http.Url) : Prop :=
  Http.Url.parse? ((r.client isChain).base ++ path) = some u ∧ u.origin.isSecure = r.server.isSecure

theorem ask_of_reaches {α : Type} {route : Route α} {u : Http.Url}
    (reaches : r.Reaches route.isChain route.path u) :
    (r.ask route).1 = route.read (heard r.server.answer.1) ∧
      (r.ask route).2.1.server = r.server.answer.2 ∧
      ∃ request, (r.ask route).2.2 = some request ∧ request.method = route.verb ∧
        request.origin = u.origin ∧ request.target = u.target ∧
        request.body = route.body.getD "" := by
  obtain ⟨address, speaks⟩ := reaches
  unfold client at address
  simp only [ask, Http.Client.send, address, speaks, ne_eq, not_true_eq_false, if_false]
  refine ⟨rfl, ?_, _, rfl, rfl, rfl, rfl, rfl⟩
  split <;> rfl

theorem ask_of_unreached {α : Type} {route : Route α}
    (unreached : ∀ u, ¬ r.Reaches route.isChain route.path u) :
    (∃ reason, (r.ask route).1 = route.read (.error (.transport reason))) ∧
      (r.ask route).2.1.server = r.server ∧ (r.ask route).2.2 = none := by
  unfold Reaches client at unreached
  simp only [ask, Http.Client.send]
  cases address : Http.Url.parse? ((if route.isChain then r.chain else r.backend).base ++ route.path) with
  | none =>
    refine ⟨⟨_, rfl⟩, ?_, rfl⟩
    split <;> rfl
  | some u =>
    have silent : u.origin.isSecure ≠ r.server.isSecure := fun speaks => unreached u ⟨address, speaks⟩
    simp only [silent, ne_eq, not_false_eq_true, if_true]
    refine ⟨⟨_, rfl⟩, ?_, trivial⟩
    split <;> rfl

end Remote

variable {r : Remote}

/-- Nothing is sent, and the question fails. -/
structure Unsent (r : Remote) {q : Request} (route : Route q.method.Reply) : Prop where
  sent : (r.ask route).2.2 = none
  kept : (r.ask route).2.1.server = r.server
  lost : ∃ reason, (r.ask route).1 = .error (.transport reason)

section Suits

variable {q : Request} {route : Route q.method.Reply} {u : Http.Url}

theorem Suits.unsent (suits : Suits complaint q route)
    (unreached : ∀ u, ¬ r.Reaches route.isChain route.path u) : Unsent r route := by
  obtain ⟨⟨reason, read⟩, kept, sent⟩ := Remote.ask_of_unreached unreached
  exact ⟨sent, kept, reason, read.trans (suits.transport reason)⟩

theorem Suits.fails (suits : Suits complaint q route) (reaches : r.Reaches route.isChain route.path u)
    {e : AuthError} (other : ∀ reason, e ≠ .parse reason) :
    (r.ask route).1 = .error e ↔ failure? (heard r.server.answer.1) = some e := by
  rw [(Remote.ask_of_reaches reaches).1]
  exact suits.failure _ e other

end Suits

end Backend

end WalletSession
