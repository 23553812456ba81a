import WalletSession.Http.Host

/-! Exchanges with a scripted server: each request that arrives takes the next answer of the script.
An answer may be cut short or not come at all. -/
namespace WalletSession.Http

/-- A request as the server sees it. -/
structure Request where
  /-- Where it was sent. -/
  origin : Origin
  method : String
  target : String
  accept : Option String := none
  contentType : Option String := none
  /-- Names and values, in order. -/
  cookies : List String := []
  body : String := ""
  deriving DecidableEq, Repr

inductive Answer
  | full (status : Nat) (body : List UInt8) (setCookie : List String)
  /-- The head arrives, and less of the body than it announces. -/
  | truncated (status : Nat) (setCookie : List String)
  /-- The connection is closed without an answer. -/
  | dropped
  deriving DecidableEq, Repr

namespace Answer

/-- Answers with these statuses have no body. -/
def isBodiless (status : Nat) : Bool := status == 101 || status == 204 || status == 304

/-- A status has three digits, and one below 200 only announces an answer, but for a change of
protocols. -/
def isFinal (status : Nat) : Bool := status == 101 || (200 ≤ status && status < 1000)

/-- The cookies that arrive. -/
def setCookies : Answer → List String
  | .full status _ cookies | .truncated status cookies => if isFinal status then cookies else []
  | .dropped => []

/-- Status and text of an answer that arrives whole. Bytes that are not UTF-8 are replaced. -/
def received? : Answer → Option (Nat × String)
  | .full status body _ =>
    if !isFinal status then none
    else some (status, if isBodiless status then "" else Text.Utf8.lossy body)
  | .truncated status _ => if isBodiless status then some (status, "") else none
  | .dropped => none

end Answer

/-- A server with the answers that it has left. -/
structure Server where
  script : List Answer := []
  /-- The time at which it answers, in seconds since 1970. -/
  now : Nat := 0
  /-- It is reached over secure connections, and then over no others. -/
  isSecure : Bool := false

namespace Server

def exhausted : Answer := .full 500 "no response scripted".toUTF8.toList []

def answer (s : Server) : Answer × Server :=
  match s.script with
  | [] => (exhausted, s)
  | a :: rest => (a, { s with script := rest })

end Server

end WalletSession.Http
