import WalletSession.Http.Date
import WalletSession.Http.Url
import WalletSession.Text.Blank

/-! Cookies that a client keeps. A cookie is known by its name, domain and path; one that comes
again replaces the old one, or removes it if its time is over. -/
namespace WalletSession.Http

structure Cookie where
  name : String
  value : String
  domain : String
  path : String
  /-- Hosts below the domain get the cookie too. -/
  includesSubdomains : Bool
  /-- The cookie does not leave this machine over a plain connection. -/
  isSecure : Bool
  deriving DecidableEq, Repr

namespace Cookie

/-- The host is the domain or lies below it; nothing lies below an address. -/
def isWithin (domain : String) (host : Host) : Bool :=
  host.text == domain ||
    match host with
    | .name s => ('.' :: domain.toList).isSuffixOf s.toList
    | _ => false

/-- The directory of a request's path. -/
def defaultPath (path : String) : String :=
  let above := ((path.toList.reverse.dropWhile (· != '/')).drop 1).reverse
  if above.isEmpty then "/" else .ofList above

/-- The cookie's path is the request's, or a directory above it. -/
def coversPath (cookiePath requestPath : List Char) : Bool :=
  cookiePath == requestPath ||
    (cookiePath.isPrefixOf requestPath &&
      (cookiePath.getLast? == some '/' || requestPath[cookiePath.length]? == some '/'))

def matchesUrl (c : Cookie) (u : Url) : Bool :=
  let host := u.origin.host
  (if c.includesSubdomains then isWithin c.domain host else c.domain == host.text) &&
    coversPath c.path.toList u.path.toList &&
      (!c.isSecure || u.origin.isSecure || host.isLoopback)

def isSame (a b : Cookie) : Bool := a.name == b.name && a.domain == b.domain && a.path == b.path

/-- What stands before and behind the first equals sign, without white space around. -/
def cut (cs : List Char) : List Char × Option (List Char) :=
  (Text.trimChars (cs.takeWhile (· != '=')),
    match cs.dropWhile (· != '=') with
    | '=' :: value => some (Text.trimChars value)
    | _ => none)

/-- What the header of a cookie says besides its name and value. -/
structure Attributes where
  path : Option (List Char) := none
  domain : Option (List Char) := none
  /-- The cookie has a time to live: whether it is more than none. -/
  lives : Option Bool := none
  expires : Option Date := none
  isSecure : Bool := false
  deriving DecidableEq, Repr

namespace Attributes

/-- A time to live in seconds: whether it is more than none. -/
def lifetime? (cs : List Char) : Option Bool :=
  match cs with
  | '-' :: ds => if ds.all Text.isDigit then some false else none
  | ds => if ds.all Text.isDigit then some (ds.isEmpty || Text.digitsValue ds != 0) else none

/-- Of attributes that are given twice the last counts, but one that cannot be read does not. -/
def add (a : Attributes) (piece : List Char) : Attributes :=
  match String.ofList ((cut piece).1.map Text.lowerChar), (cut piece).2 with
  | "secure", _ => { a with isSecure := true }
  | "path", some value => { a with path := some value }
  | "domain", some value => if value = [] then a else { a with domain := some value }
  | "max-age", some value => { a with lives := lifetime? value <|> a.lives }
  | "expires", some value => { a with expires := Date.parse? value <|> a.expires }
  | _, _ => a

/-- A time to live goes before a time at which the cookie ends. -/
def isKept (a : Attributes) (now : Nat) : Bool :=
  match a.lives, a.expires with
  | some lives, _ => lives
  | none, some d => now < d.sinceEpoch
  | none, none => true

/-- The domain that is asked for, if it is one. -/
def domain? (a : Attributes) : Option String := do
  let d ← a.domain
  let d := if d.head? = some '.' then d.drop 1 else d
  if d = [] then none else some (Text.lower (.ofList d))

/-- The path that is asked for, if it is one. -/
def path? (a : Attributes) : Option String :=
  (a.path.filter (·.head? == some '/')).map String.ofList

end Attributes

/-- The domain of a cookie that `u` sets, and whether hosts below it get the cookie too. A domain to
which the host does not belong makes the cookie void, and so does an address of eight groups that
stands for four bytes: it has two texts, and the cookie would not find back. -/
def scope? (u : Url) (a : Attributes) : Option (String × Bool) :=
  match a.domain? with
  | some d => if isWithin d u.origin.host then some (d, true) else none
  | none => if u.origin.host.isMapped then none else some (u.origin.host.text, false)

/-- Reads the header that sets a cookie, and whether the cookie is to be kept. -/
def parse? (u : Url) (now : Nat) (header : String) : Option (Cookie × Bool) := do
  let pieces := Text.splitAt (· == ';') header.toList
  let (name, value) := cut (pieces.headD [])
  let value ← value
  if name = [] then failure
  let a : Attributes := (pieces.drop 1).foldl Attributes.add {}
  let (domain, includesSubdomains) ← scope? u a
  let cookie : Cookie :=
    { name := .ofList name, value := .ofList value, domain, includesSubdomains
      path := a.path?.getD (defaultPath u.path), isSecure := a.isSecure }
  return (cookie, a.isKept now)

end Cookie

/-- The cookies of a client, oldest first. -/
structure CookieJar where
  cookies : List Cookie := []
  deriving DecidableEq, Repr, Inhabited

namespace CookieJar

def put (jar : CookieJar) (c : Cookie) (kept : Bool) : CookieJar :=
  let others := jar.cookies.filter (!c.isSame ·)
  ⟨if kept then others ++ [c] else others⟩

/-- Takes in what an answer from `u` sets at some time. -/
def store (jar : CookieJar) (u : Url) (now : Nat) (headers : List String) : CookieJar :=
  headers.foldl (fun jar h =>
    match Cookie.parse? u now h with
    | some (c, kept) => jar.put c kept
    | none => jar) jar

def insertSorted (s : String) : List String → List String
  | [] => [s]
  | t :: rest => if s < t then s :: t :: rest else t :: insertSorted s rest

/-- What is sent along to `u`, in order. -/
def cookiesFor (jar : CookieJar) (u : Url) : List String :=
  (jar.cookies.filter (·.matchesUrl u)).foldl (fun sorted c =>
    insertSorted (c.name ++ "=" ++ c.value) sorted) []

end CookieJar

end WalletSession.Http
