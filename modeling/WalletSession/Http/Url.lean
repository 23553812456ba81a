import WalletSession.Http.Host

/-! Addresses of HTTP resources. Reading one puts its path into normal form: dot segments are
resolved, backslashes count as slashes, and what may not stand in an address is written by its
bytes. -/
namespace WalletSession.Http

structure Url where
  origin : Origin
  /-- From its first slash. -/
  path : String
  query : Option String
  deriving DecidableEq, Repr

namespace Url

def hexPair (n : Nat) : List Char :=
  let ds := Nat.toDigits 16 n |>.map fun c => if 'a' ≤ c then Char.ofNat (c.toNat - 32) else c
  '%' :: List.replicate (2 - ds.length) '0' ++ ds

/-- A character, or its bytes if it is among the `escaped` ones. -/
def encodeChar (escaped : Char → Bool) (c : Char) : List Char :=
  if escaped c then (String.singleton c).toUTF8.toList.flatMap fun b => hexPair b.toNat else [c]

/-- Controls and everything beyond ASCII. -/
def isControlOrForeign (c : Char) : Bool := c.toNat < 0x20 || 0x7e < c.toNat

def escapedInPath (c : Char) : Bool :=
  isControlOrForeign c ||
    [' ', '"', '#', '<', '>', '?', '\x60', '\x7b', '\x7d'].contains c

def escapedInQuery (c : Char) : Bool :=
  isControlOrForeign c || [' ', '"', '#', '<', '>', '\x27'].contains c

def isSlash (c : Char) : Bool := c == '/' || c == '\\'

/-- A segment, with coded dots written as dots. -/
def plainDots : List Char → List Char
  | '%' :: '2' :: e :: rest =>
    if e = 'e' ∨ e = 'E' then '.' :: plainDots rest else '%' :: '2' :: e :: rest
  | '.' :: rest => '.' :: plainDots rest
  | cs => cs

/-- The segments of a path without those that mean the same place or the one above. -/
def resolve (segments : List (List Char)) : List (List Char) :=
  let rec go (kept : List (List Char)) : List (List Char) → List (List Char)
    | [] => kept.reverse
    | [last] =>
      if plainDots last = ['.'] then ([] :: kept).reverse
      else if plainDots last = ['.', '.'] then ([] :: kept.tail).reverse
      else (last :: kept).reverse
    | s :: rest =>
      if plainDots s = ['.'] then go kept rest
      else if plainDots s = ['.', '.'] then go kept.tail rest
      else go (s :: kept) rest
  go [] segments

def pathOf (cs : List Char) : String :=
  let segments := Text.splitAt isSlash (if isSlash (cs.headD '.') then cs.drop 1 else cs)
  .ofList ((resolve segments).flatMap fun s => '/' :: s.flatMap (encodeChar escapedInPath))

def isSchemeChar (c : Char) : Bool := c.isAlphanum || c == '+' || c == '-' || c == '.'

/-- What stands before the first colon, in small letters, and what follows. -/
def scheme? (cs : List Char) : Option (String × List Char) :=
  let name := cs.takeWhile isSchemeChar
  match name, cs.dropWhile isSchemeChar with
  | first :: _, ':' :: rest =>
    if first.isAlpha then some (Text.lower (.ofList name), rest) else none
  | _, _ => none

/-- Whether the connection is secure, for the schemes that requests can use. -/
def isSecure? : String → Option Bool
  | "http" => some false
  | "https" => some true
  | _ => none

/-- The port where no other one is named. -/
def defaultPort (isSecure : Bool) : Nat := if isSecure then 443 else 80

/-- The origin that an authority names. What stands before an at sign names a user, and a number
behind a colon has to fit into sixteen bits. -/
def origin? (isSecure : Bool) (authority : List Char) : Option Origin := do
  let afterUser := (authority.reverse.takeWhile (· != '@')).reverse
  let written :=
    if afterUser.head? = some '[' then
      afterUser.take ((afterUser.takeWhile (· != ']')).length + 1)
    else afterUser.takeWhile (· != ':')
  let port ←
    match afterUser.drop written.length with
    | [] | [':'] => some (defaultPort isSecure)
    | ':' :: ds =>
      if ds.all Text.isDigit && Text.digitsValue ds < 65536 then some (Text.digitsValue ds) else none
    | _ => none
  let host ← Host.parse? written
  return { isSecure, host, port }

/-- What a request names: the path with the query. -/
def target (u : Url) : String :=
  match u.query with
  | none => u.path
  | some q => u.path ++ "?" ++ q

def isGap (c : Char) : Bool := c.toNat ≤ 0x20

/-- White space at the ends, and tabs and line ends anywhere, do not count. -/
def clean (cs : List Char) : List Char :=
  (((cs.dropWhile isGap).reverse.dropWhile isGap).reverse).filter fun c =>
    !(c == '\t' || c == '\n' || c == '\r')

/-- The longest address that a request can name, in bytes. -/
def longest : Nat := 65534

/-- Reads an address of an HTTP resource. -/
def parse? (s : String) : Option Url := do
  let (scheme, rest) ← scheme? (clean s.toList)
  let isSecure ← isSecure? scheme
  let rest := (rest.dropWhile isSlash).takeWhile (· != '#')
  let authority := rest.takeWhile fun c => !isSlash c && c != '?'
  let tail := rest.drop authority.length
  let query :=
    match tail.dropWhile (· != '?') with
    | '?' :: q => some (String.ofList (q.flatMap (encodeChar escapedInQuery)))
    | _ => none
  let origin ← origin? isSecure authority
  let u : Url := { origin, path := pathOf (tail.takeWhile (· != '?')), query }
  if (scheme ++ "://").length + authority.length + u.target.length ≤ longest then some u else none

end Url

end WalletSession.Http
