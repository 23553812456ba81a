import WalletSession.Text.Case
import WalletSession.Text.Digits
import WalletSession.Text.Split
import WalletSession.Text.Utf8

/-! Hosts of addresses: names, addresses of four bytes in their various spellings, and addresses of
eight groups in brackets. However an address was spelled, its text is one. A host and a port are where
requests go. -/
namespace WalletSession.Http

inductive Host
  | name (s : String)
  | fourBytes (address : Nat)
  | eightGroups (address : Nat)
  deriving DecidableEq, Repr

namespace Host

/-- Characters that neither an address nor the line of a request allows in a name. -/
def isForbidden (c : Char) : Bool :=
  c.toNat ≤ 0x20 || c.toNat == 0x7f ||
    ['#', '%', '/', ':', '<', '>', '?', '@', '[', '\\', ']', '^', '|', '"', '\x60', '\x7b', '\x7d',
      Text.Utf8.replacement].contains c

/-- The number that a part of an address writes, in base ten, eight or sixteen. -/
def part? (cs : List Char) : Option Nat :=
  let value (base : Nat) (ds : List Char) : Option Nat :=
    ds.foldlM (fun n c =>
      let d := (Text.hexValue? c).getD 16
      if d < base then some (base * n + d) else none) 0
  match cs with
  | [] => none
  | '0' :: 'x' :: ds => value 16 ds
  | '0' :: d :: ds => value 8 (d :: ds)
  | ds => value 10 ds

/-- The last part of an address takes all the bytes that the others leave. -/
def address? (parts : List (List Char)) : Option Nat := do
  let values ← parts.mapM part?
  let before := values.dropLast
  let last := values.getLastD 0
  if values.length ≤ 4 ∧ before.all (· ≤ 255) ∧ last < Nat.pow 256 (5 - values.length) then
    some ((before.foldl (fun n b => 256 * n + b) 0) * Nat.pow 256 (5 - values.length) + last)
  else none

/-- The digits of a number in some base, the first one first. -/
def inBase (base : Nat) (count : Nat) (n : Nat) : List Nat :=
  (List.range count).reverse.map fun i => n / Nat.pow base i % base

/-- Four numbers with dots between them, written plainly. -/
def dotted? (cs : List Char) : Option Nat :=
  let parts := Text.splitAt (· == '.') cs
  let isByte (p : List Char) : Bool :=
    Text.isWholeNumber p && p.length ≤ 3 && Text.digitsValue p ≤ 255 &&
      (p.head? != some '0' || p.length == 1)
  if parts.length = 4 ∧ parts.all isByte then
    some (parts.foldl (fun n p => 256 * n + Text.digitsValue p) 0)
  else none

/-- A group has up to four hexadecimal digits. -/
def group? (cs : List Char) : Option Nat :=
  if 1 ≤ cs.length ∧ cs.length ≤ 4 then
    cs.foldlM (fun n c => (Text.hexValue? c).map (16 * n + ·)) 0
  else none

/-- A row of groups. Four bytes may stand at the very end and fill two groups. -/
def groups? (cs : List Char) (isEnd : Bool) : Option (List Nat) := do
  if cs = [] then return []
  let parts := Text.splitAt (· == ':') cs
  let before ← parts.dropLast.mapM group?
  let last := parts.getLastD []
  match group? last with
  | some g => return before ++ [g]
  | none => if isEnd then (dotted? last).map fun n => before ++ inBase 65536 2 n else none

/-- Cuts a row of groups at the first two colons that follow each other. -/
def cutAtGap : List Char → List Char × Option (List Char)
  | ':' :: ':' :: rest => ([], some rest)
  | c :: rest => ((c :: (cutAtGap rest).1), (cutAtGap rest).2)
  | [] => ([], none)

/-- Eight groups, or fewer with a gap. -/
def grouped? (cs : List Char) : Option Nat := do
  let groups ←
    match cutAtGap cs with
    | (all, none) => groups? all true
    | (front, some back) => do
      let front ← groups? front false
      let back ← groups? back true
      if front.length + back.length < 8 then
        some (front ++ List.replicate (8 - front.length - back.length) 0 ++ back)
      else none
  if groups.length = 8 then some (groups.foldl (fun n g => 65536 * n + g) 0) else none

/-- The bytes of a text in which some are written by a percent sign and two digits. -/
def decodedBytes : List Char → List UInt8
  | '%' :: a :: b :: rest =>
    match Text.hexValue? a, Text.hexValue? b with
    | some x, some y => .ofNat (16 * x + y) :: decodedBytes rest
    | _, _ => 0x25 :: decodedBytes (a :: b :: rest)
  | c :: rest => (String.singleton c).toUTF8.toList ++ decodedBytes rest
  | [] => []

/-- Reads a name or an address of four bytes. A name whose last part is a number has to be an
address. -/
def ofName? (written : List Char) : Option Host :=
  let cs := (Text.Utf8.lossy (decodedBytes written)).toList.map Text.lowerChar
  let parts := Text.splitAt (· == '.') cs
  let parts := if parts.getLast? = some [] && 1 < parts.length then parts.dropLast else parts
  let last := parts.getLastD []
  let endsInNumber :=
    Text.isWholeNumber last || (last.take 2 == ['0', 'x'] && (part? last).isSome)
  if cs.isEmpty || cs.any isForbidden then none
  else if endsInNumber then (address? parts).map fourBytes
  else some (.name (.ofList cs))

/-- Reads a host as an address writes it. -/
def parse? (written : List Char) : Option Host :=
  match written with
  | '[' :: rest =>
    if rest.getLast? = some ']' then (grouped? rest.dropLast).map eightGroups else none
  | _ => ofName? written

/-- How many zeros a list begins with. -/
def zeros (groups : List Nat) : Nat := (groups.takeWhile (· == 0)).length

/-- Groups with a gap for the longest row of zeros, and for the first of several, if it is longer
than one. -/
def groupedText (groups : List Nat) : String :=
  let hex (gs : List Nat) : String := ":".intercalate (gs.map fun g => .ofList (Nat.toDigits 16 g))
  let rows := (List.range groups.length).map fun i => zeros (groups.drop i)
  let longest := rows.foldl max 0
  let start := (rows.takeWhile (· != longest)).length
  if longest < 2 then hex groups
  else hex (groups.take start) ++ "::" ++ hex (groups.drop (start + longest))

def text : Host → String
  | name s => s
  | fourBytes n => ".".intercalate ((inBase 256 4 n).map Nat.repr)
  | eightGroups n => "[" ++ groupedText (inBase 65536 8 n) ++ "]"

/-- The host is this machine itself. -/
def isLoopback : Host → Bool
  | name s => s == "localhost"
  | fourBytes n => n / Nat.pow 256 3 == 127
  | eightGroups n => n == 1

/-- The last two groups stand for an address of four bytes. -/
def isMapped : Host → Bool
  | eightGroups n => n / Nat.pow 65536 2 == 0xffff
  | _ => false

end Host

/-- Where an address leads: to a port of a host, over a plain connection or a secure one. -/
structure Origin where
  isSecure : Bool
  host : Host
  port : Nat
  deriving DecidableEq, Repr

end WalletSession.Http
