import WalletSession.Json.Numeral
import WalletSession.Json.Piece

/-! Tokens of JSON text, and the machine that reads them one character at a time. -/
namespace WalletSession.Json

inductive Token
  | openArray
  | closeArray
  | openObject
  | closeObject
  | comma
  | colon
  | null
  | bool (b : Bool)
  | number (n : Numeral)
  | string (pieces : List Piece)
  deriving DecidableEq, Repr

/-- Where a reader stands between two characters. Parts of a string are kept newest first. -/
inductive Mode
  | between
  /-- Inside a word; `left` is still to come. -/
  | word (left : List Char) (token : Token)
  | quoted (pieces : List Piece)
  | escape (pieces : List Piece)
  /-- Inside a four-digit code, with `left` digits to come. -/
  | code (pieces : List Piece) (left : Nat) (value : Nat)
  | number (n : Numeral) (part : NumeralPart)

/-- A reader with the tokens it has completed, newest first. -/
structure Scan where
  mode : Mode
  tokens : List Token

namespace Scan

def emit (s : Scan) (t : Token) : Scan := ⟨.between, t :: s.tokens⟩

def enter (s : Scan) (mode : Mode) : Scan := { s with mode }

/-- White space between tokens is these four characters. -/
def isGap (c : Char) : Bool := c == ' ' || c == '\t' || c == '\n' || c == '\r'

/-- The first character of a token, or of nothing. -/
def begin (s : Scan) (c : Char) : Option Scan :=
  if isGap c then some (s.enter .between)
  else if c = '[' then some (s.emit .openArray)
  else if c = ']' then some (s.emit .closeArray)
  else if c = '{' then some (s.emit .openObject)
  else if c = '}' then some (s.emit .closeObject)
  else if c = ',' then some (s.emit .comma)
  else if c = ':' then some (s.emit .colon)
  else if c = '"' then some (s.enter (.quoted []))
  else if c = 'n' then some (s.enter (.word ['u', 'l', 'l'] .null))
  else if c = 't' then some (s.enter (.word ['r', 'u', 'e'] (.bool true)))
  else if c = 'f' then some (s.enter (.word ['a', 'l', 's', 'e'] (.bool false)))
  else if c = '-' then some (s.enter (.number (.start true) .sign))
  else
    match (Numeral.start false).extend .sign c with
    | some (n, part) => some (s.enter (.number n part))
    | none => none

def escaped? (c : Char) : Option Char :=
  if c = '"' ∨ c = '\\' ∨ c = '/' then some c
  else if c = 'b' then some '\x08'
  else if c = 'f' then some '\x0c'
  else if c = 'n' then some '\n'
  else if c = 'r' then some '\r'
  else if c = 't' then some '\t'
  else none

def step (s : Scan) (c : Char) : Option Scan :=
  match s.mode with
  | .between => s.begin c
  | .word [] _ => none
  | .word [last] t => if c = last then some (s.emit t) else none
  | .word (next :: left) t => if c = next then some (s.enter (.word left t)) else none
  | .quoted pieces =>
    if c = '"' then some (s.emit (.string pieces.reverse))
    else if c = '\\' then some (s.enter (.escape pieces))
    else if c.toNat < 0x20 then none
    else some (s.enter (.quoted (.plain c :: pieces)))
  | .escape pieces =>
    if c = 'u' then some (s.enter (.code pieces 4 0))
    else (escaped? c).map fun e => s.enter (.quoted (.plain e :: pieces))
  | .code pieces left value =>
    match Text.hexValue? c with
    | none => none
    | some d =>
      if left ≤ 1 then some (s.enter (.quoted (.unit (16 * value + d) :: pieces)))
      else some (s.enter (.code pieces (left - 1) (16 * value + d)))
  | .number n part =>
    match n.extend part c with
    | some (n, part) => some (s.enter (.number n part))
    | none => if part.complete then (s.emit (.number n)).begin c else none

def run : Scan → List Char → Option Scan
  | s, [] => some s
  | s, c :: rest =>
    match s.step c with
    | some next => next.run rest
    | none => none

/-- The tokens at the end of the text: only a number may still be open. -/
def finish (s : Scan) : Option (List Token) :=
  match s.mode with
  | .between => some s.tokens.reverse
  | .number n part => if part.complete then some (s.emit (.number n)).tokens.reverse else none
  | _ => none

theorem run_append (s : Scan) (xs ys : List Char) :
    s.run (xs ++ ys) = (s.run xs).bind (·.run ys) := by
  induction xs generalizing s with
  | nil => rfl
  | cons c rest ih =>
    simp only [List.cons_append, run]
    cases s.step c with
    | none => rfl
    | some next => exact ih next

end Scan

/-- The tokens of a text. -/
def tokens? (cs : List Char) : Option (List Token) :=
  ((Scan.mk .between []).run cs).bind Scan.finish

end WalletSession.Json
