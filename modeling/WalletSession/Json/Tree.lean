import WalletSession.Json.Token

/-! The syntax of a JSON text: what is written, before anybody asks what it means. Objects keep
repeated names, strings their escapes and numbers their digits. Nesting is not limited here. -/
namespace WalletSession.Json

inductive Tree
  | null
  | bool (b : Bool)
  | number (n : Numeral)
  | string (pieces : List Piece)
  | array (items : List Tree)
  | object (members : List (List Piece × Tree))
  deriving Repr

namespace Tree

instance : Inhabited Tree := ⟨.null⟩

end Tree

/-- A container that is still open, newest part first. -/
inductive Frame
  | array (items : List Tree)
  /-- The value of `name` is being read. -/
  | object (members : List (List Piece × Tree)) (name : List Piece)

/-- What may come next. `fresh` marks a container that holds nothing yet and may close. -/
inductive Awaited
  | value (stack : List Frame) (fresh : Bool)
  | name (stack : List Frame) (members : List (List Piece × Tree)) (fresh : Bool)
  | colon (stack : List Frame) (members : List (List Piece × Tree)) (name : List Piece)
  /-- A value is complete inside the open containers. -/
  | more (stack : List Frame) (value : Tree)

namespace Awaited

def step : Awaited → Token → Option Awaited
  | .value stack _, .null => some (.more stack .null)
  | .value stack _, .bool b => some (.more stack (.bool b))
  | .value stack _, .number n => some (.more stack (.number n))
  | .value stack _, .string pieces => some (.more stack (.string pieces))
  | .value stack _, .openArray => some (.value (.array [] :: stack) true)
  | .value stack _, .openObject => some (.name stack [] true)
  | .value (.array _ :: stack) true, .closeArray => some (.more stack (.array []))
  | .name stack members _, .string pieces => some (.colon stack members pieces)
  | .name stack _ true, .closeObject => some (.more stack (.object []))
  | .colon stack members key, .colon => some (.value (.object members key :: stack) false)
  | .more (.array items :: stack) v, .comma => some (.value (.array (v :: items) :: stack) false)
  | .more (.array items :: stack) v, .closeArray => some (.more stack (.array (v :: items).reverse))
  | .more (.object members key :: stack) v, .comma =>
    some (.name stack ((key, v) :: members) false)
  | .more (.object members key :: stack) v, .closeObject =>
    some (.more stack (.object ((key, v) :: members).reverse))
  | _, _ => none

def run : Awaited → List Token → Option Awaited
  | a, [] => some a
  | a, t :: rest =>
    match a.step t with
    | some next => next.run rest
    | none => none

def finish : Awaited → Option Tree
  | .more [] v => some v
  | _ => none

theorem run_append (a : Awaited) (xs ys : List Token) :
    a.run (xs ++ ys) = (a.run xs).bind (·.run ys) := by
  induction xs generalizing a with
  | nil => rfl
  | cons t rest ih =>
    simp only [List.cons_append, run]
    cases a.step t with
    | none => rfl
    | some next => exact ih next

end Awaited

/-- The syntax of a text that holds one value and nothing else. -/
def Tree.parse? (cs : List Char) : Option Tree :=
  (tokens? cs).bind fun tokens => ((Awaited.value [] false).run tokens).bind Awaited.finish

end WalletSession.Json
