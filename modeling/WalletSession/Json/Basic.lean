import WalletSession.Binary64.Rounding

/-! JSON values. A number is kept as an integer where it is one and fits 64 bits, and as a binary
number otherwise. Members stand in the order in which they are written. -/
namespace WalletSession

inductive Number
  /-- From `-2 ^ 63` to `2 ^ 64 - 1`. -/
  | integer (n : Int)
  | real (x : Binary64)
  deriving DecidableEq, Repr

def Number.toBinary64 : Number → Binary64
  | .integer n => .ofInt n
  | .real x => x

inductive Json
  | null
  | bool (b : Bool)
  | number (n : Number)
  | string (s : String)
  | array (items : List Json)
  | object (members : List (String × Json))
  deriving Repr

namespace Json

instance : Inhabited Json := ⟨.null⟩

/-- Puts a member into its place in the order of the names, over one of the same name. -/
def insertMember (name : String) (value : Json) : List (String × Json) → List (String × Json)
  | [] => [(name, value)]
  | (n, v) :: rest =>
    if name < n then (name, value) :: (n, v) :: rest
    else if name = n then (name, value) :: rest
    else (n, v) :: insertMember name value rest

/-- The members in the order of their names; of several of one name the last counts. -/
def sortMembers (members : List (String × Json)) : List (String × Json) :=
  members.foldl (fun sorted m => insertMember m.1 m.2 sorted) []

end Json

end WalletSession
