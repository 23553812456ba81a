import WalletSession.Json.Reader

/-! Questions to the chain: the call of a view function. -/
namespace WalletSession

open Json

structure ViewRequest where
  function : String
  typeArguments : List String
  arguments : List String
  deriving DecidableEq, Repr

namespace ViewRequest

/-- Asks for the balance that a contract holds for an account. -/
def balanceOf (contract account : String) : ViewRequest :=
  { function := contract ++ "::vibe_balance::get_balance", typeArguments := [],
    arguments := [account] }

def toJson (r : ViewRequest) : Json :=
  .object
    [("function", .string r.function), ("type_arguments", .array (r.typeArguments.map .string)),
      ("arguments", .array (r.arguments.map .string))]

def fields : Reader.Fields := [["function"], ["type_arguments"], ["arguments"]]

def read : Reader ViewRequest :=
  Reader.record fields fun depth slots =>
    match slots with
    | [function, typeArguments, arguments] => do
      let function ← Reader.required Reader.string depth function
      let typeArguments ← Reader.required (Reader.list Reader.string) depth typeArguments
      let arguments ← Reader.required (Reader.list Reader.string) depth arguments
      some { function, typeArguments, arguments }
    | _ => none

instance : Wire ViewRequest := ⟨toJson, read⟩

end ViewRequest

end WalletSession
