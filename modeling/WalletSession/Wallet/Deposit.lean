import WalletSession.Json.Reader

/-! Calls of entry functions that the wallet submits to the chain, and how it reports on them. -/
namespace WalletSession

open Json

/-- A call of an entry function on the chain. -/
structure EntryFunctionPayload where
  function : String
  arguments : List String
  deriving DecidableEq, Repr

namespace EntryFunctionPayload

def toJson (p : EntryFunctionPayload) : Json :=
  .object [("function", .string p.function), ("arguments", .array (p.arguments.map .string))]

def fields : Reader.Fields := [["function"], ["arguments"]]

def read : Reader EntryFunctionPayload :=
  Reader.record fields fun depth slots =>
    match slots with
    | [function, arguments] => do
      let function ← Reader.required Reader.string depth function
      let arguments ← Reader.required (Reader.list Reader.string) depth arguments
      some { function, arguments }
    | _ => none

instance : Wire EntryFunctionPayload := ⟨toJson, read⟩

end EntryFunctionPayload

structure SubmitResponse where
  success : Bool
  result : Option Json := none
  deriving Repr

namespace SubmitResponse

def toJson (r : SubmitResponse) : Json :=
  .object [("success", .bool r.success), ("result", ofOption id r.result)]

def fields : Reader.Fields := [["success"], ["result"]]

def read : Reader SubmitResponse :=
  Reader.record fields fun depth slots =>
    match slots with
    | [success, result] => do
      let success ← Reader.required Reader.bool depth success
      let result ← Reader.optional Reader.json depth result
      some { success, result }
    | _ => none

instance : Wire SubmitResponse := ⟨toJson, read⟩

end SubmitResponse

end WalletSession
