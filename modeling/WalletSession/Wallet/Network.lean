import WalletSession.Json.Reader

/-! The network that a wallet points at, and its JSON form. -/
namespace WalletSession

open Json

/-- The network that the wallet points at. -/
structure Network where
  api : String
  chainId : String
  deriving DecidableEq, Repr

namespace Network

def toJson (n : Network) : Json := .object [("api", .string n.api), ("chainId", .string n.chainId)]

def fields : Reader.Fields := [["api"], ["chainId"]]

def read : Reader Network :=
  Reader.record fields fun depth slots =>
    match slots with
    | [api, chainId] => do
      let api ← Reader.required Reader.string depth api
      let chainId ← Reader.required Reader.string depth chainId
      some { api, chainId }
    | _ => none

instance : Wire Network := ⟨toJson, read⟩

end Network

end WalletSession
