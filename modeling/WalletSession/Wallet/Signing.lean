import WalletSession.Json.Reader

/-! What the wallet is asked to sign and what it answers. Optional fields of a signed message are
left out where they are absent; an absent result of a prompt is written as null. -/
namespace WalletSession

open Json

/-- A message to be signed; the flags ask the wallet to sign its context as well. -/
structure SignMessagePayload where
  address : Bool
  application : Bool
  chainId : Bool
  message : String
  nonce : String
  deriving DecidableEq, Repr

namespace SignMessagePayload

/-- A challenge is signed with all of its context. -/
def challenge (message nonce : String) : SignMessagePayload :=
  { address := true, application := true, chainId := true, message, nonce }

def toJson (p : SignMessagePayload) : Json :=
  .object
    [("address", .bool p.address), ("application", .bool p.application),
      ("chainId", .bool p.chainId), ("message", .string p.message), ("nonce", .string p.nonce)]

def fields : Reader.Fields := [["address"], ["application"], ["chainId"], ["message"], ["nonce"]]

def read : Reader SignMessagePayload :=
  Reader.record fields fun depth slots =>
    match slots with
    | [address, application, chainId, message, nonce] => do
      let address ← Reader.required Reader.bool depth address
      let application ← Reader.required Reader.bool depth application
      let chainId ← Reader.required Reader.bool depth chainId
      let message ← Reader.required Reader.string depth message
      let nonce ← Reader.required Reader.string depth nonce
      some { address, application, chainId, message, nonce }
    | _ => none

instance : Wire SignMessagePayload := ⟨toJson, read⟩

end SignMessagePayload

structure SignOptions where
  useNewFormat : Bool := true
  deriving DecidableEq, Repr

namespace SignOptions

def toJson (o : SignOptions) : Json := .object [("useNewFormat", .bool o.useNewFormat)]

def fields : Reader.Fields := [["useNewFormat"]]

def read : Reader SignOptions :=
  Reader.record fields fun depth slots =>
    match slots with
    | [useNewFormat] => do
      let useNewFormat ← Reader.required Reader.bool depth useNewFormat
      some { useNewFormat }
    | _ => none

instance : Wire SignOptions := ⟨toJson, read⟩

end SignOptions

/-- A message as the wallet has signed it. -/
structure SignedMessage where
  message : String
  nonce : String
  signature : List UInt8
  address : Option String := none
  application : Option String := none
  chainId : Option Json := none
  /-- The whole text that was signed, with the wallet's additions. -/
  fullMessage : Option String := none
  leading : Option String := none
  deriving Repr

namespace SignedMessage

def byteJson (b : UInt8) : Json := .number (.integer b.toNat)

/-- A member for a field that is present, and none for one that is not. -/
def presentMember {α : Type} (name : String) (f : α → Json) :
    Option α → List (String × Json)
  | none => []
  | some a => [(name, f a)]

def members (s : SignedMessage) : List (String × Json) :=
  [("message", .string s.message), ("nonce", .string s.nonce),
    ("signature", .array (s.signature.map byteJson))] ++
  presentMember "address" .string s.address ++
  presentMember "application" .string s.application ++
  presentMember "chainId" id s.chainId ++
  presentMember "fullMessage" .string s.fullMessage ++
  presentMember "prefix" .string s.leading

def toJson (s : SignedMessage) : Json := .object s.members

def fields : Reader.Fields :=
  [["message"], ["nonce"], ["signature"], ["address"], ["application"], ["chainId"],
    ["fullMessage"], ["prefix"]]

def ofSlots (depth : Nat) (slots : Reader.Slots) : Option SignedMessage :=
  match slots with
  | [message, nonce, signature, address, application, chainId, fullMessage, leading] => do
    let message ← Reader.required Reader.string depth message
    let nonce ← Reader.required Reader.string depth nonce
    let signature ← Reader.required (Reader.list Reader.byte) depth signature
    let address ← Reader.optional Reader.string depth address
    let application ← Reader.optional Reader.string depth application
    let chainId ← Reader.optional Reader.json depth chainId
    let fullMessage ← Reader.optional Reader.string depth fullMessage
    let leading ← Reader.optional Reader.string depth leading
    some { message, nonce, signature, address, application, chainId, fullMessage, leading }
  | _ => none

def read : Reader SignedMessage := Reader.record fields ofSlots

instance : Wire SignedMessage := ⟨toJson, read⟩

end SignedMessage

/-- The answer to a signing prompt. A prompt that was turned down is not a success. -/
structure SignMessageResponse where
  success : Bool
  result : Option SignedMessage := none
  deriving Repr

namespace SignMessageResponse

def toJson (r : SignMessageResponse) : Json :=
  .object [("success", .bool r.success), ("result", ofOption SignedMessage.toJson r.result)]

def fields : Reader.Fields := [["success"], ["result"]]

def read : Reader SignMessageResponse :=
  Reader.record fields fun depth slots =>
    match slots with
    | [success, result] => do
      let success ← Reader.required Reader.bool depth success
      let result ← Reader.optional SignedMessage.read depth result
      some { success, result }
    | _ => none

instance : Wire SignMessageResponse := ⟨toJson, read⟩

end SignMessageResponse

end WalletSession
