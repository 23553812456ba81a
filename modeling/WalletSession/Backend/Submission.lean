import WalletSession.Wallet.Signing

/-! A signed challenge on its way to the backend: one flat object that holds the signed message
and the public key. Its reader looks at every member, so unknown members must hold readable
values, and it takes no array. -/
namespace WalletSession

open Json

structure SignatureSubmission where
  signed : SignedMessage
  publicKey : String
  deriving Repr

namespace SignatureSubmission

def toJson (s : SignatureSubmission) : Json :=
  .object (s.signed.members ++ [("publicKey", .string s.publicKey)])

/-- The public key and then the fields of the signed message. -/
def fields : Reader.Fields := ["publicKey"] :: SignedMessage.fields

def read : Reader SignatureSubmission
  | depth + 1, .object members => do
    let _ ← Reader.jsonMembers depth members
    match ← Reader.fillAll fields (Reader.emptySlots fields) members with
    | publicKey :: slots => do
      let publicKey ← Reader.required Reader.string depth publicKey
      let signed ← SignedMessage.ofSlots depth slots
      some { signed, publicKey }
    | [] => none
  | _, _ => none

instance : Wire SignatureSubmission := ⟨toJson, read⟩

end SignatureSubmission

end WalletSession
