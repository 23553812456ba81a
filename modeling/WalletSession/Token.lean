import WalletSession.Json.Reader

/-! The record of a session: a credential bound to one account, with the nonce of its handshake
and whether the backend has checked a signature over it. A record is merged field by field with
what the backend answers, and claims to be verified only if there is something to verify. -/
namespace WalletSession

structure SessionToken where
  /-- The credential; there is none until a challenge was issued. -/
  token : Option String := none
  account : Option String := none
  nonce : Option String := none
  verified : Bool := false
  /-- When the backend issued the record, in seconds. -/
  createdAt : Option Binary64 := none
  deriving DecidableEq, Repr, Inhabited

namespace SessionToken

/-- The key under which the record is stored. -/
def storageKey : String := "auth_token"

/-- The draft that asks for a challenge. -/
def withAccount (account : String) : SessionToken := { account := some account }

/-- There is something to revalidate. -/
def isPresent (t : SessionToken) : Bool := t.token.isSome && t.account.isSome

/-- Drops a claim to be verified that no credential and account back. -/
def normalized (t : SessionToken) : SessionToken :=
  if t.verified && !t.isPresent then { t with verified := false } else t

/-- Lays an answer over the record: absent fields keep their value, the claim to be verified is
the answer's. -/
def merge (t incoming : SessionToken) : SessionToken :=
  normalized
    { token := incoming.token.or t.token
      account := incoming.account.or t.account
      nonce := incoming.nonce.or t.nonce
      verified := incoming.verified
      createdAt := incoming.createdAt.or t.createdAt }

open Json

def toJson (t : SessionToken) : Json :=
  .object
    [("token", ofOption .string t.token),
      ("account", ofOption .string t.account),
      ("nonce", ofOption .string t.nonce),
      ("verified_token", .bool t.verified),
      ("created_at", ofOption (fun x => .number (.real x)) t.createdAt)]

/-- The claim to be verified may also be called `verified`. -/
def fields : Reader.Fields :=
  [["token"], ["account"], ["nonce"], ["verified_token", "verified"], ["created_at"]]

def read : Reader SessionToken :=
  Reader.record fields fun depth slots =>
    match slots with
    | [token, account, nonce, verified, createdAt] => do
      let token ← Reader.optional Reader.string depth token
      let account ← Reader.optional Reader.string depth account
      let nonce ← Reader.optional Reader.string depth nonce
      let verified ← Reader.withDefault false Reader.bool depth verified
      let createdAt ← Reader.optional Reader.binary64 depth createdAt
      some { token, account, nonce, verified, createdAt }
    | _ => none

instance : Wire SessionToken := ⟨toJson, read⟩

/-- A record that does not read as present is never verified. -/
theorem isPresent_of_verified_normalized (t : SessionToken)
    (h : t.normalized.verified = true) : t.normalized.isPresent = true := by
  unfold normalized at h ⊢
  split at h <;> simp_all

theorem normalized_idem (t : SessionToken) : t.normalized.normalized = t.normalized := by
  unfold normalized
  split <;> simp_all

end SessionToken

end WalletSession
