/-! Phases of the challenge/response handshake, the events that move between them and the work
that an accepted event asks for. The names are the ones that error texts show. -/
namespace WalletSession

inductive Phase
  | unauthenticated
  | pendingNonce
  | pendingSignature
  | pendingVerification
  | verified
  | revalidating
  deriving DecidableEq, Repr

namespace Phase

instance : Inhabited Phase := ⟨.unauthenticated⟩

def all : List Phase :=
  [.unauthenticated, .pendingNonce, .pendingSignature, .pendingVerification, .verified,
    .revalidating]

/-- A handshake or a revalidation is waiting for somebody else. -/
def isPending : Phase → Bool
  | .pendingNonce | .pendingSignature | .pendingVerification | .revalidating => true
  | .unauthenticated | .verified => false

def name : Phase → String
  | .unauthenticated => "Unauthenticated"
  | .pendingNonce => "PendingNonce"
  | .pendingSignature => "PendingSignature"
  | .pendingVerification => "PendingVerification"
  | .verified => "Verified"
  | .revalidating => "Revalidating"

theorem mem_all (p : Phase) : p ∈ all := by cases p <;> decide

end Phase

inductive Event
  /-- A full handshake begins from a clean state. -/
  | start
  | nonceIssued
  | signed
  /-- The user turned the signing prompt down. -/
  | declined
  | accepted
  /-- The backend answered, and does not take the signature. -/
  | rejected
  /-- Somebody who was asked failed. -/
  | failed
  | revalidate
  | stillValid
  | revoked
  | reset
  deriving DecidableEq, Repr

namespace Event

def all : List Event :=
  [.start, .nonceIssued, .signed, .declined, .accepted, .rejected, .failed, .revalidate,
    .stillValid, .revoked, .reset]

def name : Event → String
  | .start => "Start"
  | .nonceIssued => "NonceIssued"
  | .signed => "Signed"
  | .declined => "Declined"
  | .accepted => "Accepted"
  | .rejected => "Rejected"
  | .failed => "Failed"
  | .revalidate => "Revalidate"
  | .stillValid => "StillValid"
  | .revoked => "Revoked"
  | .reset => "Reset"

theorem mem_all (e : Event) : e ∈ all := by cases e <;> decide

end Event

/-- The work that follows an accepted event. -/
inductive Effect
  | requestNonce
  | requestSignature
  | submitSignature
  | requestStatus
  /-- Forget the session, in memory and in the store. -/
  | clearSession
  | nothing
  deriving DecidableEq, Repr

namespace Effect

def name : Effect → String
  | .requestNonce => "RequestNonce"
  | .requestSignature => "RequestSignature"
  | .submitSignature => "SubmitSignature"
  | .requestStatus => "RequestStatus"
  | .clearSession => "ClearSession"
  | .nothing => "None"

end Effect

/-- The work that an event leads to, wherever it has an edge. -/
def Event.effect : Event → Effect
  | .start => .requestNonce
  | .nonceIssued => .requestSignature
  | .signed => .submitSignature
  | .revalidate => .requestStatus
  | .declined | .revoked | .reset => .clearSession
  | .accepted | .rejected | .failed | .stillValid => .nothing

end WalletSession
