import WalletSession.AuthError

/-! Edges of the handshake. `transition` is total: a pair without an edge is an
`invalidTransition`, and `Phase.after` leaves the phase alone on such an event. -/
namespace WalletSession

/-- Where an event leads, and what is to be done then. -/
structure Step where
  phase : Phase
  effect : Effect
  deriving DecidableEq, Repr

/-- Every phase can be reset and every pending phase can fail; the other edges run forward. -/
def transition : Phase → Event → Except AuthError Step
  | _, .reset => .ok ⟨.unauthenticated, .clearSession⟩
  | .unauthenticated, .start => .ok ⟨.pendingNonce, .requestNonce⟩
  | .pendingNonce, .nonceIssued => .ok ⟨.pendingSignature, .requestSignature⟩
  | .pendingSignature, .signed => .ok ⟨.pendingVerification, .submitSignature⟩
  | .pendingSignature, .declined => .ok ⟨.unauthenticated, .clearSession⟩
  | .pendingVerification, .accepted => .ok ⟨.verified, .nothing⟩
  | .pendingVerification, .rejected => .ok ⟨.unauthenticated, .nothing⟩
  | .unauthenticated, .revalidate | .verified, .revalidate =>
    .ok ⟨.revalidating, .requestStatus⟩
  | .revalidating, .stillValid => .ok ⟨.verified, .nothing⟩
  | .revalidating, .revoked => .ok ⟨.unauthenticated, .clearSession⟩
  | phase, .failed =>
    if phase.isPending then .ok ⟨.unauthenticated, .nothing⟩
    else .error (.invalidTransition phase .failed)
  | phase, event => .error (.invalidTransition phase event)

namespace Phase

/-- The phase after an event; one that has no edge is ignored. -/
def after (phase : Phase) (event : Event) : Phase :=
  match transition phase event with
  | .ok step => step.phase
  | .error _ => phase

/-- What each event of a list answers when they are applied in order. -/
def walk : Phase → List Event → List (Except AuthError Step)
  | _, [] => []
  | phase, event :: rest => transition phase event :: (phase.after event).walk rest

end Phase

/-- The work depends on the event alone. -/
theorem effect_of_transition {phase : Phase} {event : Event} {step : Step}
    (accepted : transition phase event = .ok step) : step.effect = event.effect := by
  cases phase <;> cases event <;> cases accepted <;> rfl

theorem transition_reset (phase : Phase) :
    transition phase .reset = .ok ⟨.unauthenticated, .clearSession⟩ := by
  cases phase <;> rfl

theorem transition_failed (phase : Phase) (pending : phase.isPending = true) :
    transition phase .failed = .ok ⟨.unauthenticated, .nothing⟩ := by
  cases phase <;> first | rfl | cases pending

end WalletSession
