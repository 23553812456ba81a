import Mathlib.Data.List.Infix
import Mathlib.Data.List.Induction
import WalletSession.Machine.Transition

/-! How a phase is reached. An accepted event says by itself which phase it leads to, and each step of
a handshake or a check is accepted in one phase only, the one that the step before it leads to. So
the accepted events of a run end as the phase requires, however many others are refused between
them. -/
namespace WalletSession

/-- The phase that an event leads to, wherever it has an edge. -/
def Event.target : Event → Phase
  | .start => .pendingNonce
  | .nonceIssued => .pendingSignature
  | .signed => .pendingVerification
  | .accepted | .stillValid => .verified
  | .revalidate => .revalidating
  | .declined | .rejected | .failed | .revoked | .reset => .unauthenticated

/-- The phase depends on the event alone. -/
theorem phase_of_transition {phase : Phase} {event : Event} {step : Step}
    (accepted : transition phase event = .ok step) : step.phase = event.target := by
  cases phase <;> cases event <;> cases accepted <;> rfl

namespace Phase

/-- The phase after a list of events. -/
def run (phase : Phase) (events : List Event) : Phase := events.foldl after phase

/-- The events of a list that are accepted when they are applied in order. -/
def taken (phase : Phase) (events : List Event) : List Event :=
  ((events.zip (phase.walk events)).filter (·.2.isOk)).map Prod.fst

/-- The last accepted events with which a phase is reached. A run may always get to be
unauthenticated. -/
def routes : Phase → List (List Event)
  | .unauthenticated => [[]]
  | .pendingNonce => [[.start]]
  | .pendingSignature => [[.start, .nonceIssued]]
  | .pendingVerification => [[.start, .nonceIssued, .signed]]
  | .verified => [[.start, .nonceIssued, .signed, .accepted], [.revalidate, .stillValid]]
  | .revalidating => [[.revalidate]]

/-- These events are accepted one after the other from the beginning, and lead to the phase. -/
inductive Leads : List Event → Phase → Prop
  | start : Leads [] .unauthenticated
  | step {path : List Event} {phase : Phase} {event : Event} {next : Step} (leads : Leads path phase)
      (accepted : transition phase event = .ok next) : Leads (path ++ [event]) next.phase

section Runs

variable {phase : Phase} {event : Event} {next : Step}

theorem after_of_accepted (accepted : transition phase event = .ok next) :
    phase.after event = next.phase := by
  rw [after, accepted]

theorem after_of_refused {e : AuthError} (refused : transition phase event = .error e) :
    phase.after event = phase := by
  rw [after, refused]

theorem taken_cons (events : List Event) : phase.taken (event :: events) =
    (if (transition phase event).isOk then [event] else []) ++ (phase.after event).taken events := by
  cases edge : transition phase event <;> simp [taken, walk, edge, Except.isOk, Except.toBool]

theorem taken_append (phase : Phase) (events more : List Event) :
    phase.taken (events ++ more) = phase.taken events ++ (phase.run events).taken more := by
  induction events generalizing phase with
  | nil => rfl
  | cons event events ih =>
    rw [List.cons_append, taken_cons, taken_cons, ih, List.append_assoc]
    rfl

/-- What a run has accepted leads to its phase. -/
theorem leads_taken (events : List Event) :
    Leads (taken .unauthenticated events) (run .unauthenticated events) := by
  induction events using List.reverseRecOn with
  | nil => exact .start
  | append_singleton events event ih =>
    have last : run .unauthenticated (events ++ [event]) =
        (run .unauthenticated events).after event := List.foldl_append
    rw [taken_append, last, taken_cons]
    cases edge : transition (run .unauthenticated events) event with
    | ok next =>
      rw [after_of_accepted edge]
      exact ih.step edge
    | error e =>
      rw [after_of_refused edge]
      exact (List.append_nil _).symm ▸ ih

end Runs

section Leads

variable {path : List Event} {phase : Phase}

/-- A step comes from the phase before it on its route, unless it is the first. -/
theorem extends_route {event : Event} {next : Step} (accepted : transition phase event = .ok next) :
    ∃ last ∈ next.phase.routes, ∀ route ∈ phase.routes, last <:+ route ++ [event] := by
  cases phase <;> cases event <;> cases accepted <;> decide

theorem Leads.route (leads : Leads path phase) : ∃ route ∈ phase.routes, route <:+ path := by
  induction leads with
  | start => exact ⟨[], List.mem_cons_self, List.suffix_rfl⟩
  | @step path phase event next leads accepted ih =>
    obtain ⟨route, known, ends⟩ := ih
    obtain ⟨last, known', extends'⟩ := extends_route accepted
    refine ⟨last, known', (extends' route known).trans ?_⟩
    exact List.suffix_append_self_iff.mpr ends

/-- A route ends with an event that leads to its phase. -/
theorem target_of_route {route : List Event} (known : route ∈ phase.routes) (event : Event)
    (last : route.getLast? = some event) : event.target = phase := by
  revert route event
  cases phase <;> decide +revert

theorem Leads.target (leads : Leads path phase) (event : Event)
    (last : path.getLast? = some event) : phase = event.target := by
  cases leads with
  | start => contradiction
  | step leads accepted =>
    rw [List.getLast?_concat] at last
    exact Option.some.inj last ▸ phase_of_transition accepted

end Leads

/-- A phase other than unauthenticated is reached by its routes, and by nothing else. -/
theorem reaches_iff {phase : Phase} (led : phase ≠ .unauthenticated) (events : List Event) :
    run .unauthenticated events = phase ↔
      ∃ route ∈ phase.routes, route <:+ taken .unauthenticated events := by
  have leads := leads_taken events
  constructor
  · intro reached
    exact reached ▸ leads.route
  · rintro ⟨route, known, ends⟩
    have long : route ≠ [] := by
      rintro rfl
      revert known
      cases phase <;> first | contradiction | decide
    have last := ends.getLast long
    have there := List.getLast?_eq_some_getLast (ends.ne_nil long)
    rw [leads.target _ there, ← last]
    exact target_of_route known _ (List.getLast?_eq_some_getLast long)

/-- No list of events skips a step: what a run has accepted last decides whether it is verified, and
so it does for each pending phase at every point of the run. -/
theorem no_step_is_skipped (events : List Event) :
    (run .unauthenticated events = .verified ↔
      [.start, .nonceIssued, .signed, .accepted] <:+ taken .unauthenticated events ∨
        [.revalidate, .stillValid] <:+ taken .unauthenticated events) ∧
    ∀ n : Nat,
      (run .unauthenticated (events.take n) = .pendingNonce ↔
        [.start] <:+ taken .unauthenticated (events.take n)) ∧
      (run .unauthenticated (events.take n) = .pendingSignature ↔
        [.start, .nonceIssued] <:+ taken .unauthenticated (events.take n)) ∧
      (run .unauthenticated (events.take n) = .pendingVerification ↔
        [.start, .nonceIssued, .signed] <:+ taken .unauthenticated (events.take n)) ∧
      (run .unauthenticated (events.take n) = .revalidating ↔
        [.revalidate] <:+ taken .unauthenticated (events.take n)) := by
  constructor
  · rw [reaches_iff (by decide)]
    simp only [routes, List.mem_cons, List.not_mem_nil, or_false, exists_eq_or_imp, exists_eq_left]
  · intro n
    have single {phase : Phase} {route : List Event} (led : phase ≠ .unauthenticated)
        (only : phase.routes = [route]) : run .unauthenticated (events.take n) = phase ↔
          route <:+ taken .unauthenticated (events.take n) := by
      rw [reaches_iff led, only]
      simp only [List.mem_singleton, exists_eq_left]
    exact ⟨single (by decide) rfl, single (by decide) rfl, single (by decide) rfl,
      single (by decide) rfl⟩

/-- Refused events between the steps do not matter. -/
example :
    let events : List Event := [.signed, .start, .accepted, .nonceIssued, .start, .signed, .accepted]
    taken .unauthenticated events = [.start, .nonceIssued, .signed, .accepted] ∧
      run .unauthenticated events = .verified := by decide

end Phase

end WalletSession
