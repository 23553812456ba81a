import WalletSession.Proofs.World.Agreement
import WalletSession.Proofs.World.Alone

/-! Connecting a wallet that is connected already is a check and, if the check says no, a handshake.
The two are one flight there and two flights here; they ask the same questions, write the same records
and come to the same end, whatever the answers and whatever the store does. -/
namespace WalletSession

/-- What connecting returns where a handshake returns this. -/
def Value.flagged : Value → Value
  | .outcome o => .flag o.isVerified
  | v => v

def Stop.flagged : Stop → Stop
  | .wait a => .wait a
  | .finish v => .finish v.flagged

def Move.flagged : Move → Move
  | .board => .board
  | .stop s => .stop s.flagged

theorem Stop.map_flagged (stop : Except AuthError Stop) :
    (stop.map Move.stop).map Move.flagged = (stop.map Stop.flagged).map Move.stop := by
  cases stop <;> rfl

theorem Agrees.connects {connected : Bool} {value : Except AuthError Value}
    (agrees : Agrees connected .connect value) : connected = true ↔ value = .ok (.flag true) := by
  cases value with
  | ok v => simp_all [Agrees]
  | error e => simp_all [Agrees]

variable {σ : Type} [TokenStore σ]

namespace Session

variable {s s' last : Session σ} {call : Call} {reply : Replies} {a : Await} {limit n : Nat}
  {stop : Except AuthError Stop} {told : List Contact} {value : Except AuthError Value}

section Handshake

variable (shakes : call = .handshake ∨ call = .handshakeOutcome)
include shakes

theorem perform_startHandshake_flagged (s : Session σ) :
    s.perform (startHandshake .connect) =
      ((s.perform (startHandshake call)).1.map Stop.flagged,
        (s.perform (startHandshake call)).2) := by
  rw [perform_startHandshake, perform_startHandshake]
  rcases shakes with rfl | rfl <;> cases (TokenStore.clear s.store).1 <;> cases s.hasWallet <;> rfl

omit [TokenStore σ] in
theorem perform_endHandshake_flagged (s : Session σ) (o : HandshakeOutcome) :
    s.perform (endHandshake .connect o) =
      ((s.perform (endHandshake call o)).1.map Stop.flagged, (s.perform (endHandshake call o)).2) := by
  rcases shakes with rfl | rfl <;> rfl

omit shakes in
/-- A handshake starts over: how it begins does not depend on what was written before. -/
theorem perform_startHandshake_rested (call : Call) (s : Session σ) :
    (s.perform (startHandshake call)).1 = (s.rested.perform (startHandshake call)).1 ∧
      (s.perform (startHandshake call)).2 = s.forgotten ∧
      (s.rested.perform (startHandshake call)).2 = s.rested.forgotten := by
  rw [perform_startHandshake, perform_startHandshake, rested_store]
  cases (TokenStore.clear s.store).1 <;> exact ⟨rfl, rfl, rfl⟩

/-- In a handshake, connecting does what the handshake does. -/
theorem perform_resume_flagged (s : Session σ) (suits : a.isOf call = true)
    (answer : Except AuthError a.Reply) :
    s.perform (resume .connect a answer) =
      ((s.perform (resume call a answer)).1.map Move.flagged,
        (s.perform (resume call a answer)).2) := by
  have outcome := perform_endHandshake_flagged (σ := σ) shakes
  cases a with
  | account =>
    simp only [resume, perform_bind]
    rcases s.perform (onAccount answer) with ⟨_ | _, _⟩ <;> rfl
  | issue draft =>
    simp only [resume, perform_bind]
    rcases s.perform (onIssued draft answer) with ⟨_ | _, _⟩ <;> rfl
  | publicKey signed =>
    simp only [resume, perform_bind]
    rcases s.perform (onPublicKey signed answer) with ⟨_ | _, _⟩ <;> rfl
  | signature payload =>
    simp only [resume, perform_bind]
    rcases s.perform (onSigned answer) with ⟨_ | _ | _, s'⟩
    · rfl
    · simp only [perform_stop, outcome, Stop.map_flagged]
    · rfl
  | verify submission =>
    simp only [resume, perform_bind]
    rcases s.perform (onVerified answer) with ⟨_ | _, s'⟩
    · rfl
    · simp only [outcome]
      rcases s'.perform (endHandshake call .verified) with ⟨_ | _, _⟩ <;> rfl
  | _ => rcases shakes with rfl | rfl <;> contradiction

theorem Goes.flagged (goes : Goes reply call n stop s told value last)
    (due : ∀ a, stop = .ok (.wait a) → s.rested.Due call limit a) :
    Goes reply .connect n (stop.map Stop.flagged) s told (value.map Value.flagged) last := by
  induction goes generalizing limit with
  | returns => exact .returns
  | fails => exact .fails
  | @asks n s s' last a next later value performed goes ih =>
    obtain ⟨next', s'', fewer, performed', _, _, due'⟩ := (due a rfl).resumes (reply a.request)
    obtain ⟨same, rfl⟩ := Prod.mk.inj (performed.symm.trans performed')
    obtain rfl := Stop.map_inj same
    have resumed := perform_resume_flagged shakes s.rested (due a rfl).suits (reply a.request)
    rw [performed, Stop.map_flagged] at resumed
    exact .asks resumed (ih due')

end Handshake

section Courses

omit [TokenStore σ] in
theorem rested_apart {s s' : Session σ} (alike : s.withConnected false = s'.withConnected false) :
    s.deeds = s'.deeds ∧ s.rested.withConnected false = s'.rested.withConnected false := by
  have deeds := congrArg Session.deeds alike
  have rested := congrArg Session.rested alike
  exact ⟨deeds, rested⟩

/-- Only what is written from now on matters to how a call goes on. -/
theorem Goes.earlier {deeds : List Deed} (goes : Goes reply call n stop s told value last)
    (same : s'.rested = s.rested) (written : s'.deeds = deeds ++ s.deeds) :
    Goes reply call n stop s' (deeds.map .deed ++ told) value last := by
  cases goes with
  | returns =>
    rw [← List.map_append, ← written, ← same]
    exact .returns
  | fails =>
    rw [← List.map_append, ← written, ← same]
    exact .fails
  | asks performed goes =>
    rw [← List.append_assoc, ← List.map_append, ← written]
    exact .asks (same ▸ performed) goes

theorem Runs.ends (reply : Replies) (call : Call) (value : Except AuthError Value) (s : Session σ) :
    Runs reply call (value.map .finish, s) (s.deeds.map .deed) value s.rested := by
  cases value with
  | ok v => exact ⟨0, .returns⟩
  | error e => exact ⟨0, .fails⟩

theorem Runs.asks {next : Except AuthError Stop × Session σ}
    (performed : s.rested.perform (resume call a (reply a.request)) = (next.1.map .stop, next.2))
    (runs : Runs reply call next told value last) :
    Runs reply call (.ok (.wait a), s) (s.deeds.map .deed ++ .question a.request :: told) value
      last := by
  obtain ⟨n, goes⟩ := runs
  exact ⟨n + 1, .asks performed goes⟩

/-- How a check goes on from a stretch, with another call after it if it says no. -/
inductive Composed (reply : Replies) (call : Call) (stretch : Except AuthError Stop × Session σ) :
    List Contact → Except AuthError Value → Session σ → Prop
  | decides {told : List Contact} {value : Except AuthError Value} {last : Session σ}
      (runs : Runs reply .check stretch told value last) (decided : value ≠ .ok (.flag false)) :
      Composed reply call stretch told value last
  | falls {told later : List Contact} {value : Except AuthError Value} {between last : Session σ}
      (runs : Runs reply .check stretch told (.ok (.flag false)) between)
      (plays : Plays reply call between later value last) :
      Composed reply call stretch (told ++ later) value last

theorem Composed.asks {next : Except AuthError Stop × Session σ}
    (performed : s.rested.perform (resume .check a (reply a.request)) = (next.1.map .stop, next.2))
    (composed : Composed reply call next told value last) :
    Composed reply call (.ok (.wait a), s) (s.deeds.map .deed ++ .question a.request :: told) value
      last := by
  cases composed with
  | decides runs decided => exact .decides (.asks performed runs) decided
  | falls runs plays =>
    rw [← List.cons_append, ← List.append_assoc]
    exact .falls (.asks performed runs) plays

/-- Connecting goes on from a stretch as a check and a handshake do from another one, but for the
flag. -/
def Follows (reply : Replies) (call : Call)
    (connects checks : Except AuthError Stop × Session σ) : Prop :=
  ∃ told value last last', Runs reply .connect connects told (value.map Value.flagged) last ∧
    Composed reply call checks told value last' ∧
    last.withConnected false = last'.withConnected false

theorem Follows.ends (reply : Replies) (call : Call) (value : Except AuthError Value)
    (same : value.map Value.flagged = value) (decided : value ≠ .ok (.flag false))
    (alike : s.withConnected false = s'.withConnected false) :
    Follows reply call (value.map .finish, s) (value.map .finish, s') := by
  obtain ⟨deeds, rested⟩ := rested_apart alike
  refine ⟨s'.deeds.map .deed, value, s.rested, s'.rested, ?_, .decides (.ends _ _ _ _) decided, rested⟩
  rw [same, ← deeds]
  exact .ends _ _ _ _

theorem Follows.asks {next next' : Except AuthError Stop × Session σ}
    (performed : s.rested.perform (resume .connect a (reply a.request)) =
      (next.1.map .stop, next.2))
    (performed' : s'.rested.perform (resume .check a (reply a.request)) =
      (next'.1.map .stop, next'.2))
    (deeds : s.deeds = s'.deeds) (follows : Follows reply call next next') :
    Follows reply call (.ok (.wait a), s) (.ok (.wait a), s') := by
  obtain ⟨told, value, last, last', runs, composed, alike⟩ := follows
  refine ⟨_, value, last, last', .asks performed runs, ?_, alike⟩
  rw [deeds]
  exact .asks performed' composed

end Courses

section Connecting

variable (shakes : call = .handshake ∨ call = .handshakeOutcome)
include shakes

/-- Once the session is forgotten, connecting begins the handshake that comes after the check. -/
theorem follows_forgotten (reply : Replies) (s : Session σ) :
    Follows reply call (s.afterForgetting .connect) (s.afterForgetting .check) := by
  unfold afterForgetting
  cases cleared : (TokenStore.clear s.store).1 with
  | error e => exact .ends reply call (.error e) rfl nofun rfl
  | ok =>
    have boards : call.boards = true := by rcases shakes with rfl | rfl <;> rfl
    have flies : (aboard call : Act σ Stop) = startHandshake call := by
      rcases shakes with rfl | rfl <;> rfl
    obtain ⟨told, value, last, n, goes⟩ := plays reply s.forgotten.rested boards
    have checks := Runs.ends reply .check (.ok (.flag false)) s.forgotten
    refine ⟨_, value, last, last, ⟨n, ?_⟩, .falls checks ⟨n, goes⟩, rfl⟩
    -- Both begin the handshake from here, and only the check has ended a flight before.
    obtain ⟨same, after, after'⟩ := perform_startHandshake_rested call s.forgotten
    have due := boards_due s.forgotten.rested boards
    rw [flies, ← same, after'] at goes due
    have connects := goes.flagged shakes due
    have began := perform_startHandshake_flagged shakes s.forgotten
    rw [after] at began
    rw [show s.forgotten.perform (afterCheck .connect false) = _ from began]
    exact connects.earlier rfl rfl

/-- The answer to a check. -/
theorem follows_answered (reply : Replies) (current : SessionToken)
    (answer : Except AuthError SessionToken) (inTime : s.state.phase = .revalidating) :
    Follows reply call
      ((s.withConnected false).perform (endCheck current answer >>= afterCheck .connect))
      (s.perform (endCheck current answer >>= afterCheck .check)) := by
  have inTime' : (s.withConnected false).state.phase = .revalidating := inTime
  match answer with
  | .error e =>
    rw [perform_bind, perform_bind, perform_endCheck_error _ _ _ inTime,
      perform_endCheck_error _ _ _ inTime']
    exact .ends reply call (.error e) rfl nofun rfl
  | .ok answer =>
    cases valid : (revalidated current answer).verified with
    | true =>
      rw [perform_endCheck_valid _ _ _ _ inTime valid, perform_endCheck_valid _ _ _ _ inTime' valid,
        withConnected_store]
      cases (TokenStore.save s.store (revalidated current answer)).1 with
      | ok => exact .ends reply call (.ok (.flag true)) rfl nofun rfl
      | error e => exact .ends reply call (.error e) rfl nofun rfl
    | false =>
      rw [perform_endCheck_invalid _ _ _ _ inTime valid,
        perform_endCheck_invalid _ _ _ _ inTime' valid]
      exact follows_forgotten shakes reply s

theorem follows_check (reply : Replies) (s : Session σ) :
    Follows reply call ((s.withConnected false).perform (startCheck .connect))
      (s.perform (startCheck .check)) := by
  cases present : s.state.token.isPresent with
  | false =>
    rw [perform_startCheck, perform_startCheck, withConnected_state_token, present]
    exact follows_forgotten shakes reply s
  | true =>
    cases pending : s.state.phase.isPending with
    | true =>
      rw [perform_startCheck_stranded s .check present pending,
        perform_startCheck_stranded (s.withConnected false) .connect present pending]
      exact .ends reply call (.error _) rfl nofun rfl
    | false =>
      rw [perform_startCheck_settled s .check present pending,
        perform_startCheck_settled (s.withConnected false) .connect present pending]
      exact .asks (perform_resume_status _ _ _ _) (perform_resume_status _ _ _ _) rfl
        (follows_answered (s := (s.inPhase .revalidating).rested) shakes reply s.state.token
          (reply (.status s.state.token)) rfl)

theorem plays_connect (reply : Replies) {s : Session σ} (rested : s.deeds = [])
    (wallet : s.hasWallet = true) (ready : reply .isConnected = .ok true) :
    ∃ told value last last',
      Plays reply .connect s (.question .isConnected :: told) (value.map Value.flagged) last ∧
        Composed reply call (s.perform (aboard .check)) told value last' ∧
        last.withConnected false = last'.withConnected false := by
  obtain ⟨told, value, last, last', runs, composed, alike⟩ := follows_check shakes reply s
  refine ⟨told, value, last, last', ?_, composed, alike⟩
  have began : s.perform (aboard .connect) =
      (.ok (.wait .connectedWallet), s.withConnected false) := by simp [aboard, wallet]
  have idle : (s.withConnected false).rested = s.withConnected false := rested_of_idle rested
  have resumed : (s.withConnected false).rested.perform
      (resume .connect .connectedWallet (reply .isConnected)) =
        (((s.withConnected false).perform (startCheck .connect)).1.map .stop,
          ((s.withConnected false).perform (startCheck .connect)).2) := by
    rw [idle]
    exact perform_resume_beforeCheck _ (ready ▸ .connected)
  have asks := Runs.asks resumed runs
  rw [withConnected_deeds, rested] at asks
  rw [Plays, began]
  exact asks

end Connecting

section Agreement

/-- Where a call has stopped, the session is not connected or the result says how it is. -/
def Heralds (connected : Bool) (call : Call) : Except AuthError Stop → Prop
  | .ok (.wait _) => connected = false
  | .ok (.finish v) => Agrees connected call (.ok v)
  | .error e => Agrees connected call (.error e)

theorem Turn.heralds {occasion : Occasion}
    (turn : Turn call s occasion (stop.map .stop) s') (shares : call.isShareable = true)
    (aboard : occasion.isAshore = false)
    (apart : ∀ a reply, occasion = .answer a reply → s.state.connected = false) :
    Heralds s'.state.connected call stop := by
  have boards := Call.boards_of_shares shares
  match stop with
  | .ok (.wait a) =>
    refine Bool.eq_false_iff.mpr fun connected => ?_
    cases turn.connects shares aboard apart connected
  | .ok (.finish v) =>
    obtain ⟨o, rfl, same⟩ := turn.tells boards
    exact agrees_of_outcome boards same
  | .error e => exact agrees_of_failure boards (fun _ => turn.leaves_apart shares apart) e

theorem Goes.agrees (goes : Goes reply call n stop s told value last)
    (shares : call.isShareable = true)
    (due : ∀ a, stop = .ok (.wait a) → s.rested.Due call limit a)
    (heralds : Heralds s.state.connected call stop) : Agrees last.state.connected call value := by
  induction goes generalizing limit with
  | returns | fails => exact heralds
  | @asks n s s' last a next later value performed goes ih =>
    obtain ⟨next', s'', fewer, performed', turn, _, due'⟩ := (due a rfl).resumes (reply a.request)
    obtain ⟨same, rfl⟩ := Prod.mk.inj (performed.symm.trans performed')
    obtain rfl := Stop.map_inj same
    refine ih due' (turn.heralds shares ?_ fun _ _ _ => heralds)
    simp [Occasion.isAshore, (due a rfl).aboard]

theorem Plays.agrees (plays : Plays reply call s told value last)
    (shares : call.isShareable = true) : Agrees last.state.connected call value := by
  have boards := Call.boards_of_shares shares
  obtain ⟨n, goes⟩ := plays
  have turn := turn_aboard s boards
  exact goes.agrees shares (boards_due s boards)
    (turn.heralds shares rfl fun _ _ answered => by cases answered)

end Agreement

end Session

namespace World

variable {w done : World σ} {call : Call} {reply : Replies} {told : List Contact}
  {value : Except AuthError Value} {last : Session σ}

/-- A check, and another call just if it says no. -/
def checkElse (w : World σ) (reply : Replies) (call : Call) (publishes : Bool) : World σ :=
  let checked := w.seeThrough reply .check publishes
  match lastResult checked.log with
  | some (.ok (.flag false)) => checked.seeThrough reply call publishes
  | _ => checked

theorem Orderly.composes (orderly : w.Orderly) (free : w.flight.lock.isFree = true)
    (boards : call.boards = true)
    (composed : Session.Composed reply call (w.session.perform (Session.aboard .check)) told value
      last) (publishes : Bool) : Ended w (w.checkElse reply call publishes) told value last := by
  cases composed with
  | decides runs decided =>
    have ended := orderly.sees free rfl runs publishes
    have stays : w.checkElse reply call publishes = w.seeThrough reply .check publishes := by
      simp only [checkElse, ended.result]
      split
      next no => exact absurd (Option.some.inj no) decided
      next => rfl
    rw [stays]
    exact ended
  | falls runs plays =>
    have checked := orderly.sees free rfl runs publishes
    have goesOn : w.checkElse reply call publishes =
        (w.seeThrough reply .check publishes).seeThrough reply call publishes := by
      simp only [checkElse, checked.result]
    rw [goesOn]
    rw [← checked.session] at plays
    exact checked.followed (checked.orderly.sees checked.free boards plays publishes)

/-- Connecting a connected wallet asks and writes, after the question to the wallet, what a check does
and, if the check says no, a handshake after it. It returns what they return, leaves the phase and the
record as they do, and leaves the session connected just if they end well. The store may fail at any
time. -/
theorem connect_is_check_else_handshake (reachable : w.Reachable)
    (free : w.flight.lock.isFree = true) (wallet : w.session.hasWallet = true)
    (ready : reply .isConnected = .ok true)
    (shakes : call = .handshake ∨ call = .handshakeOutcome) (publishes publishes' : Bool) :
    let connected := w.seeThrough reply .connect publishes
    let composed := w.checkElse reply call publishes'
    ∃ notes notes' value, connected.log = w.log ++ notes ∧ composed.log = w.log ++ notes' ∧
      contacts notes = .question .isConnected :: contacts notes' ∧
      lastResult composed.log = some value ∧
      lastResult connected.log = some (value.map Value.flagged) ∧
      connected.session.state.phase = composed.session.state.phase ∧
      connected.session.state.token = composed.session.state.token ∧
      connected.session.store = composed.session.store ∧
      (connected.session.state.connected = true ↔ value.map Value.flagged = .ok (.flag true)) := by
  intro connected composed
  have orderly := reachable.orderly
  have boards : call.boards = true := by rcases shakes with rfl | rfl <;> rfl
  obtain ⟨told, value, last, last', plays, composes, alike⟩ :=
    Session.plays_connect shakes reply orderly.rested wallet ready
  have ended : Ended w connected _ _ last := orderly.sees free rfl plays publishes
  have ended' : Ended w composed told value last' := orderly.composes free boards composes publishes'
  obtain ⟨notes, log, asked⟩ := ended.turns_to
  obtain ⟨notes', log', asked'⟩ := ended'.turns_to
  refine ⟨notes, notes', value, log, log', ?_, ended'.result, ended.result, ?_⟩
  · rw [asked, asked']
  · rw [ended.session, ended'.session]
    have state := congrArg Session.state alike
    have phase := congrArg SessionState.phase state
    have token := congrArg SessionState.token state
    have store := congrArg Session.store alike
    exact ⟨phase, token, store, (plays.agrees rfl).connects⟩

/-- There is no record yet, and the backend verifies a new one. -/
theorem connects_anew :
    let w := ofSession (Session.create ⟨"", "", ""⟩ true (⟨none⟩ : MemoryStore))
    lastResult (w.seeThrough .kind .connect false).log = some (.ok (.flag true)) ∧
      (w.seeThrough .kind .connect false).session.store =
        (w.checkElse .kind .handshakeOutcome false).session.store ∧
      (w.seeThrough .kind .connect false).session.state.connected = true := by
  intro w
  have reachable : w.Reachable := ⟨_, _, _, [], rfl⟩
  have ready : Replies.kind .isConnected = .ok true := rfl
  obtain ⟨_, _, value, _, _, _, told, flag, _, _, store, connected⟩ :=
    connect_is_check_else_handshake reachable rfl rfl ready (.inr rfl) false false
  have verified : lastResult (w.checkElse .kind .handshakeOutcome false).log =
    some (.ok (.outcome .verified)) := by decide +kernel
  obtain rfl := Option.some.inj (verified.symm.trans told)
  exact ⟨flag, store, connected.mpr rfl⟩

end World

end WalletSession
