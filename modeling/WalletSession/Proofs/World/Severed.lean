import WalletSession.Proofs.World.Agreement
import WalletSession.Proofs.World.Deposits

/-! What the history says of the connection, and what top-ups make of it. After every run a session
is connected just if the last note that says something of it says so. A top-up looks at the connection
once, when it starts; it asks for its deposit in a later step, whatever was noted in between. -/
namespace WalletSession

open Session (depositPayload)
open World (callOf callOf_append)

/-- What a call that ran startup tells of the connection. -/
def Value.connected? : Value → Option Bool
  | .flag connected => some connected
  | .snapshot shown => some shown.connected
  | _ => none

/-- What a note says of the connection: a disconnect takes it away at once, and so does the flight of a
connect or a handshake; a flight that ends says how it leaves the session, and startup what it has
made of it. -/
def Note.link? (log : List Note) : Note → Option Bool
  | .started _ .disconnect => some false
  | .boarded id => if (callOf log id).any Call.isShareable then some false else none
  | .landed _ connected => some connected
  | .returned id (.ok v) => if (callOf log id).any Call.isStartup then v.connected? else none
  | _ => none

/-- Whether a session is connected after these notes, if that is how connected it was before. -/
def linked (log : List Note) (connected : Bool) (notes : List Note) : Bool :=
  notes.foldl (fun connected n => (n.link? log).getD connected) connected

section Linked

variable {log notes : List Note} {connected : Bool}

theorem linked_append (log first second : List Note) (connected : Bool) :
    linked log connected (first ++ second) = linked log (linked log connected first) second :=
  List.foldl_append

theorem linked_of_silent (silent : ∀ n ∈ notes, n.link? log = none) :
    linked log connected notes = connected := by
  induction notes with
  | nil => rfl
  | cons n notes ih =>
    rw [List.forall_mem_cons] at silent
    simpa [linked, silent.1] using ih silent.2

theorem link?_append {n : Note} {call : Call} (known : callOf log n.id = some call)
    (more : List Note) : n.link? (log ++ more) = n.link? log := by
  have later := callOf_append known more
  unfold Note.link?
  split <;> first | rfl | simp_all [Note.id]

/-- Later notes do not change what is said by those who are known already. -/
theorem linked_later (known : ∀ n ∈ notes, ∃ call, callOf log n.id = some call) (more : List Note) :
    linked (log ++ more) connected notes = linked log connected notes := by
  refine List.foldl_ext _ _ _ fun connected n member => ?_
  obtain ⟨call, known⟩ := known n member
  rw [link?_append known]

end Linked

namespace Session

variable {σ : Type} [TokenStore σ] {s s' : Session σ} {call : Call} {occasion : Occasion}
  {result : Except AuthError Move}

theorem Turn.signsOff (turn : Turn .disconnect s .start result s') : s'.state.connected = false := by
  cases turn with
  | boards => contradiction
  | asks asks => cases asks <;> contradiction
  | isUnready => contradiction
  | returns ends | fails ends => cases ends <;> contradiction
  | cannotCheck checks | revalidates checks => cases checks
  | logsOut | forgetsFailing | forgets | fallsBackFailing | fallsBackVainly | fallsBack => rfl

/-- A check goes on without touching the connection. -/
theorem Turn.holdsOn {a : Await} (turn : Turn call s occasion (.ok (.stop (.wait a))) s')
    (aboard : occasion.isAshore = false) (alone : call.isShareable = false) :
    s'.state.connected = s.state.connected := by
  cases turn with
  | logsOut => contradiction
  | setsOut only | fallsBack only => simp [only, Call.isShareable] at alone
  | startsOver shakes => simp [shakes] at alone
  | _ => rfl

/-- The connection is not looked at again. -/
theorem perform_resume_network (s : Session σ) (call : Call) (amount : Nat)
    {reply : Except AuthError Network} {network : Network} (heard : reply = .ok network)
    (agreed : s.chain.isMatchedBy network = true) :
    s.perform (resume call (.network amount) reply) =
      (.ok (.stop (.wait (.deposit (depositPayload s.chain amount)))), s) := by
  subst heard
  simp only [resume, onNetwork, perform_bind, perform_get, perform_receive, agreed, if_true,
    perform_pure]

end Session

namespace World

variable {σ : Type} {w w' : World σ} {t : Task} {occasion : Occasion} {lock : Lock}
  {notes log : List Note} {s : Session σ}

theorem linked_returned (known : callOf log t.id = some t.call) (value : Except AuthError Value) :
    linked log s.state.connected [.returned t.id ((s.concluded t.call value).told value t.call)] =
      (s.concluded t.call value).state.connected := by
  cases startup : t.call.isStartup with
  | false =>
    rw [Session.told_of_other _ _ startup, Session.concluded_of_other _ _ startup]
    refine linked_of_silent (List.forall_mem_singleton.mpr ?_)
    cases value <;> simp [Note.link?, known, startup]
  | true =>
    cases call : t.call <;> simp [call, Call.isStartup] at startup <;>
      simp [linked, Note.link?, known, call, Call.isStartup, Session.told, Session.concluded,
        SessionState.snapshot, Value.connected?]

/-- Whoever flies says how its flight ends, and whoever does not says nothing that is new. -/
theorem linked_farewell (known : callOf log t.id = some t.call) (value : Except AuthError Value)
    {connected : Bool} (tells : lock.holder = some t.id ∨ connected = s.state.connected) :
    linked log connected (farewell t lock s value) = (s.concluded t.call value).state.connected := by
  have landed : linked log connected (landing t lock s) = s.state.connected := by
    unfold landing
    split
    next => rfl
    next ashore => exact tells.resolve_left ashore
  unfold farewell
  rw [linked_append, landed, linked_returned known]

theorem linked_closing {result : Except AuthError Move} (known : callOf log t.id = some t.call)
    (stops : result ≠ .ok .board) {connected : Bool}
    (tells : lock.holder = some t.id ∧ rest result = none ∨ connected = s.state.connected) :
    linked log connected (closing t lock s result) = (settled s t.call result).state.connected := by
  match result with
  | .ok (.stop (.wait a)) => exact tells.resolve_left (by simp [rest])
  | .ok .board => exact absurd rfl stops
  | .ok (.stop (.finish v)) | .error e => exact linked_farewell known _ (tells.imp_left And.left)

variable [TokenStore σ]

/-- Whoever makes for the flight does not disconnect, and has not begun its flight. -/
theorem Comes.sets_out (comes : Comes w t occasion lock notes) (orderly : w.Orderly)
    (turn : Session.Turn t.call w.session occasion (.ok .board) w.session) :
    t.call ≠ .disconnect ∧ occasion ≠ .flight := by
  constructor
  · intro only
    have flies := comes.mayFly orderly turn
    simp [only, Call.isStartup, Call.boards] at flies
  · rintro rfl
    cases turn.board_ashore

/-- Only who begins to disconnect, to connect or a handshake says something as it comes. -/
theorem Comes.silent (comes : Comes w t occasion lock notes) (orderly : w.Orderly)
    (known : callOf log t.id = some t.call) (stays : t.call = .disconnect → occasion ≠ .start)
    (alone : occasion = .flight → t.call.isShareable = false) : ∀ n ∈ notes, n.link? log = none := by
  induction comes with
  | fresh number place =>
    refine List.forall_mem_singleton.mpr ?_
    cases call : t.call with
    | disconnect => exact absurd rfl (stays call)
    | _ => rfl
  | roused => exact List.forall_mem_nil _
  | answered => exact List.forall_mem_singleton.mpr rfl
  | boards comes turn free ih =>
    obtain ⟨stays, ashore⟩ := comes.sets_out orderly turn
    have before := ih (absurd · stays) (absurd · ashore)
    refine List.forall_mem_append.mpr ⟨before, List.forall_mem_singleton.mpr ?_⟩
    simp [Note.link?, known, alone rfl]
  | isCalled => exact List.forall_mem_singleton.mpr (by simp [Note.link?, known, alone rfl])

/-- What a call says as it comes leaves the session as connected as its stretch does, unless the
stretch ends its flight. -/
theorem Comes.links {result : Except AuthError Move} (comes : Comes w t occasion lock notes)
    (orderly : w.Orderly) (tallied : w.Tallied) (known : callOf log t.id = some t.call)
    (turn : Session.Turn t.call w.session occasion result s) (stops : result ≠ .ok .board) :
    lock.holder = some t.id ∧ rest result = none ∨
      linked log w.session.state.connected notes = s.state.connected := by
  by_cases off : t.call = .disconnect ∧ occasion = .start
  · obtain ⟨only, rfl⟩ := off
    obtain rfl := comes.starts orderly (by simp [only, Call.isStartup])
    rw [only] at turn ⊢
    rw [turn.signsOff]
    exact .inr rfl
  · have stays : t.call = .disconnect → occasion ≠ .start := fun only begins => off ⟨only, begins⟩
    cases ashore : occasion.isAshore with
    | true =>
      have alone : occasion = .flight → t.call.isShareable = false := by
        rintro rfl
        contradiction
      rw [linked_of_silent (comes.silent orderly known stays alone)]
      rcases turn.stops_ashore ashore stops with ⟨only, begins, _⟩ | ⟨rfl, _⟩
      · exact absurd begins (stays only)
      · exact .inr rfl
    | false =>
      cases goes : rest result with
      | none => exact .inl ⟨comes.holds orderly ashore, rfl⟩
      | some p =>
        obtain ⟨a, rfl, rfl⟩ := rest_eq_some goes
        right
        cases shares : t.call.isShareable with
        | false =>
          rw [linked_of_silent (comes.silent orderly known stays fun _ => shares),
            turn.holdsOn ashore shares]
        | true =>
          -- It is not connected yet, so that whatever it says on its way is that.
          have before := comes.apart orderly tallied shares
          have apart : s.state.connected = false :=
            Bool.eq_false_iff.mpr fun now => by cases turn.connects shares ashore before now
          rw [apart]
          cases occasion with
          | start => contradiction
          | answer b reply =>
            rw [linked_of_silent (comes.silent orderly known stays (by simp))]
            exact before b reply rfl
          | flight =>
            obtain ⟨earlier, rfl⟩ := comes.boarding
            rw [linked_append]
            simp [linked, Note.link?, known, shares]

/-- A move leaves the session as connected as its notes say. -/
theorem Moves.links {id : Nat} (moves : Moves w w' id) (orderly : w.Orderly) (tallied : w.Tallied)
    (registered : w.Registered) :
    ∃ notes, w'.log = w.log ++ notes ∧
      w'.session.state.connected = linked w'.log w.session.state.connected notes := by
  have registered' := moves.registered orderly registered
  cases moves with
  | idle same =>
    subst same
    exact ⟨[], (List.append_nil _).symm, rfl⟩
  | @turns t occasion lock notes result s comes turn stops moved =>
    have known := registered'.callOf_eq (registered.lists_turned orderly comes moved.log)
    have done : ∀ n ∈ s.deeds.map (Note.did t.id), n.link? w'.log = none := by simp [Note.link?]
    have tells := comes.links orderly tallied known turn stops
    refine ⟨_, moved.log, ?_⟩
    rw [moved.session, linked_append, linked_append, linked_of_silent done]
    exact (linked_closing (s := s.rested) known stops tells).symm
  | @queues t occasion notes comes turn moved =>
    have known := registered'.callOf_eq (moved.log ▸ registered.lists orderly comes)
    obtain ⟨stays, ashore⟩ := comes.sets_out orderly turn
    refine ⟨_, moved.log, ?_⟩
    rw [moved.session,
      linked_of_silent (comes.silent orderly known (absurd · stays) (absurd · ashore))]
  | shares has place holds served moved =>
    have known := registered'.callOf_eq (moved.log ▸ List.mem_append_left _ (registered.started has))
    refine ⟨_, moved.log, ?_⟩
    rw [moved.session, linked_returned known]
  | waits number only moved =>
    refine ⟨_, moved.log, ?_⟩
    rw [moved.session, only]
    rfl
  | @observes t notes comes moved only =>
    have known : callOf w'.log t.id = some t.call := by
      refine registered'.callOf_eq ?_
      rw [moved.log, ← List.append_assoc]
      exact List.mem_append_left _ (registered.lists orderly comes)
    refine ⟨_, moved.log, ?_⟩
    rw [moved.session, linked_append]
    simp [linked, Note.link?, known, only, Call.isStartup, Value.connected?, SessionState.snapshot]
  | drops has moved =>
    refine ⟨_, moved.log, ?_⟩
    rw [moved.session]
    unfold parting landing
    split
    next => rfl
    next => split <;> rfl

/-- The history says at any time whether the session is connected. -/
theorem Reachable.links (reachable : w.Reachable) (actions : List Action) :
    ∃ after, (w.steps actions).log = w.log ++ after ∧
      (w.steps actions).session.state.connected =
        linked (w.steps actions).log w.session.state.connected after := by
  induction actions generalizing w with
  | nil => exact ⟨[], (List.append_nil _).symm, rfl⟩
  | cons action actions ih =>
    obtain ⟨notes, log, now⟩ := (step_moves reachable.orderly action).links reachable.orderly
      reachable.tallied reachable.registered
    obtain ⟨later, log', then'⟩ := ih (reachable.step action)
    have known : ∀ n ∈ notes, ∃ call, callOf (w.step action).log n.id = some call := fun n member =>
      (reachable.step action).registered.knows (log ▸ List.mem_append_right _ member)
    refine ⟨notes ++ later, by rw [steps_cons, log', log, List.append_assoc], ?_⟩
    rw [steps_cons, then', now, linked_append, log', linked_later known]

theorem Reachable.links_log (reachable : w.Reachable) :
    w.session.state.connected = linked w.log false w.log := by
  obtain ⟨chain, hasWallet, store, actions, rfl⟩ := reachable
  have fresh : (ofSession (Session.create chain hasWallet store)).Reachable := ⟨_, _, _, [], rfl⟩
  obtain ⟨after, log, now⟩ := fresh.links actions
  obtain rfl : after = _ := log.symm
  exact now

/-- A deposit is asked for by a top-up that has found the session connected when it started. Whether the
session still is connected is what the history says from then on; the top-up does not look again, and
the answer that the wallet is on the configured network is all that it waits for. -/
theorem deposits_outlive_connections (reachable : w.Reachable) :
    (∀ action notes id payload, (w.step action).log = w.log ++ notes →
      .asked id (.signAndSubmit payload) ∈ notes →
        ∃ amount before since, (w.step action).log = before ++ .started id (.topUp amount) :: since ∧
          linked (w.step action).log false before = true ∧
          (w.step action).session.state.connected = linked (w.step action).log true since) ∧
      ∀ (t : Task) (amount : Nat) (network : Network), w.Has t → t.call = .topUp amount →
        t.place = .asking (.network amount) → w.session.chain.isMatchedBy network = true →
          (w.step (.answer t.id .network (.ok network))).log =
              w.log ++ [.answered t.id .network (.ok network),
                .asked t.id (.signAndSubmit (depositPayload w.session.chain amount))] ∧
            (w.step (.answer t.id .network (.ok network))).session = w.session := by
  constructor
  · intro action notes id payload log asked
    obtain ⟨chain, hasWallet, store, actions, rfl⟩ := reachable
    let run (actions : List Action) : World σ :=
      (ofSession (Session.create chain hasWallet store)).steps actions
    have last : run (actions ++ [action]) = (run actions).step action := steps_append ..
    have member : .asked id (.signAndSubmit payload) ∈ (run (actions ++ [action])).log :=
      last.symm ▸ log ▸ List.mem_append_right _ asked
    obtain ⟨earlier, amount, publishes, later, split, rfl, approves⟩ :=
      approved_in_run chain hasWallet store member
    have before : (run earlier).Reachable := ⟨_, _, _, _, rfl⟩
    have connected := (Bool.and_eq_true_iff.mp approves.fit).2
    have since : (run actions).step action =
        (run earlier).steps (.start (.topUp amount) publishes :: later) := by
      rw [← last, split]
      exact steps_append ..
    obtain ⟨after, grows, now⟩ := before.links (.start (.topUp amount) publishes :: later)
    obtain ⟨_, _, first, begun⟩ := before.orderly.beginsTopUp amount publishes
    let start : Action := .start (.topUp amount) publishes
    obtain ⟨others, grows'⟩ := (before.orderly.step start).log_steps later
    obtain rfl : after = .started (run earlier).nextId (.topUp amount) :: first :: others := by
      refine List.append_cancel_left (grows.symm.trans (grows'.symm.trans ?_))
      rw [begun, List.append_assoc]
      rfl
    have whole := (congrArg World.log since).trans grows
    refine ⟨amount, (run earlier).log, first :: others, whole, ?_, ?_⟩
    · rw [whole, linked_later fun _ => before.registered.knows, ← before.links_log]
      exact connected
    · rw [← since, connected, ← List.singleton_append, linked_append] at now
      rwa [linked_of_silent (List.forall_mem_singleton.mpr rfl)] at now
  · intro t amount network has only place agreed
    have orderly := reachable.orderly
    have moved := orderly.answered has place (.ok network) (.ok (.wait _))
      (w.session.perform_resume_network t.call amount rfl agreed)
    constructor
    · refine moved.log.trans ?_
      rw [orderly.rested]
      rfl
    · exact moved.session.trans (Session.rested_of_idle orderly.rested)

section Race

/-- A top-up waits for the wallet to tell of its network, and a disconnect has begun since. -/
def leaving : World MemoryStore :=
  (ofSession (Session.create ⟨"", "", ""⟩ true (⟨none⟩ : MemoryStore))).steps
    (signingIn ++ [.start (.topUp 5) false, .start .disconnect false])

/-- The wallet is on the right network. -/
def homeNetwork : Network := { api := "", chainId := "" }

/-- What the top-up makes of that. -/
def sending : List Note :=
  [.answered 1 .network (.ok homeNetwork), .asked 1 (.signAndSubmit (depositPayload ⟨"", "", ""⟩ 5))]

theorem leaving_reachable : leaving.Reachable := ⟨_, _, _, _, rfl⟩

theorem leaving_log :
    (leaving.step (.answer 1 .network (.ok homeNetwork))).log = leaving.log ++ sending := rfl

theorem mem_sending : .asked 1 (.signAndSubmit (depositPayload ⟨"", "", ""⟩ 5)) ∈ sending :=
  List.mem_cons_of_mem _ List.mem_cons_self

/-- The deposit is sent after the logout. -/
theorem deposited_after_logout :
    let sent := leaving.step (.answer 1 .network (.ok homeNetwork))
    sent.session = leaving.session ∧ leaving.session.state.connected = false ∧
      ∃ amount before since, sent.log = before ++ .started 1 (.topUp amount) :: since ∧
        linked sent.log false before = true ∧ linked sent.log true since = false := by
  intro sent
  obtain ⟨only, always⟩ := deposits_outlive_connections leaving_reachable
  have has : leaving.Has ⟨1, .topUp 5, false, .asking (.network 5)⟩ := rfl
  obtain ⟨_, session⟩ := always _ 5 homeNetwork has rfl rfl (by decide +kernel)
  have apart : leaving.session.state.connected = false := rfl
  obtain ⟨amount, before, since, split, links, connected⟩ := only _ _ 1 _ leaving_log mem_sending
  refine ⟨session, apart, amount, before, since, split, links, ?_⟩
  rw [← connected, session, apart]

/-- So deposits are not sent by connected sessions alone. -/
theorem not_only_while_connected :
    ¬∀ (w : World MemoryStore) (action : Action) (notes : List Note) (id : Nat)
        (payload : EntryFunctionPayload), w.Reachable → (w.step action).log = w.log ++ notes →
      .asked id (.signAndSubmit payload) ∈ notes →
      (w.step action).session.state.connected = true := by
  intro always
  have connected := always _ _ _ 1 _ leaving_reachable leaving_log mem_sending
  exact absurd connected (by decide +kernel)

end Race

end World

end WalletSession
