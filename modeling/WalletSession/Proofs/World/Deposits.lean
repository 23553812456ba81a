import WalletSession.Proofs.Config.Environment
import WalletSession.Proofs.World.Answered
import WalletSession.Proofs.World.Waiting

/-! What a top-up does, whatever happens around it. Its history follows one course, which branches
where the wallet answers; it asks for at most one deposit, of the amount that it was started with and
on the configured network, and leaves the session alone. Whether it goes ahead at all is decided when
it starts. -/
namespace WalletSession

open Session (depositPayload)

theorem Environment.wholeNumber?_repr {n : Nat} (small : n < UInt64.size) :
    wholeNumber? n.repr.toList = some n := by
  obtain ⟨some, digits⟩ := Text.isWholeNumber_iff.mp (Text.isWholeNumber_repr n)
  exact wholeNumber?_eq_some_iff.mpr
    ⟨n.repr.toList, .inl rfl, some, digits, Text.digitsValue_repr n, small⟩

/-- The deposit of so many base units, which are written out in decimal. -/
structure Deposits (chain : ChainConfig) (amount : Nat) (payload : EntryFunctionPayload) : Prop where
  function : payload.function = chain.contractAddress ++ "::vibe_balance::deposit"
  argument : ∃ digits, payload.arguments = [digits] ∧ Text.isWholeNumber digits.toList = true ∧
    Text.digitsValue digits.toList = amount ∧
    (amount < UInt64.size → Environment.wholeNumber? digits.toList = some amount)

theorem deposits_depositPayload (chain : ChainConfig) (amount : Nat) :
    Deposits chain amount (depositPayload chain amount) :=
  ⟨rfl, amount.repr, rfl, Text.isWholeNumber_repr amount, Text.digitsValue_repr amount,
    Environment.wholeNumber?_repr⟩

/-- The deposit that a call asks the wallet for. -/
def Note.deposit? : Note → Option EntryFunctionPayload
  | .asked _ (.signAndSubmit payload) => some payload
  | _ => none

/-- What a top-up has noted so far, and what it waits for. It was fit to begin with if there was a
wallet and the session was connected. -/
inductive Course (chain : ChainConfig) (id amount : Nat) : Bool → Option Await → List Note → Prop
  | spared : Course chain id amount false none
      [.started id (.topUp amount), .returned id (.ok .done)]
  | begun : Course chain id amount true (some (.network amount))
      [.started id (.topUp amount), .asked id .network]
  | unlocated {notes : List Note} {e : AuthError}
      (waited : Course chain id amount true (some (.network amount)) notes) :
      Course chain id amount true none
        (notes ++ [.answered id .network (.error e), .returned id (.error e)])
  | astray {notes : List Note} {network : Network}
      (waited : Course chain id amount true (some (.network amount)) notes)
      (elsewhere : chain.isMatchedBy network = false) :
      Course chain id amount true none
        (notes ++ [.answered id .network (.ok network),
          .returned id (.error (.wrongNetwork chain.rpcUrl chain.chainId))])
  | located {notes : List Note} {network : Network}
      (waited : Course chain id amount true (some (.network amount)) notes)
      (agreed : chain.isMatchedBy network = true) :
      Course chain id amount true (some (.deposit (depositPayload chain amount)))
        (notes ++ [.answered id .network (.ok network),
          .asked id (.signAndSubmit (depositPayload chain amount))])
  | unsubmitted {notes : List Note} {payload : EntryFunctionPayload} {e : AuthError}
      (waited : Course chain id amount true (some (.deposit payload)) notes) :
      Course chain id amount true none
        (notes ++ [.answered id .signAndSubmit (.error e), .returned id (.error e)])
  | declined {notes : List Note} {payload : EntryFunctionPayload} {response : SubmitResponse}
      (waited : Course chain id amount true (some (.deposit payload)) notes)
      (unsuccessful : response.success = false) :
      Course chain id amount true none
        (notes ++ [.answered id .signAndSubmit (.ok response), .returned id (.error .topUpFailed)])
  | deposited {notes : List Note} {payload : EntryFunctionPayload} {response : SubmitResponse}
      (waited : Course chain id amount true (some (.deposit payload)) notes)
      (successful : response.success = true) :
      Course chain id amount true none
        (notes ++ [.answered id .signAndSubmit (.ok response), .returned id (.ok .done)])
  | dropped {fit : Bool} {a : Await} {notes : List Note}
      (waited : Course chain id amount fit (some a) notes) :
      Course chain id amount fit none (notes ++ [.dropped id])

/-- A stretch that ends so goes on from these notes as the course says. -/
inductive Course.Leads (chain : ChainConfig) (id amount : Nat) (fit : Bool) (notes : List Note) :
    Except AuthError Move → Prop
  | waits {next : Await} (course : Course chain id amount fit (some next)
      (notes ++ [.asked id next.request])) :
      Leads chain id amount fit notes (.ok (.stop (.wait next)))
  | ends {value : Except AuthError Value}
      (course : Course chain id amount fit none (notes ++ [.returned id value])) :
      Leads chain id amount fit notes (value.map fun v => .stop (.finish v))

theorem Course.Leads.stops {chain : ChainConfig} {id amount : Nat} {fit : Bool} {notes : List Note}
    {result : Except AuthError Move} (leads : Course.Leads chain id amount fit notes result) :
    ∃ stop : Except AuthError Stop, result = stop.map .stop := by
  cases leads with
  | waits => exact ⟨.ok _, rfl⟩
  | @ends value => exact ⟨value.map .finish, by cases value <;> rfl⟩

section Course

variable {chain : ChainConfig} {id amount : Nat} {fit : Bool} {a : Await} {waits : Option Await}
  {notes : List Note}

/-- It waits for the wallet, off the flight. -/
theorem Course.places (course : Course chain id amount fit (some a) notes) :
    a = .network amount ∨ a = .deposit (depositPayload chain amount) := by
  cases course with
  | begun => exact .inl rfl
  | located => exact .inr rfl

/-- What is known of a deposit that was asked for, by the notes of its call. -/
structure Course.Approves (chain : ChainConfig) (id amount : Nat) (fit : Bool)
    (payload : EntryFunctionPayload) (notes : List Note) : Prop where
  fit : fit = true
  deposits : Deposits chain amount payload
  agreed : ∃ network, .answered id .network (.ok network) ∈ notes ∧
    chain.isMatchedBy network = true
  once : notes.filterMap Note.deposit? = [payload]

theorem Course.Approves.append {payload : EntryFunctionPayload} {more : List Note}
    (approves : Approves chain id amount fit payload notes)
    (quiet : more.filterMap Note.deposit? = []) :
    Approves chain id amount fit payload (notes ++ more) where
  fit := approves.fit
  deposits := approves.deposits
  agreed :=
    let ⟨network, answered, matched⟩ := approves.agreed
    ⟨network, List.mem_append_left _ answered, matched⟩
  once := by rw [List.filterMap_append, approves.once, quiet, List.append_nil]

theorem Course.approves (course : Course chain id amount fit waits notes)
    {payload : EntryFunctionPayload} (asked : .asked id (.signAndSubmit payload) ∈ notes) :
    Approves chain id amount fit payload notes := by
  induction course with
  | spared | begun => simp at asked
  | located waited agreed ih =>
    cases waited
    obtain rfl : payload = depositPayload chain amount := by simpa using asked
    exact ⟨rfl, deposits_depositPayload chain amount, ⟨_, by simp, agreed⟩, rfl⟩
  | unlocated _ ih | astray _ _ ih | unsubmitted _ ih | declined _ _ ih | deposited _ _ ih
  | dropped _ ih => exact (ih (by simpa using asked)).append rfl

end Course

namespace Session

variable {σ : Type} [TokenStore σ] {s s' : Session σ} {id amount : Nat} {a : Await}

/-- An answer takes a top-up one step further on its course, and the session stays as it is. -/
theorem Turn.topsUp {fit : Bool} {notes : List Note} {reply : Except AuthError a.Reply}
    {result : Except AuthError Move} (course : Course s.chain id amount fit (some a) notes)
    (turn : Turn (.topUp amount) s (.answer a reply) result s') :
    s' = s ∧
      Course.Leads s.chain id amount fit (notes ++ [.answered id a.method reply]) result := by
  have ashore : (Occasion.answer a reply).isAshore = true := by
    rcases course.places with rfl | rfl <;> rfl
  have stops : result ≠ .ok .board := by
    rintro rfl
    cases turn with
    | ready => rcases course.places with same | same <;> cases same
  rcases turn.stops_ashore ashore stops with
    ⟨⟨⟩, _⟩ | ⟨rfl, ⟨next, rfl, asks⟩ | ⟨⟨⟩, _⟩ | ⟨value, rfl, ends⟩⟩
  · refine ⟨rfl, .waits ?_⟩
    rw [List.append_assoc]
    cases asks with
    | deposit only agreed =>
      cases only
      cases course with
      | begun => exact .located .begun agreed
    | revoke only => cases only
  · refine ⟨rfl, .ends ?_⟩
    rw [List.append_assoc]
    cases ends with
    | logout only | shown only | unseen only => cases only
    | unlocated only =>
      cases only
      cases course with
      | begun => exact .unlocated .begun
    | astray only elsewhere =>
      cases only
      cases course with
      | begun => exact .astray .begun elsewhere
    | unsubmitted only =>
      cases course with
      | located waited agreed => exact .unsubmitted (.located waited agreed)
    | declined only unsuccessful =>
      cases course with
      | located waited agreed => exact .declined (.located waited agreed) unsuccessful
    | deposited only successful =>
      cases course with
      | located waited agreed => exact .deposited (.located waited agreed) successful

theorem perform_begin_topUp (s : Session σ) (amount : Nat) :
    s.perform (begin (.topUp amount)) =
      (.ok (.stop (if s.hasWallet && s.state.connected then .wait (.network amount)
        else .finish .done)), s) := by
  simp [begin, beginTopUp]

end Session

namespace World

variable {σ : Type} {w w' : World σ} {t : Task} {id amount : Nat} {fit : Bool} {occasion : Occasion}
  {lock : Lock} {notes : List Note}

/-- The top-up is under way or over, as its course says. -/
inductive TopsUp (w : World σ) (id amount : Nat) (fit : Bool) : Prop
  | waits {t : Task} {a : Await} (has : w.Has t) (number : t.id = id)
      (only : t.call = .topUp amount) (place : t.place = .asking a)
      (course : Course w.session.chain id amount fit (some a) (own id w.log))
  | done (gone : w.Gone id) (course : Course w.session.chain id amount fit none (own id w.log))

theorem Orderly.ashore_of_course {chain : ChainConfig} {a : Await} (orderly : w.Orderly)
    (has : w.Has t) (place : t.place = .asking a)
    (course : Course chain id amount fit (some a) notes) : t.id ∉ w.flight.lock.line := by
  refine orderly.ashore has ?_
  rw [place]
  rcases course.places with rfl | rfl <;> rfl

theorem landing_ashore {s : Session σ} (ashore : t.id ∉ lock.line) : landing t lock s = [] :=
  if_neg fun holds => ashore (Lock.mem_line.mpr (.inl holds))

variable [TokenStore σ]

theorem Moves.configured {mover : Nat} (moves : Moves w w' mover) :
    w'.session.chain = w.session.chain ∧ w'.session.hasWallet = w.session.hasWallet := by
  cases moves with
  | idle same => exact ⟨by rw [same], by rw [same]⟩
  | turns comes turn stops moved =>
    rw [moved.session]
    simp [turn.chain, turn.hasWallet]
  | shares has place holds served moved =>
    rw [moved.session]
    simp
  | queues _ _ moved | waits _ _ moved | observes _ moved | drops _ moved =>
    rw [moved.session]
    exact ⟨rfl, rfl⟩

/-- Who waits off the flight comes with its answer, and for nothing else. -/
theorem Comes.hears {a : Await} (comes : Comes w t occasion lock notes) (orderly : w.Orderly)
    (has : w.Has t) (place : t.place = .asking a)
    (idle : t.call.isStartup = false ∧ t.call.boards = false) :
    lock = w.flight.lock ∧ ∃ reply, occasion = .answer a reply ∧
      notes = [.answered t.id a.method reply] := by
  cases comes with
  | fresh number =>
    have := orderly.number has
    omega
  | roused _ waiting | isCalled _ waiting => cases waiting.symm.trans place
  | answered _ waiting reply =>
    cases waiting.symm.trans place
    exact ⟨rfl, reply, rfl, rfl⟩
  | boards comes turn => simpa [idle] using comes.mayFly orderly turn

omit [TokenStore σ] in
/-- A stretch of a top-up notes what it began with and one more thing, and leaves the session alone. -/
theorem Moved.topsUp {result : Except AuthError Move} {first : Note} (orderly : w.Orderly)
    (ashore : t.id ∉ w.flight.lock.line) (only : t.call = .topUp amount) (mine : first.id = t.id)
    (leads : Course.Leads w.session.chain t.id amount fit (own t.id w.log ++ [first]) result)
    (moved : Moved w t w.flight.lock (rest result) (settled w.session.rested t.call result)
      ([first] ++ w.session.deeds.map (.did t.id) ++
        closing t w.flight.lock w.session.rested result) w') :
    w'.TopsUp t.id amount fit ∧ w'.session = w.session ∧
      ∃ last, w'.log = w.log ++ [first, last] := by
  have other : t.call.isStartup = false := only ▸ rfl
  have session : w'.session = w.session := by
    rw [moved.session, settled_of_other _ _ other, Session.rested_of_idle orderly.rested]
  have logs (last : Note) (closed : closing t w.flight.lock w.session.rested result = [last]) :
      w'.log = w.log ++ [first, last] := by
    rw [moved.log, closed, orderly.rested]
    rfl
  have owns {last : Note} (mine' : last.id = t.id) (log : w'.log = w.log ++ [first, last]) :
      own t.id w'.log = own t.id w.log ++ [first] ++ [last] := by
    rw [log, own_append, List.append_assoc]
    refine congrArg _ (own_mine ?_)
    exact List.forall_mem_cons.mpr ⟨mine, List.forall_mem_singleton.mpr mine'⟩
  cases leads with
  | @waits next course =>
    have log := logs (.asked t.id next.request) rfl
    refine ⟨.waits (t := { t with place := .asking next }) ?_ rfl only rfl ?_, session, _, log⟩
    · rw [Has, moved.tasks, if_pos rfl]
      rfl
    · rw [session, owns rfl log]
      exact course
  | @ends value course =>
    have log := logs (.returned t.id value) (by
      cases value <;>
        simp [closing, Except.map, farewell, landing_ashore ashore, Session.told_of_other _ _ other])
    have gone : rest (value.map fun v => .stop (.finish v)) = none := by cases value <;> rfl
    rw [gone] at moved
    refine ⟨.done moved.gone ?_, session, _, log⟩
    rw [session, owns rfl log]
    exact course

theorem Moves.topsUp {mover : Nat} (moves : Moves w w' mover) (orderly : w.Orderly)
    (tops : w.TopsUp id amount fit) :
    w'.TopsUp id amount fit ∧ (mover = id → w'.session = w.session) := by
  have chain := moves.configured.1
  cases tops with
  | done gone course =>
    obtain ⟨gone', later, log, others⟩ := moves.gone orderly gone
    refine ⟨.done gone' ?_, ?_⟩
    · rwa [chain, log, own_append, own_others others, List.append_nil]
    · rintro rfl
      cases moves.sorts orderly with
      | idle same => rw [same]
      | turns comes => exact absurd rfl (gone.elsewhere comes.known)
      | quiet _ _ quiet => exact absurd rfl (gone.elsewhere quiet.known)
  | @waits u a has number only place course =>
    subst number
    by_cases same : u.id = mover
    · have idle : u.call.isStartup = false ∧ u.call.boards = false := only ▸ ⟨rfl, rfl⟩
      cases moves with
      | idle unchanged =>
        subst unchanged
        exact ⟨.waits has rfl only place course, fun _ => rfl⟩
      | turns comes turn stops moved =>
        obtain rfl := orderly.mover comes.known has same
        obtain ⟨rfl, reply, rfl, rfl⟩ := comes.hears orderly has place idle
        rw [only] at turn
        obtain ⟨rfl, leads⟩ := turn.topsUp course
        obtain ⟨tops, session, _⟩ := moved.topsUp orderly
          (orderly.ashore_of_course has place course) only rfl leads
        exact ⟨tops, fun _ => session⟩
      | queues comes turn =>
        obtain rfl := orderly.mover comes.known has same
        simpa [idle] using comes.mayFly orderly turn
      | shares has' waiting =>
        obtain rfl := has.unique has' same
        cases waiting.symm.trans place
      | waits number =>
        have := orderly.number has
        omega
      | observes comes moved observes =>
        obtain rfl := orderly.mover comes.known has same
        cases observes.symm.trans only
      | drops has' moved =>
        obtain rfl := has.unique has' same
        refine ⟨.done moved.gone ?_, fun _ => moved.session⟩
        have parted : parting w u = [] := by
          rw [parting, place]
          exact landing_ashore (orderly.ashore_of_course has place course)
        have mine : own u.id [.dropped u.id] = [.dropped u.id] :=
          own_mine (List.forall_mem_singleton.mpr rfl)
        rw [chain, moved.log, parted, own_append, mine]
        exact .dropped course
    · refine ⟨?_, fun mine => absurd mine.symm same⟩
      rcases moves.respects orderly with rfl | ⟨t, _, _, _, notes, rfl, moved, respects⟩
      · exact .waits has rfl only place course
      · refine .waits ((moved.has_other same).mpr has) rfl only place ?_
        have others : own u.id notes = [] :=
          own_others fun n member => respects.mine member ▸ Ne.symm same
        rwa [chain, moved.log, own_append, others, List.append_nil]

theorem TopsUp.steps (tops : w.TopsUp id amount fit) (orderly : w.Orderly) (actions : List Action) :
    (w.steps actions).TopsUp id amount fit := by
  induction actions generalizing w with
  | nil => exact tops
  | cons action actions ih =>
    exact ih ((step_moves orderly action).topsUp orderly tops).1 (orderly.step action)

/-- A top-up that is not fit is over at once, and one that is asks for the network. -/
theorem Orderly.beginsTopUp (orderly : w.Orderly) (amount : Nat) (publishes : Bool) :
    (w.step (.start (.topUp amount) publishes)).TopsUp w.nextId amount
        (w.session.hasWallet && w.session.state.connected) ∧
      (w.step (.start (.topUp amount) publishes)).session = w.session ∧
      ∃ last, (w.step (.start (.topUp amount) publishes)).log =
        w.log ++ [.started w.nextId (.topUp amount), last] := by
  let t : Task := { id := w.nextId, call := .topUp amount, publishes, place := .startupTurn }
  have opened := opened_start w (t := t) rfl
  have comes : Comes w t .start w.flight.lock [.started t.id t.call] := .fresh rfl rfl
  have absent : own t.id w.log = [] :=
    own_others fun n member => Nat.ne_of_lt (orderly.noted member)
  obtain ⟨stop, performed, leads⟩ : ∃ stop : Except AuthError Stop,
      w.session.perform (Session.begin t.call) = (stop.map .stop, w.session) ∧
        Course.Leads w.session.chain t.id amount (w.session.hasWallet && w.session.state.connected)
          (own t.id w.log ++ [.started t.id t.call]) (stop.map .stop) := by
    refine ⟨.ok _, Session.perform_begin_topUp w.session amount, ?_⟩
    rw [absent]
    cases w.session.hasWallet && w.session.state.connected with
    | true => exact .waits .begun
    | false => exact @Course.Leads.ends _ _ _ _ _ (.ok .done) .spared
  have moved := (opened.after w.session).settle (comes.knows orderly) (comes.not_waiting orderly) stop
  rw [← opened.proceed_eq performed] at moved
  exact moved.topsUp orderly (comes.ashore orderly rfl) rfl rfl leads

/-- Whatever the wallet answers, a top-up that waits for it goes on. -/
theorem TopsUp.goesOn (tops : w.TopsUp id amount fit) (orderly : w.Orderly) :
    ∃ waits, Course w.session.chain id amount fit waits (own id w.log) ∧
      ∀ a ∈ waits, ∀ reply, ∃ last, (w.step (.answer id a.method reply)).log =
        w.log ++ [.answered id a.method reply, last] := by
  cases tops with
  | done gone course => exact ⟨none, course, nofun⟩
  | @waits t a has number only place course =>
    subst number
    refine ⟨some a, course, fun b same reply => ?_⟩
    obtain rfl := Option.some.inj same
    have turn := Session.turn w.session ((Comes.answered has place reply).fits orderly)
    rw [only] at turn
    obtain ⟨same, leads⟩ := turn.topsUp course
    obtain ⟨stop, stops⟩ := leads.stops
    have performed : w.session.perform (Session.resume t.call a reply) =
        (stop.map .stop, w.session) := by
      rw [only]
      exact Prod.ext stops same
    have moved := orderly.answered has place reply stop performed
    exact (moved.topsUp orderly (orderly.ashore_of_course has place course) only rfl
      (stops ▸ leads)).2.2

theorem Orderly.configured (orderly : w.Orderly) (actions : List Action) :
    (w.steps actions).session.chain = w.session.chain ∧
      (w.steps actions).session.hasWallet = w.session.hasWallet := by
  induction actions generalizing w with
  | nil => exact ⟨rfl, rfl⟩
  | cons action actions ih =>
    have now := (step_moves orderly action).configured
    have later := ih (orderly.step action)
    exact ⟨later.1.trans now.1, later.2.trans now.2⟩

omit [TokenStore σ] in
theorem mem_of_deposit {log : List Note} {payload : EntryFunctionPayload}
    (deposits : payload ∈ (own id log).filterMap Note.deposit?) :
    .asked id (.signAndSubmit payload) ∈ log := by
  obtain ⟨n, noted, same⟩ := List.mem_filterMap.mp deposits
  obtain ⟨member, mine⟩ := List.mem_filter.mp noted
  unfold Note.deposit? at same
  split at same
  next => simp_all [Note.id]
  next => contradiction

theorem topsUp_in_run (chain : ChainConfig) (hasWallet : Bool) (store : σ)
    (earlier later : List Action) (amount : Nat) (publishes : Bool) :
    let run (actions : List Action) : World σ :=
      (ofSession (Session.create chain hasWallet store)).steps actions
    (run (earlier ++ .start (.topUp amount) publishes :: later)).TopsUp (run earlier).nextId amount
      (hasWallet && (run earlier).session.state.connected) := by
  intro run
  have orderly : (run earlier).Orderly := Reachable.orderly ⟨_, _, _, _, rfl⟩
  have wallet : (run earlier).session.hasWallet = hasWallet :=
    ((Orderly.create chain hasWallet store).configured earlier).2
  have begun := (orderly.beginsTopUp amount publishes).1
  rw [wallet] at begun
  have split : run (earlier ++ .start (.topUp amount) publishes :: later) =
      ((run earlier).step (.start (.topUp amount) publishes)).steps later := steps_append ..
  rw [split]
  exact begun.steps (orderly.step _) later

/-- Whoever has asked for a deposit is a top-up, and its notes approve of it. -/
theorem approved_in_run (chain : ChainConfig) (hasWallet : Bool) (store : σ) {actions : List Action}
    {payload : EntryFunctionPayload} :
    let run (actions : List Action) : World σ :=
      (ofSession (Session.create chain hasWallet store)).steps actions
    .asked id (.signAndSubmit payload) ∈ (run actions).log →
      ∃ earlier amount publishes later,
        actions = earlier ++ .start (.topUp amount) publishes :: later ∧ id = (run earlier).nextId ∧
          Course.Approves chain id amount (hasWallet && (run earlier).session.state.connected) payload
            (own id (run actions).log) := by
  intro run asked
  have reachable (actions : List Action) : (run actions).Reachable := ⟨_, _, _, _, rfl⟩
  obtain ⟨call, a, started, suits, request⟩ := (reachable actions).suited id _ asked
  obtain ⟨amount, rfl⟩ : ∃ amount, call = .topUp amount := by
    cases a <;> cases request
    cases call <;> first | exact ⟨_, rfl⟩ | contradiction
  obtain ⟨earlier, publishes, later, rfl, rfl⟩ := started_in_run chain hasWallet store started
  have tops := topsUp_in_run chain hasWallet store earlier later amount publishes
  obtain ⟨waits, course, _⟩ := tops.goesOn (reachable _).orderly
  rw [((Orderly.create chain hasWallet store).configured _).1] at course
  exact ⟨earlier, amount, publishes, later, rfl, rfl, course.approves (mem_own asked)⟩

/-- Only top-ups ask the wallet for deposits, each for one at most: of its amount, with the configured
contract, and only if there was a wallet and the session was connected when it started and the wallet
has told it of the configured network. Every top-up follows its course to the end as it is answered,
and none of its steps changes the session. -/
theorem deposits_are_exact (chain : ChainConfig) (hasWallet : Bool) (store : σ) :
    let run (actions : List Action) : World σ :=
      (ofSession (Session.create chain hasWallet store)).steps actions
    (∀ actions id payload, .asked id (.signAndSubmit payload) ∈ (run actions).log →
      ∃ earlier amount publishes later,
        actions = earlier ++ .start (.topUp amount) publishes :: later ∧
          id = (run earlier).nextId ∧ hasWallet = true ∧
          (run earlier).session.state.connected = true ∧
          (∃ network, .answered id .network (.ok network) ∈ (run actions).log ∧
            chain.isMatchedBy network = true) ∧
          Deposits chain amount payload ∧
          (own id (run actions).log).filterMap Note.deposit? = [payload]) ∧
      ∀ earlier amount publishes later,
        let id := (run earlier).nextId
        let begun := run (earlier ++ [.start (.topUp amount) publishes])
        let w := begun.steps later
        begun.session = (run earlier).session ∧
          (∀ action, w.caller action = id → (w.step action).session = w.session) ∧
          ∃ waits, Course chain id amount (hasWallet && (run earlier).session.state.connected) waits
              (own id w.log) ∧
            ∀ a ∈ waits, ∀ reply, ∃ last, (w.step (.answer id a.method reply)).log =
              w.log ++ [.answered id a.method reply, last] := by
  intro run
  constructor
  · intro actions id payload asked
    obtain ⟨earlier, amount, publishes, later, same, number, approves⟩ :=
      approved_in_run chain hasWallet store asked
    have fit := Bool.and_eq_true_iff.mp approves.fit
    obtain ⟨network, answered, agreed⟩ := approves.agreed
    exact ⟨earlier, amount, publishes, later, same, number, fit.1, fit.2,
      ⟨network, (List.mem_filter.mp answered).1, agreed⟩, approves.deposits, approves.once⟩
  · intro earlier amount publishes later id begun w
    have start : begun = (run earlier).step (.start (.topUp amount) publishes) := steps_append ..
    have same : w = run (earlier ++ .start (.topUp amount) publishes :: later) := by
      refine (congrArg (World.steps · later) start).trans (Eq.symm ?_)
      exact steps_append ..
    have chained : w.session.chain = chain :=
      same ▸ ((Orderly.create chain hasWallet store).configured _).1
    have orderly : w.Orderly := same ▸ Reachable.orderly ⟨_, _, _, _, rfl⟩
    have tops : w.TopsUp id amount (hasWallet && (run earlier).session.state.connected) :=
      same ▸ topsUp_in_run chain hasWallet store earlier later amount publishes
    have before : (run earlier).Orderly := Reachable.orderly ⟨_, _, _, _, rfl⟩
    refine ⟨start ▸ (before.beginsTopUp amount publishes).2.1, fun action mine => ?_, ?_⟩
    · exact ((step_moves orderly action).topsUp orderly tops).2 mine
    · exact chained ▸ tops.goesOn orderly

/-- A handshake that is answered to the end. -/
def signingIn : List Action :=
  [.start .handshake false, .answer 0 .account (.ok "a"),
    .answer 0 .issue (.ok { token := some "t", account := some "a", nonce := some "n" }),
    .answer 0 .signMessage (.ok ⟨true, some { message := "m", nonce := "n", signature := [] }⟩),
    .answer 0 .publicKey (.ok "k"), .answer 0 .verify (.ok { verified := true })]

/-- A connected session pays in five base units. -/
theorem five_are_deposited :
    let chain : ChainConfig := { rpcUrl := "https://node/", chainId := "2", contractAddress := "0x1" }
    let actions : List Action := signingIn ++
      [.start (.topUp 5) false, .answer 1 .network (.ok { api := "https://NODE", chainId := "2" })]
    let w := (ofSession (Session.create chain true (⟨none⟩ : MemoryStore))).steps actions
    let payload : EntryFunctionPayload :=
      { function := "0x1::vibe_balance::deposit", arguments := ["5"] }
    .asked 1 (.signAndSubmit payload) ∈ w.log ∧
      ∃ earlier amount publishes later,
        actions = earlier ++ .start (.topUp amount) publishes :: later ∧
          Deposits chain amount payload := by
  intro chain actions w payload
  have one : (own 1 w.log).filterMap Note.deposit? = [payload] := by decide +kernel
  have asked := mem_of_deposit (one ▸ List.mem_singleton_self payload)
  obtain ⟨earlier, amount, publishes, later, same, _, _, _, _, deposits, _⟩ :=
    (deposits_are_exact chain true (⟨none⟩ : MemoryStore)).1 actions 1 payload asked
  exact ⟨asked, earlier, amount, publishes, later, same, deposits⟩

end World

end WalletSession
