import Mathlib.Data.List.Induction
import WalletSession.Proofs.World.Connected
import WalletSession.Proofs.World.Flights

/-! The tally of the flights that have ended. The count and the flag by which a waiting call decides
say what the history says, and a flight is offered to others only if its call was verified on it. -/
namespace WalletSession

variable {σ : Type}

section Landings

variable {notes : List Note} {id : Nat} {connected : Bool}

theorem mem_landings : (id, connected) ∈ landings notes ↔ .landed id connected ∈ notes := by
  refine List.mem_filterMap.trans ⟨?_, fun member => ⟨_, member, rfl⟩⟩
  rintro ⟨n, member, landed⟩
  cases n <;> cases landed
  exact member

theorem landings_eq_nil (unlanded : ∀ n ∈ notes, n.landed? = none) : landings notes = [] :=
  List.filterMap_eq_nil_iff.mpr unlanded

variable (f : Flight) (call : Call) (notes)

theorem Flight.after_completed :
    (f.after call notes).completed = f.completed + (landings notes).length := by
  unfold Flight.after
  induction landings notes using List.reverseRecOn with
  | nil => rfl
  | append_singleton ended last ih => simp [ih, Nat.add_assoc]

/-- The last flight decides alone. -/
theorem Flight.after_shareable :
    (f.after call notes).shareable =
      ((landings notes).getLast?.map (call.isShareable && ·.2)).getD f.shareable := by
  unfold Flight.after
  induction landings notes using List.reverseRecOn with
  | nil => rfl
  | append_singleton ended last ih => simp

end Landings

namespace Session

variable [TokenStore σ] {s s' : Session σ} {call : Call} {occasion : Occasion}
  {result : Except AuthError Move}

/-- Without the flight nothing connects a session. -/
theorem Turn.connected_ashore (turn : Turn call s occasion result s')
    (ashore : occasion.isAshore = true) (connected : s'.state.connected = true) :
    s.state.connected = true := by
  rcases turn.ashore ashore with rfl | ⟨_, rfl⟩
  · exact connected
  · contradiction

/-- Without the flight only a disconnect takes a connection away. -/
theorem Turn.stays_connected (turn : Turn call s occasion result s')
    (ashore : occasion.isAshore = true) (connected : s.state.connected = true) :
    s'.state.connected = true ∨ call = .disconnect := by
  rcases turn.ashore ashore with rfl | ⟨only, _⟩
  · exact .inl connected
  · exact .inr only

/-- A handshake and connecting leave a session connected only by being verified. -/
theorem Turn.connects (turn : Turn call s occasion result s') (shares : call.isShareable = true)
    (aboard : occasion.isAshore = false)
    (apart : ∀ a reply, occasion = .answer a reply → s.state.connected = false)
    (connected : s'.state.connected = true) :
    result = .ok (.stop (.finish (call.handshakeValue .verified))) := by
  have kept {a : Await} {reply : Except AuthError a.Reply} (same : occasion = .answer a reply)
      (now : s.state.connected = true) : False := by simp [apart a reply same] at now
  cases turn with
  | confirms => rfl
  | asks asks => simp [asks.ashore] at aboard
  | isUnready _ denies => simp [denies.ashore] at aboard
  | returns ends | fails ends => simp [ends.ashore] at aboard
  | prompts | isRefused | starts | overtaken | signs | submits | givesUp | keepsChallenge
  | isRejected | cannotKeep => exact (kept rfl connected).elim
  | cannotCheck checks | revalidates checks =>
    cases checks with
    | alone only => simp [shares] at only
    | connected | prompted => exact (kept rfl connected).elim
  | _ => contradiction

end Session

theorem Call.other_of_shares {call : Call} (shares : call.isShareable = true) :
    call.isStartup = false := by
  cases call <;> first | rfl | contradiction

namespace World

variable {w w' : World σ} {t : Task} {occasion : Occasion} {lock : Lock} {notes : List Note}
  {place : Option Place} {s : Session σ}

structure Tallied (w : World σ) : Prop where
  completed : w.flight.completed = (landings w.log).length
  shareable : w.flight.shareable = true ↔ ∃ id call, (landings w.log).getLast? = some (id, true) ∧
    .started id call ∈ w.log ∧ call.isShareable = true
  /-- Whoever is on its way to a connection has none. -/
  apart {t : Task} {a : Await} (flies : w.Flies t a) (shares : t.call.isShareable = true) :
    w.session.state.connected = false
  verified {id : Nat} {call : Call} (landed : .landed id true ∈ w.log)
    (started : .started id call ∈ w.log) (shares : call.isShareable = true) :
    .returned id (.ok (call.handshakeValue .verified)) ∈ w.log

/-- What a move has to keep to, so that the tally stays right. -/
structure Tallies (w : World σ) (t : Task) (place : Option Place) (s : Session σ)
    (notes : List Note) : Prop where
  mine {n : Note} (member : n ∈ notes) : n.id = t.id
  own {a : Await} (goes : place = some (.asking a)) (aboard : a.isAboard = true)
    (shares : t.call.isShareable = true) : s.state.connected = false
  others {u : Task} {a : Await} (flies : w.Flies u a) (other : u.id ≠ t.id)
    (connected : s.state.connected = true) : w.session.state.connected = true
  verified (landed : .landed t.id true ∈ notes) (shares : t.call.isShareable = true) :
    .returned t.id (.ok (t.call.handshakeValue .verified)) ∈ notes

theorem Tallied.shareable_moved (tallied : w.Tallied) (registered : w.Registered)
    (registered' : w'.Registered) (moved : Moved w t lock place s notes w')
    (mine : ∀ n ∈ notes, n.id = t.id) (started : .started t.id t.call ∈ w'.log) :
    w'.flight.shareable = true ↔ ∃ id call, (landings w'.log).getLast? = some (id, true) ∧
      .started id call ∈ w'.log ∧ call.isShareable = true := by
  have flag : w'.flight.shareable = (w.flight.after t.call notes).shareable := by rw [moved.flight]
  have last : (landings w'.log).getLast? =
      (landings notes).getLast?.or (landings w.log).getLast? := by
    rw [moved.log, landings_append, List.getLast?_append]
  rw [flag, last, Flight.after_shareable]
  cases found : (landings notes).getLast? with
  | none =>
    refine tallied.shareable.trans ⟨?_, ?_⟩
    · rintro ⟨id, call, landed, started, shares⟩
      exact ⟨id, call, landed, moved.log ▸ List.mem_append_left _ started, shares⟩
    · rintro ⟨id, call, landed, started, shares⟩
      obtain ⟨same, before⟩ := registered.known (mem_landings.mp (List.mem_of_getLast? landed))
      have known : .started id same ∈ w'.log := moved.log ▸ List.mem_append_left _ before
      exact ⟨id, call, landed, registered'.once known started ▸ before, shares⟩
  | some ended =>
    obtain ⟨id, connected⟩ := ended
    obtain rfl : id = t.id := mine _ (mem_landings.mp (List.mem_of_getLast? found))
    simp only [Option.map_some, Option.getD_some, Option.some_or, Bool.and_eq_true,
      Option.some.injEq, Prod.mk.injEq]
    refine ⟨fun ⟨shares, yes⟩ => ⟨t.id, t.call, ⟨rfl, yes⟩, started, shares⟩, ?_⟩
    rintro ⟨id, call, ⟨rfl, yes⟩, again, shares⟩
    exact ⟨registered'.once again started ▸ shares, yes⟩

theorem Tallied.moved (tallied : w.Tallied) (registered : w.Registered)
    (registered' : w'.Registered) (moved : Moved w t lock place s notes w')
    (tallies : Tallies w t place s notes) (started : .started t.id t.call ∈ w'.log) :
    w'.Tallied where
  completed := by
    rw [moved.flight, moved.log, landings_append, List.length_append, ← tallied.completed]
    exact Flight.after_completed ..
  shareable := tallied.shareable_moved registered registered' moved (fun _ => tallies.mine) started
  apart {u a} flies shares := by
    obtain ⟨has, asking, aboard⟩ := flies
    rw [moved.session]
    rcases moved.has_cases has with ⟨p, goes, rfl⟩ | ⟨other, had⟩
    · exact tallies.own (goes.trans (congrArg some asking)) aboard shares
    · have flies : w.Flies u a := ⟨had, asking, aboard⟩
      refine Bool.eq_false_iff.mpr fun connected => ?_
      have before := tallies.others flies other connected
      simp [tallied.apart flies shares] at before
  verified {id call} landed begun shares := by
    rw [moved.log, List.mem_append] at landed ⊢
    rcases landed with before | now
    · obtain ⟨same, known⟩ := registered.known before
      have only := registered'.once begun (moved.log ▸ List.mem_append_left _ known)
      exact .inl (tallied.verified before (only ▸ known) shares)
    · obtain rfl : id = t.id := tallies.mine now
      obtain rfl := registered'.once begun started
      exact .inr (tallies.verified now shares)

/-- A move on which no flight ends, and which nobody has to know that is on a flight. -/
theorem Tallies.of_unlanded (mine : ∀ n ∈ notes, n.id = t.id)
    (silent : ∀ a, place = some (.asking a) → a.isAboard = false)
    (connected : s.state.connected = true → w.session.state.connected = true)
    (unlanded : ∀ n ∈ notes, n.landed? = none) : Tallies w t place s notes where
  mine := mine _
  own goes aboard := by simp [silent _ goes] at aboard
  others _ _ := connected
  verified landed := nomatch unlanded _ landed

theorem isServed_iff {seen : Nat} : w.isServed seen = true ↔
    w.flight.completed ≠ seen ∧ w.flight.shareable = true ∧ w.session.state.connected = true := by
  simp [isServed, and_assoc]

variable [TokenStore σ]

theorem Comes.unlanded (comes : Comes w t occasion lock notes) {n : Note} (member : n ∈ notes) :
    n.landed? = none := by
  have ongoing := comes.ongoing member
  cases n <;> first | rfl | contradiction

omit [TokenStore σ] in
theorem landed_of_farewell {id : Nat} {connected : Bool} {value : Except AuthError Value}
    (landed : .landed id connected ∈ farewell t lock s value) :
    lock.holder = some t.id ∧ connected = s.state.connected := by
  unfold farewell landing at landed
  split at landed
  next holds => exact ⟨holds, by simp_all⟩
  next => simp at landed

omit [TokenStore σ] in
/-- Only who holds the flight ends it, and is gone with it. -/
theorem landed_of_closing {id : Nat} {connected : Bool} {result : Except AuthError Move}
    (landed : .landed id connected ∈ closing t lock s result) :
    lock.holder = some t.id ∧ connected = s.state.connected ∧ rest result = none := by
  match result with
  | .ok (.stop (.wait a)) => simp [closing] at landed
  | .ok .board => contradiction
  | .ok (.stop (.finish v)) | .error e =>
    obtain ⟨holds, same⟩ := landed_of_farewell landed
    exact ⟨holds, same, rfl⟩

omit [TokenStore σ] in
/-- Who is dropped ends the flight that it is on. -/
theorem landed_of_parting {id : Nat} {connected : Bool} (orderly : w.Orderly) (has : w.Has t)
    (landed : .landed id connected ∈ .dropped t.id :: parting w t) :
    (∃ a, w.Flies t a) ∧ connected = w.session.state.connected := by
  simp only [parting, List.mem_cons, reduceCtorEq, false_or] at landed
  have ended (member : .landed id connected ∈ landing t w.flight.lock w.session) :
      t.id ∈ w.flight.lock.line ∧ connected = w.session.state.connected := by
    unfold landing at member
    split at member
    next holds => exact ⟨Lock.mem_line.mpr (.inl holds), by simp_all⟩
    next => contradiction
  cases place : t.place with
  | flightTurn seen => simp [place] at landed
  | startupTurn =>
    rw [place] at landed
    exact absurd (ended landed).1 (orderly.ashore has (by rw [place, Place.isFlying]))
  | asking a =>
    rw [place] at landed
    obtain ⟨lined, same⟩ := ended landed
    refine ⟨⟨a, has, place, Bool.not_eq_false _ ▸ fun ashore => ?_⟩, same⟩
    exact orderly.ashore has (by rw [place, Place.isFlying, ashore]) lined

/-- A turn ends a flight only with its last notes. -/
theorem Comes.landed {id : Nat} {connected : Bool} {result : Except AuthError Move}
    (comes : Comes w t occasion lock notes)
    (landed : .landed id connected ∈
      notes ++ s.deeds.map (.did t.id) ++ closing t lock s.rested result) :
    lock.holder = some t.id ∧ connected = s.state.connected ∧ rest result = none := by
  simp only [List.mem_append, List.mem_map, reduceCtorEq, and_false, exists_false, or_false]
    at landed
  have closed := landed.resolve_left fun noted => nomatch comes.unlanded noted
  exact landed_of_closing (s := s.rested) closed

/-- No flight ends in a turn without it. -/
theorem Comes.unlanded_ashore {result : Except AuthError Move} (orderly : w.Orderly)
    (comes : Comes w t occasion lock notes) (ashore : occasion.isAshore = true) {n : Note}
    (member : n ∈ notes ++ s.deeds.map (.did t.id) ++ closing t lock s.rested result) :
    n.landed? = none := by
  cases n <;> first | rfl | skip
  have holds := (comes.landed member).1
  rw [comes.lock_ashore ashore] at holds
  exact absurd (Lock.mem_line.mpr (.inl holds)) (comes.ashore orderly ashore)

theorem Tallied.turns {result : Except AuthError Move} (tallied : w.Tallied) (orderly : w.Orderly)
    (comes : Comes w t occasion lock notes)
    (turn : Session.Turn t.call w.session occasion result s) :
    Tallies w t (rest result) (settled s.rested t.call result)
      (notes ++ s.deeds.map (.did t.id) ++ closing t lock s.rested result) := by
  cases aboard : occasion.isAshore with
  | true =>
    refine .of_unlanded (fun n => (orderly.turns comes turn).mine) (fun a goes => ?_)
      (fun now => turn.connected_ashore aboard (turn.connected_of_settled now))
      (fun _ => comes.unlanded_ashore orderly aboard)
    obtain ⟨_, rfl, same⟩ := rest_eq_some goes
    cases same
    simp [turn.aboard, aboard]
  | false =>
    have connects (shares : t.call.isShareable = true) (now : s.state.connected = true) :
        result = .ok (.stop (.finish (t.call.handshakeValue .verified))) := by
      refine turn.connects shares aboard ?_ now
      rintro a reply rfl
      cases comes with
      | answered has place =>
        exact tallied.apart ⟨has, place, by simpa [Occasion.isAshore] using aboard⟩ shares
    refine ⟨(orderly.turns comes turn).mine, fun {a} goes _ shares => ?_,
      fun flies other => absurd (congrArg Task.id (comes.alone orderly aboard flies).1) other,
      fun landed shares => ?_⟩
    · obtain ⟨_, rfl, same⟩ := rest_eq_some goes
      exact Bool.eq_false_iff.mpr fun now => by cases connects shares now
    · obtain rfl := connects shares (comes.landed landed).2.1.symm
      have other := Call.other_of_shares shares
      exact List.mem_append_right _ (returned_of_farewell t lock s.rested _ other)

theorem Moves.tallied {id : Nat} (moves : Moves w w' id) (orderly : w.Orderly)
    (registered : w.Registered) (tallied : w.Tallied) : w'.Tallied := by
  have registered' := moves.registered orderly registered
  cases moves with
  | idle same => rwa [same]
  | turns comes turn stops moved =>
    exact tallied.moved registered registered' moved (tallied.turns orderly comes turn)
      (registered.lists_turned orderly comes moved.log)
  | queues comes turn moved =>
    exact tallied.moved registered registered' moved
      (.of_unlanded (fun _ => comes.mine) (by simp) id fun _ => comes.unlanded)
      (moved.log ▸ registered.lists orderly comes)
  | shares has place holds served moved =>
    have connected := (isServed_iff.mp served).2.2
    refine tallied.moved registered registered' moved (.of_unlanded ?_ (by simp) (fun _ => connected) ?_)
      (moved.log ▸ List.mem_append_left _ (registered.started has)) <;> simp [Note.id, Note.landed?]
  | waits number only moved =>
    refine tallied.moved registered registered' moved (.of_unlanded ?_ (by simp) id ?_)
      (by simp [moved.log]) <;> simp [Note.id, Note.landed?]
  | observes comes moved =>
    refine tallied.moved registered registered' moved
      (.of_unlanded (fun _ member => comes.mine_snoc rfl member) (by simp) id ?_) ?_
    · simpa [or_imp, forall_and, Note.landed?] using fun _ => comes.unlanded
    · rw [moved.log, ← List.append_assoc]
      exact List.mem_append_left _ (registered.lists orderly comes)
  | @drops t has moved =>
    refine tallied.moved registered registered' moved
      ⟨fun member => (parting_final member).1, by simp, fun _ _ => id, fun landed shares => ?_⟩
      (moved.log ▸ List.mem_append_left _ (registered.started has))
    -- A call that is dropped on its way to a connection leaves none.
    obtain ⟨⟨a, flies⟩, connected⟩ := landed_of_parting orderly has landed
    simp [tallied.apart flies shares] at connected

theorem Reachable.tallied (reachable : w.Reachable) : w.Tallied :=
  reachable.stepwise
    (fun _ _ _ => ⟨rfl, by simp [ofSession], fun flies => (nomatch flies.1), nofun⟩)
    fun _ action reachable => (step_moves reachable.orderly action).tallied reachable.orderly
      reachable.registered

end World

end WalletSession
