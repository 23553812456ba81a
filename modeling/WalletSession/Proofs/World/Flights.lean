import WalletSession.Proofs.World.Register
import WalletSession.Store.Memory

/-! The flights of a history. However many calls wait, are dropped or are overtaken, one flight ends
before the next begins, and on each the call asks first for the status, if it checks a record, and
then for the steps of a handshake in their order. -/
namespace WalletSession

namespace Method

/-- A step of a check or of a handshake. -/
def isStep : Method → Bool
  | .status | .account | .issue | .signMessage | .publicKey | .verify => true
  | _ => false

end Method

/-- The steps of a handshake. -/
def handshakeSteps : List Method := [.account, .issue, .signMessage, .publicKey, .verify]

/-- What a history shows of its flights. -/
inductive Mark
  | boards (id : Nat)
  | asks (id : Nat) (method : Method)
  | lands (id : Nat)
  deriving DecidableEq, Repr

def Note.mark? : Note → Option Mark
  | .boarded id => some (.boards id)
  | .asked id request => if request.method.isStep then some (.asks id request.method) else none
  | .landed id _ => some (.lands id)
  | _ => none

def marks (log : List Note) : List Mark := log.filterMap Note.mark?

/-- One flight, with what its call has asked in its check and in its handshake. -/
structure Trip where
  id : Nat
  call : Call
  check : List Method := []
  handshake : List Method := []
  isOver : Bool := false
  deriving DecidableEq, Repr

namespace Trip

/-- What the flight leaves in a history. -/
def trace (f : Trip) : List Mark :=
  .boards f.id :: (f.check ++ f.handshake).map (.asks f.id) ++ if f.isOver then [.lands f.id] else []

/-- A check asks once, and a handshake may end after any of its steps. Only connecting does both. -/
structure Regular (f : Trip) : Prop where
  check : f.check = [] ∨ f.check = [.status]
  handshake : f.handshake <+: handshakeSteps
  checks (asks : f.check ≠ []) : f.call = .connect ∨ f.call.isShareable = false
  shakes (asks : f.handshake ≠ []) : f.call.isShareable = true

end Trip

section Marks

@[simp] theorem marks_nil : marks [] = [] := rfl

@[simp] theorem marks_append (first second : List Note) :
    marks (first ++ second) = marks first ++ marks second := List.filterMap_append

@[simp] theorem marks_cons (n : Note) (notes : List Note) :
    marks (n :: notes) = n.mark?.toList ++ marks notes := by
  unfold marks
  rw [List.filterMap_cons]
  cases n.mark? <;> rfl

@[simp] theorem marks_dids (id : Nat) (deeds : List Deed) : marks (deeds.map (.did id)) = [] := by
  induction deeds with
  | nil => rfl
  | cons deed deeds ih => simp [ih, Note.mark?]

end Marks

namespace Await

/-- How many steps of a handshake the call has taken with this question. -/
def progress : Await → Nat
  | .account => 1
  | .issue _ => 2
  | .signature _ => 3
  | .publicKey _ => 4
  | .verify _ => 5
  | _ => 0

theorem aboard_of_isStep {a : Await} (step : a.method.isStep = true) : a.isAboard = true := by
  cases a <;> first | rfl | contradiction

theorem progress_of_isCheck {a : Await} (checks : a.isCheck = true) : a.progress = 0 := by
  cases a <;> first | rfl | contradiction

end Await

namespace Occasion

/-- The question that is answered. -/
def await? : Occasion → Option Await
  | .answer a _ => some a
  | .start | .flight => none

def marks (id : Nat) : Occasion → List Mark
  | .flight => [.boards id]
  | .start | .answer .. => []

theorem marks_ashore {occasion : Occasion} (ashore : occasion.isAshore = true) (id : Nat) :
    occasion.marks id = [] := by
  cases occasion <;> first | rfl | contradiction

end Occasion

namespace Trip

/-- How far the call has come: it has just boarded, or this is its last question. -/
def Reaches (f : Trip) : Option Await → Prop
  | none => f.check = [] ∧ f.handshake = []
  | some a =>
    f.handshake = handshakeSteps.take a.progress ∧
      (a.method = .status → f.check = [.status]) ∧ (a.method.isStep = false → f.check = [])

/-- The flight of the call is under way, and the call has come so far on it. -/
structure Carries (f : Trip) (t : Task) (last : Option Await) : Prop where
  id : f.id = t.id
  call : f.call = t.call
  goes : f.isOver = false
  regular : f.Regular
  reaches : f.Reaches last

variable {f : Trip} {t : Task} {last : Option Await}

theorem Carries.trace_eq (carries : f.Carries t last) :
    f.trace = .boards t.id :: (f.check ++ f.handshake).map (.asks t.id) := by
  rw [Trip.trace, carries.id, carries.goes]
  simp

theorem Carries.stays (next : Await) (carries : f.Carries t last) (reaches : f.Reaches (some next))
    (other : next.method.isStep = false) :
    f.Carries t (some next) ∧ f.trace = f.trace ++ marks [.asked t.id next.request] :=
  ⟨{ carries with reaches }, by simp [Note.mark?, Bool.eq_false_iff.mp other]⟩

theorem Carries.checks (carries : f.Carries t last) (current : SessionToken) (check : f.check = [])
    (handshake : f.handshake = [])
    (suits : f.call = .connect ∨ f.call.isShareable = false) :
    ∃ g : Trip, g.Carries t (some (.status current)) ∧
      g.trace = f.trace ++ marks [.asked t.id (Await.status current).request] := by
  have carries' : Carries { f with check := [.status] } t (some (.status current)) :=
    { carries with
      regular := ⟨.inr rfl, carries.regular.handshake, fun _ => suits, carries.regular.shakes⟩
      reaches := ⟨handshake, fun _ => rfl, nofun⟩ }
  refine ⟨_, carries', ?_⟩
  rw [carries'.trace_eq, carries.trace_eq, check, handshake]
  rfl

/-- The next step of a handshake. -/
theorem Carries.shakes (next : Await) (carries : f.Carries t last) {k : Nat}
    (before : f.handshake = handshakeSteps.take k) (step : handshakeSteps[k]? = some next.method)
    (progress : next.progress = k + 1) (suits : f.call.isShareable = true) :
    ∃ g : Trip, g.Carries t (some next) ∧
      g.trace = f.trace ++ marks [.asked t.id next.request] := by
  have asked : handshakeSteps.take (k + 1) = f.handshake ++ [next.method] := by
    rw [List.take_add_one, step, before]
    rfl
  have isStep : next.method.isStep = true ∧ next.method ≠ .status := by
    have member := List.mem_of_getElem? step
    revert member
    cases next.method <;> decide
  have carries' : Carries { f with handshake := handshakeSteps.take (k + 1) } t (some next) :=
    { carries with
      regular := ⟨carries.regular.check, List.take_prefix _ _, carries.regular.checks,
        fun _ => suits⟩
      reaches := ⟨by rw [progress], fun status => absurd status isStep.2,
        fun none => absurd isStep.1 (Bool.eq_false_iff.mp none)⟩ }
  refine ⟨_, carries', ?_⟩
  rw [carries'.trace_eq, carries.trace_eq]
  simp [asked, Note.mark?, show next.request.method.isStep = true from isStep.1]

end Trip

section Turns

variable {σ : Type} [TokenStore σ] {s s' : Session σ} {f : Trip} {t : Task} {occasion : Occasion}
  {next : Await}

/-- Whatever the next question is, the flight goes on with it. -/
theorem Trip.Carries.goesOn (carries : f.Carries t occasion.await?)
    (turn : Session.Turn t.call s occasion (.ok (.stop (.wait next))) s')
    (aboard : occasion.isAshore = false) (fits : occasion.Fits t.call s.state.phase) :
    ∃ g : Trip, g.Carries t (some next) ∧
      g.trace = f.trace ++ marks [.asked t.id next.request] := by
  have shaking {a : Await} (last : occasion.await? = some a) (shakes : a.progress ≠ 0) :
      f.call.isShareable = true := by
    have reaches := carries.reaches
    rw [last] at reaches
    refine carries.regular.shakes ?_
    rw [reaches.1]
    cases a <;> first | exact absurd rfl shakes | exact List.cons_ne_nil _ _
  cases turn with
  | asks asks => simp [asks.ashore] at aboard
  | logsOut => contradiction
  | setsOut =>
    refine ⟨f, carries.stays _ ⟨carries.reaches.2, ?_, fun _ => carries.reaches.1⟩ rfl⟩
    exact fun status => absurd status (by decide)
  | prompts =>
    have asked : f.check = [] := carries.reaches.2.2 rfl
    refine ⟨f, carries.stays _ ⟨carries.reaches.1, ?_, fun _ => asked⟩ rfl⟩
    exact fun status => absurd status (by decide)
  | revalidates checks =>
    cases checks with
    | alone only =>
      exact carries.checks _ carries.reaches.1 carries.reaches.2 (.inr (carries.call ▸ only))
    | connected | prompted =>
      have only : t.call = .connect := by simpa [Await.isOf] using fits.1
      exact carries.checks _ (carries.reaches.2.2 rfl) carries.reaches.1 (.inl (carries.call ▸ only))
  | startsOver shakes =>
    exact carries.shakes .account (k := 0) carries.reaches.2 rfl rfl (carries.call ▸ shakes)
  | fallsBack only checked =>
    refine carries.shakes .account (k := 0) ?_ rfl rfl (by rw [carries.call, only]; rfl)
    cases occasion with
    | start => contradiction
    | flight => exact carries.reaches.2
    | answer a reply => rw [carries.reaches.1, Await.progress_of_isCheck checked]
  | starts => exact carries.shakes _ carries.reaches.1 rfl rfl (shaking rfl (Nat.succ_ne_zero _))
  | keepsChallenge => exact carries.shakes _ carries.reaches.1 rfl rfl (shaking rfl (Nat.succ_ne_zero _))
  | signs => exact carries.shakes _ carries.reaches.1 rfl rfl (shaking rfl (Nat.succ_ne_zero _))
  | submits => exact carries.shakes _ carries.reaches.1 rfl rfl (shaking rfl (Nat.succ_ne_zero _))

/-- The step that a call waits for is the last one of its flight. -/
theorem Trip.Carries.last {a : Await} (carries : f.Carries t (some a)) (step : a.method.isStep = true) :
    (f.check ++ f.handshake).getLast? = some a.method := by
  obtain ⟨handshake, check, _⟩ := carries.reaches
  rw [handshake]
  cases a with
  | status current => simp [check rfl, Await.progress, Await.method, Await.request, Request.method]
  | account | issue | signature | publicKey | verify =>
    simp [Await.progress, handshakeSteps, Await.method, Await.request, Request.method]
  | _ => contradiction

/-- The flight ends. -/
theorem Trip.Carries.over {last : Option Await} (carries : f.Carries t last) :
    ∃ g : Trip, g.id = t.id ∧ g.call = t.call ∧ g.isOver = true ∧ g.Regular ∧
      g.trace = f.trace ++ [.lands t.id] := by
  refine ⟨{ f with isOver := true }, carries.id, carries.call, rfl, { carries.regular with }, ?_⟩
  rw [carries.trace_eq, Trip.trace, carries.id]
  rfl

end Turns

namespace World

variable {σ : Type} {w w' : World σ} {t u : Task} {a : Await} {occasion : Occasion} {lock : Lock}
  {notes : List Note} {place : Option Place} {s : Session σ}

/-- The call asks something on the flight that it holds. -/
def Flies (w : World σ) (t : Task) (a : Await) : Prop :=
  w.Has t ∧ t.place = .asking a ∧ a.isAboard = true

/-- The flights that are over. -/
structure Past (log : List Note) (past : List Trip) : Prop where
  isOver {f : Trip} (member : f ∈ past) : f.isOver = true
  regular {f : Trip} (member : f ∈ past) : f.Regular
  started {f : Trip} (member : f ∈ past) : .started f.id f.call ∈ log

theorem Past.append {log : List Note} {past : List Trip} (before : Past log past)
    (notes : List Note) : Past (log ++ notes) past :=
  { before with started := fun member => List.mem_append_left _ (before.started member) }

theorem Past.snoc {log : List Note} {past : List Trip} {f : Trip} (before : Past log past)
    (isOver : f.isOver = true) (regular : f.Regular) (started : .started f.id f.call ∈ log) :
    Past log (past ++ [f]) where
  isOver member := (List.mem_append.mp member).elim before.isOver fun last =>
    List.mem_singleton.mp last ▸ isOver
  regular member := (List.mem_append.mp member).elim before.regular fun last =>
    List.mem_singleton.mp last ▸ regular
  started member := (List.mem_append.mp member).elim before.started fun last =>
    List.mem_singleton.mp last ▸ started

/-- The history is one of flights, of which at most the last is under way. -/
inductive Charted (w : World σ) : Prop
  | grounded {past : List Trip} (before : Past w.log past) (nobody : ∀ t a, ¬w.Flies t a)
      (trace : marks w.log = past.flatMap Trip.trace)
  | aloft {past : List Trip} {f : Trip} {t : Task} {a : Await} (before : Past w.log past)
      (flies : w.Flies t a) (carries : f.Carries t (some a))
      (trace : marks w.log = past.flatMap Trip.trace ++ f.trace)

/-- Only one call flies. -/
theorem Orderly.alone (orderly : w.Orderly) {b : Await} (one : w.Flies t a) (other : w.Flies u b) :
    u = t := by
  have holds := orderly.aboard one.1 one.2.1 one.2.2
  have holds' := orderly.aboard other.1 other.2.1 other.2.2
  exact other.1.unique one.1 (Option.some.inj (holds'.symm.trans holds))

/-- Who stays off the flight leaves no mark. -/
theorem Charted.bystands (charted : w.Charted) (moved : Moved w t lock place s notes w')
    (quiet : marks notes = []) (before : ∀ u a, w.Flies u a → u.id ≠ t.id)
    (after : ∀ a, place = some (.asking a) → a.isAboard = false) : w'.Charted := by
  have log : marks w'.log = marks w.log := by rw [moved.log, marks_append, quiet, List.append_nil]
  cases charted with
  | grounded past nobody trace =>
    refine .grounded (moved.log ▸ past.append notes) (fun u a flies => ?_) (log.trans trace)
    obtain ⟨has, asking, aboard⟩ := flies
    rcases moved.has_cases has with ⟨p, goes, rfl⟩ | ⟨_, had⟩
    · exact absurd aboard (Bool.eq_false_iff.mp (after a (goes.trans (congrArg some asking))))
    · exact nobody u a ⟨had, asking, aboard⟩
  | aloft past flies carries trace =>
    have stays := (moved.has_other (before _ _ flies)).mpr flies.1
    exact .aloft (moved.log ▸ past.append notes) ⟨stays, flies.2⟩ carries (log.trans trace)

/-- Whoever flies may go, and the flight with it. -/
theorem Charted.lands {past : List Trip} {f : Trip} {last : Option Await}
    (before : Past w'.log past) (started : .started t.id t.call ∈ w'.log)
    (carries : f.Carries t last) (moved : Moved w t lock none s notes w')
    (trace : marks w'.log = past.flatMap Trip.trace ++ f.trace ++ [.lands t.id])
    (alone : ∀ u a, w.Flies u a → u.id = t.id) : w'.Charted := by
  obtain ⟨g, id, call, isOver, regular, ends⟩ := carries.over
  rw [← id, ← call] at started
  refine .grounded (before.snoc isOver regular started) (fun u a flies => ?_) ?_
  · obtain ⟨has, asking, aboard⟩ := flies
    rcases moved.has_cases has with ⟨p, goes, _⟩ | ⟨other, had⟩
    · contradiction
    · exact other (alone u a ⟨had, asking, aboard⟩)
  · simp [trace, ends]

theorem marks_landing : marks (landing t lock s) =
    if lock.holder = some t.id then [.lands t.id] else [] := by
  unfold landing
  split <;> rfl

theorem marks_farewell (result : Except AuthError Value) :
    marks (farewell t lock s result) = if lock.holder = some t.id then [.lands t.id] else [] := by
  rw [farewell, marks_append, marks_landing]
  exact List.append_nil _

variable [TokenStore σ]

theorem Comes.marks (comes : Comes w t occasion lock notes) :
    marks notes = occasion.marks t.id := by
  induction comes with
  | boards _ turn _ ih =>
    rw [marks_append, ih, Occasion.marks_ashore turn.board_ashore]
    rfl
  | _ => rfl

theorem Comes.lock_ashore (comes : Comes w t occasion lock notes)
    (ashore : occasion.isAshore = true) : lock = w.flight.lock := by
  cases comes <;> first | rfl | contradiction

/-- Whoever flies when a call does work on a flight is the call itself, with its answer. -/
theorem Comes.alone (comes : Comes w t occasion lock notes) (orderly : w.Orderly)
    (aboard : occasion.isAshore = false) (flies : w.Flies u a) :
    u = t ∧ ∃ reply, occasion = .answer a reply := by
  obtain ⟨has, asking, flying⟩ := flies
  have holds := (comes.joins orderly).holder (orderly.aboard has asking flying)
  have same : u.id = t.id := Option.some.inj (holds.symm.trans (comes.holds orderly aboard))
  rcases comes.knows orderly with known | fresh
  · obtain rfl := has.unique known same
    obtain ⟨reply, answer, _⟩ := comes.answers orderly has asking flying
    exact ⟨rfl, reply, answer⟩
  · rw [← same, has] at fresh
    contradiction

/-- The flight on which a call does its work, as far as it has come. -/
theorem Charted.carries (charted : w.Charted) (orderly : w.Orderly)
    (comes : Comes w t occasion lock notes) (aboard : occasion.isAshore = false) :
    ∃ (past : List Trip) (f : Trip), Past w.log past ∧ f.Carries t occasion.await? ∧
      marks (w.log ++ notes) = past.flatMap Trip.trace ++ f.trace := by
  cases charted with
  | grounded before nobody trace =>
    cases occasion with
    | start => contradiction
    | answer a reply =>
      cases comes with
      | answered has place =>
        exact absurd ⟨has, place, by simpa [Occasion.isAshore] using aboard⟩ (nobody t a)
    | flight =>
      have regular : Trip.Regular ⟨t.id, t.call, [], [], false⟩ :=
        ⟨.inl rfl, List.nil_prefix, fun asks => absurd rfl asks, fun asks => absurd rfl asks⟩
      refine ⟨_, ⟨t.id, t.call, [], [], false⟩, before, ⟨rfl, rfl, rfl, regular, rfl, rfl⟩, ?_⟩
      rw [marks_append, trace, comes.marks]
      rfl
  | aloft before flies carries trace =>
    obtain ⟨rfl, reply, rfl⟩ := comes.alone orderly aboard flies
    refine ⟨_, _, before, carries, ?_⟩
    rw [marks_append, trace, comes.marks]
    exact List.append_nil _

/-- A turn without the flight leaves no mark. -/
theorem Charted.turnsAshore {result : Except AuthError Move} (charted : w.Charted)
    (orderly : w.Orderly) (comes : Comes w t occasion lock notes)
    (turn : Session.Turn t.call w.session occasion result s)
    (moved : Moved w t lock (rest result) (settled s.rested t.call result)
      (notes ++ s.deeds.map (.did t.id) ++ closing t lock s.rested result) w')
    (ashore : occasion.isAshore = true) : w'.Charted := by
  have absent := comes.ashore orderly ashore
  have elsewhere : lock.holder ≠ some t.id := by
    rw [comes.lock_ashore ashore]
    exact fun holds => absent (Lock.mem_line.mpr (.inl holds))
  refine charted.bystands moved ?_ ?_ ?_
  · rw [marks_append, marks_append, comes.marks, Occasion.marks_ashore ashore, marks_dids]
    rcases result with e | (_ | (next | v))
    · exact (marks_farewell _).trans (if_neg elsewhere)
    · rfl
    · have quiet : next.request.method.isStep = false := Bool.eq_false_iff.mpr fun step => by
        have flying : next.isAboard = true := Await.aboard_of_isStep step
        simp [turn.aboard, ashore] at flying
      simp [closing, Note.mark?, quiet]
    · exact (marks_farewell _).trans (if_neg elsewhere)
  · rintro u a ⟨has, asking, flying⟩ same
    exact absent (same ▸ Lock.mem_line.mpr (.inl (orderly.aboard has asking flying)))
  · intro a goes
    obtain ⟨_, rfl, same⟩ := rest_eq_some goes
    cases same
    simp [turn.aboard, ashore]

/-- A turn on the flight takes it one step further, or ends it. -/
theorem Charted.turnsAboard {result : Except AuthError Move} (charted : w.Charted)
    (orderly : w.Orderly) (registered : w.Registered) (comes : Comes w t occasion lock notes)
    (turn : Session.Turn t.call w.session occasion result s)
    (moved : Moved w t lock (rest result) (settled s.rested t.call result)
      (notes ++ s.deeds.map (.did t.id) ++ closing t lock s.rested result) w')
    (aboard : occasion.isAshore = false) : w'.Charted := by
  obtain ⟨past, f, before, carries, trace⟩ := charted.carries orderly comes aboard
  have holds := comes.holds orderly aboard
  have before : Past w'.log past := moved.log ▸ before.append _
  have started := registered.lists_turned orderly comes moved.log
  have alone (u a) (flies : w.Flies u a) : u.id = t.id :=
    congrArg Task.id (comes.alone orderly aboard flies).1
  have marked : marks w'.log =
      past.flatMap Trip.trace ++ f.trace ++ marks (closing t lock s.rested result) := by
    rw [moved.log, ← List.append_assoc, ← List.append_assoc, marks_append, marks_append, trace,
      marks_dids, List.append_nil]
  have ends (value : Except AuthError Value) (same : closing t lock s.rested result =
      farewell t lock s.rested value) :
      marks w'.log = past.flatMap Trip.trace ++ f.trace ++ [.lands t.id] := by
    rw [marked, same, marks_farewell, if_pos holds]
  rcases result with e | (_ | (next | v))
  · exact .lands before started carries moved (ends _ rfl) alone
  · simp [turn.board_ashore] at aboard
  · obtain ⟨g, goes, asks⟩ := carries.goesOn turn aboard (comes.fits orderly)
    refine .aloft (t := { t with place := .asking next }) before ⟨?_, rfl, ?_⟩ { goes with } ?_
    · rw [Has, moved.tasks, if_pos rfl]
      rfl
    · simp [turn.aboard, aboard]
    · rw [marked, asks, List.append_assoc]
      rfl
  · exact .lands before started carries moved (ends _ rfl) alone

theorem Charted.turns {result : Except AuthError Move} (charted : w.Charted) (orderly : w.Orderly)
    (registered : w.Registered) (comes : Comes w t occasion lock notes)
    (turn : Session.Turn t.call w.session occasion result s)
    (moved : Moved w t lock (rest result) (settled s.rested t.call result)
      (notes ++ s.deeds.map (.did t.id) ++ closing t lock s.rested result) w') : w'.Charted := by
  cases aboard : occasion.isAshore with
  | true => exact charted.turnsAshore orderly comes turn moved aboard
  | false => exact charted.turnsAboard orderly registered comes turn moved aboard

omit [TokenStore σ] in
theorem marks_parting_of_flies (orderly : w.Orderly) (flies : w.Flies t a) :
    marks (.dropped t.id :: parting w t) = [.lands t.id] := by
  obtain ⟨has, place, aboard⟩ := flies
  rw [marks_cons, parting, place, marks_landing, if_pos (orderly.aboard has place aboard)]
  rfl

omit [TokenStore σ] in
theorem marks_parting_of_not_flies (orderly : w.Orderly) (has : w.Has t)
    (ashore : ∀ a, ¬w.Flies t a) : marks (.dropped t.id :: parting w t) = [] := by
  have elsewhere (stays : t.place.isFlying = false) : w.flight.lock.holder ≠ some t.id :=
    fun holds => orderly.ashore has stays (Lock.mem_line.mpr (.inl holds))
  unfold parting
  cases place : t.place with
  | flightTurn seen => rfl
  | startupTurn =>
    rw [marks_cons, marks_landing, if_neg (elsewhere (by rw [place, Place.isFlying]))]
    rfl
  | asking a =>
    have outside : a.isAboard = false :=
      Bool.eq_false_iff.mpr fun aboard => ashore a ⟨has, place, aboard⟩
    rw [marks_cons, marks_landing, if_neg (elsewhere (by rw [place, Place.isFlying, outside]))]
    rfl

theorem Moves.charted {id : Nat} (moves : Moves w w' id) (orderly : w.Orderly)
    (registered : w.Registered) (charted : w.Charted) : w'.Charted := by
  have grounded {t : Task} (absent : t.id ∉ w.flight.lock.line) (u : Task) (a : Await)
      (flies : w.Flies u a) : u.id ≠ t.id := fun same =>
    absent (same ▸ Lock.mem_line.mpr (.inl (orderly.aboard flies.1 flies.2.1 flies.2.2)))
  cases moves with
  | idle same => rwa [same]
  | turns comes turn stops moved => exact charted.turns orderly registered comes turn moved
  | queues comes turn moved =>
    have ashore := turn.board_ashore
    refine charted.bystands moved ?_ (grounded (comes.ashore orderly ashore)) (by simp)
    rw [comes.marks, Occasion.marks_ashore ashore]
  | @shares t seen has place holds served moved =>
    refine charted.bystands moved rfl (fun u a flies same => ?_) (by simp)
    obtain rfl := flies.1.unique has same
    cases place.symm.trans flies.2.1
  | waits number only moved =>
    exact charted.bystands moved rfl (grounded (orderly.ashore_fresh number)) (by simp)
  | observes comes moved =>
    refine charted.bystands moved ?_ (grounded (comes.ashore orderly rfl)) (by simp)
    rw [marks_append, comes.marks]
    rfl
  | @drops t has moved =>
    by_cases flying : ∃ a, w.Flies t a
    · obtain ⟨a, flies⟩ := flying
      cases charted with
      | grounded before nobody => exact absurd flies (nobody t a)
      | aloft before flies' carries trace =>
        obtain rfl := orderly.alone flies flies'
        refine .lands (moved.log ▸ before.append _) ?_ carries moved ?_ fun u b other =>
          congrArg Task.id (orderly.alone flies other)
        · rw [moved.log]
          exact List.mem_append_left _ (registered.started has)
        · rw [moved.log, marks_append, trace, marks_parting_of_flies orderly flies]
    · have ashore (a) (flies : w.Flies t a) : False := flying ⟨a, flies⟩
      refine charted.bystands moved (marks_parting_of_not_flies orderly has ashore) ?_ (by simp)
      rintro u a flies same
      exact ashore a (flies.1.unique has same ▸ flies)

theorem Reachable.charted (reachable : w.Reachable) : w.Charted :=
  reachable.stepwise
    (fun _ _ _ =>
      have before : Past [] [] := ⟨nofun, nofun, nofun⟩
      .grounded before (fun _ _ flies => nomatch flies.1) rfl)
    fun _ action reachable => (step_moves reachable.orderly action).charted reachable.orderly
      reachable.registered

/-- Steps of flights never interleave. At most one is waited for at any time, and the history is one
of flights, each with its steps in their order. -/
theorem steps_never_interleave (reachable : w.Reachable) :
    (∀ t u a b, w.Has t → w.Has u → t.place = .asking a → u.place = .asking b →
        a.method.isStep = true → b.method.isStep = true → t = u) ∧
      ∃ flights : List Trip, marks w.log = flights.flatMap Trip.trace ∧
        (∀ f ∈ flights, f.Regular ∧ .started f.id f.call ∈ w.log) ∧
        (∀ f ∈ flights.dropLast, f.isOver = true) ∧
        ∀ t a, w.Has t → t.place = .asking a → a.method.isStep = true →
          ∃ f, flights.getLast? = some f ∧ f.isOver = false ∧ f.id = t.id ∧
            (f.check ++ f.handshake).getLast? = some a.method := by
  have orderly := reachable.orderly
  have flies {t : Task} {a : Await} (has : w.Has t) (place : t.place = .asking a)
      (step : a.method.isStep = true) : w.Flies t a :=
    ⟨has, place, Await.aboard_of_isStep step⟩
  refine ⟨fun t u a b hasT hasU placeT placeU stepT stepU =>
    (orderly.alone (flies hasT placeT stepT) (flies hasU placeU stepU)).symm, ?_⟩
  cases reachable.charted with
  | @grounded past before nobody trace =>
    refine ⟨past, trace, fun f member => ⟨before.regular member, before.started member⟩,
      fun f member => before.isOver (List.dropLast_subset _ member), fun t a has place step => ?_⟩
    exact absurd (flies has place step) (nobody t a)
  | @aloft past f t a before now carries trace =>
    refine ⟨past ++ [f], by simp [trace], fun g member => ?_, fun g member => ?_,
      fun u b has place step => ?_⟩
    · rcases List.mem_append.mp member with earlier | last
      · exact ⟨before.regular earlier, before.started earlier⟩
      · rw [List.mem_singleton.mp last, carries.id, carries.call]
        exact ⟨carries.regular, reachable.registered.started now.1⟩
    · rw [List.dropLast_concat] at member
      exact before.isOver member
    · obtain rfl := orderly.alone now (flies has place step)
      obtain rfl : a = b := Place.asking.inj (now.2.1.symm.trans place)
      exact ⟨f, List.getLast?_concat, carries.goes, carries.id, carries.last step⟩

/-- A handshake that is dropped after two steps, and the connect that has waited for it. -/
theorem flights_after_drop :
    let w := (ofSession (Session.create ⟨"", "", ""⟩ true (⟨none⟩ : MemoryStore))).steps
      [.start .handshake false, .start .connect false, .answer 0 .account (.ok "a"), .drop 0,
        .wake 1, .answer 1 .isConnected (.ok true)]
    marks w.log = [.boards 0, .asks 0 .account, .asks 0 .issue, .lands 0, .boards 1,
        .asks 1 .account] ∧
      ∃ flights : List Trip, marks w.log = flights.flatMap Trip.trace ∧ ∀ f ∈ flights, f.Regular := by
  intro w
  have reachable : w.Reachable := ⟨_, _, _, _, rfl⟩
  obtain ⟨_, flights, trace, regular, _⟩ := steps_never_interleave reachable
  exact ⟨rfl, flights, trace, fun f member => (regular f member).1⟩

end World

end WalletSession
