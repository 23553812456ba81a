import WalletSession.Proofs.World.Flights
import WalletSession.Proofs.World.Waiting

/-! The challenges of a history. What a call says about a challenge is a dialogue in fixed order: one
challenge is issued, the wallet is asked once to sign it, and what it has signed is submitted once. No
other call has a part in it, so that a nonce which is issued once is signed and submitted at most once. -/
namespace WalletSession

namespace Note

/-- The note is about a challenge: it is issued, to be signed, signed, or submitted with a key. -/
def isTalk : Note → Bool
  | .answered _ .issue _ | .answered _ .signMessage _ | .answered _ .publicKey _ => true
  | .asked _ (.signMessage ..) | .asked _ (.verify _) => true
  | _ => false

/-- The nonce of a challenge that was issued. -/
def issuedNonce? : Note → Option String
  | .answered _ .issue (.ok issued) => issued.nonce
  | _ => none

/-- The nonce that the wallet is asked to sign. -/
def promptedNonce? : Note → Option String
  | .asked _ (.signMessage payload _) => some payload.nonce
  | _ => none

/-- The nonce that a submission names. -/
def submittedNonce? : Note → Option String
  | .asked _ (.verify submission) => some submission.signed.nonce
  | _ => none

end Note

/-- What a call has said and been told about challenges. -/
def talk (id : Nat) (log : List Note) : List Note := (own id log).filter Note.isTalk

/-- A challenge is issued, and the wallet is asked to sign it as it stands, with all of its context. -/
def prompt (id : Nat) (issued : SessionToken) (nonce : String) : List Note :=
  [.answered id .issue (.ok issued),
    .asked id (.signMessage
      { address := true, application := true, chainId := true, message := Wire.encode issued, nonce }
      {})]

/-- The wallet has signed the challenge. -/
def signing (id : Nat) (issued : SessionToken) (nonce : String) (signed : SignedMessage) :
    List Note :=
  prompt id issued nonce ++ [.answered id .signMessage (.ok { success := true, result := some signed })]

/-- All that a call may ever have said and been told about challenges. Where it ends with an answer,
there may be more to come, or the answer has ended it. -/
inductive Dialogue (id : Nat) : List Note → Prop
  | silent : Dialogue id []
  | issued (reply : Except AuthError SessionToken) : Dialogue id [.answered id .issue reply]
  | prompted {issued : SessionToken} {nonce : String} (given : issued.nonce = some nonce) :
      Dialogue id (prompt id issued nonce)
  | signed {issued : SessionToken} {nonce : String} (given : issued.nonce = some nonce)
      (reply : Except AuthError SignMessageResponse) :
      Dialogue id (prompt id issued nonce ++ [.answered id .signMessage reply])
  | keyed {issued : SessionToken} {nonce : String} (given : issued.nonce = some nonce)
      (signed : SignedMessage) (reply : Except AuthError String) :
      Dialogue id (signing id issued nonce signed ++ [.answered id .publicKey reply])
  | submitted {issued : SessionToken} {nonce : String} (given : issued.nonce = some nonce)
      (signed : SignedMessage) (publicKey : String) :
      Dialogue id (signing id issued nonce signed ++
        [.answered id .publicKey (.ok publicKey), .asked id (.verify { signed, publicKey })])

/-- How far the dialogue is where the call waits. -/
inductive Dialogue.Reaches (id : Nat) : Option Await → List Note → Prop
  | silent {last : Option Await} (early : ∀ a ∈ last, a.progress ≤ 2) : Reaches id last []
  | prompted {issued : SessionToken} {nonce : String} (given : issued.nonce = some nonce) :
      Reaches id (some (.signature (.challenge (Wire.encode issued) nonce))) (prompt id issued nonce)
  | signed {issued : SessionToken} {nonce : String} (given : issued.nonce = some nonce)
      (signed : SignedMessage) :
      Reaches id (some (.publicKey signed)) (signing id issued nonce signed)
  | submitted {issued : SessionToken} {nonce : String} (given : issued.nonce = some nonce)
      (signed : SignedMessage) (publicKey : String) :
      Reaches id (some (.verify { signed, publicKey })) (signing id issued nonce signed ++
        [.answered id .publicKey (.ok publicKey), .asked id (.verify { signed, publicKey })])

section Talk

variable {id : Nat} {first second notes : List Note}

@[simp] theorem talk_append : talk id (first ++ second) = talk id first ++ talk id second := by
  simp [talk]

theorem talk_others (others : ∀ n ∈ notes, n.id ≠ id) : talk id notes = [] :=
  filter_own_others others

theorem talk_quiet (quiet : ∀ n ∈ notes, n.isTalk = false) : talk id notes = [] :=
  filter_own_quiet quiet

theorem talk_singleton {n : Note} (mine : n.id = id) :
    talk id [n] = if n.isTalk then [n] else [] :=
  filter_own_singleton mine

@[simp] theorem talk_dids (deeds : List Deed) : talk id (deeds.map (.did id)) = [] := by
  apply talk_quiet
  simp [Note.isTalk]

theorem not_isTalk_of_isFinal {n : Note} (final : n.isFinal = true) : n.isTalk = false := by
  cases n <;> first | rfl | contradiction

end Talk

/-- What the question says about a challenge. -/
def Await.talk (id : Nat) : Await → List Note
  | .signature payload => [.asked id (.signMessage payload {})]
  | .verify submission => [.asked id (.verify submission)]
  | _ => []

/-- What the answer says about a challenge. -/
def Occasion.talk (id : Nat) : Occasion → List Note
  | .answer (.issue draft) reply => [.answered id (Await.issue draft).method reply]
  | .answer (.signature payload) reply => [.answered id (Await.signature payload).method reply]
  | .answer (.publicKey signed) reply => [.answered id (Await.publicKey signed).method reply]
  | _ => []

theorem talk_asked (id : Nat) (a : Await) : talk id [.asked id a.request] = a.talk id := by
  cases a <;> exact (talk_singleton rfl).trans rfl

theorem talk_answered (id : Nat) (a : Await) (reply : Except AuthError a.Reply) :
    talk id [.answered id a.method reply] = (Occasion.answer a reply).talk id := by
  cases a <;> exact (talk_singleton rfl).trans rfl

section Reaches

open Dialogue

variable {id : Nat} {occasion : Occasion} {notes : List Note} {a next : Await}

theorem Await.progress_of_outside (outside : a.isAboard = false) : a.progress = 0 := by
  cases a <;> first | rfl | contradiction

theorem Occasion.progress_of_isAshore (ashore : occasion.isAshore = true)
    (answered : a ∈ occasion.await?) : a.progress = 0 := by
  cases occasion with
  | start | flight => cases answered
  | answer b reply =>
    cases answered
    exact Await.progress_of_outside (by simpa [Occasion.isAshore] using ashore)

theorem Occasion.progress_of_isCheck (checked : occasion.isCheck = true)
    (answered : a ∈ occasion.await?) : a.progress = 0 := by
  cases occasion with
  | start | flight => cases answered
  | answer b reply =>
    cases answered
    exact Await.progress_of_isCheck checked

/-- Before a challenge is asked for, no answer is about one. -/
theorem Occasion.talk_early (early : ∀ a ∈ occasion.await?, a.progress ≤ 1) :
    occasion.talk id = [] := by
  cases occasion with
  | start | flight => rfl
  | answer a reply =>
    have early := early a rfl
    cases a with
    | issue | signature | publicKey => simp [Await.progress] at early
    | _ => rfl

/-- Before a challenge is to be signed, no question is about one. -/
theorem Await.talk_early (early : a.progress ≤ 2) : a.talk id = [] := by
  cases a with
  | signature | verify => simp [Await.progress] at early
  | _ => rfl

namespace Dialogue

theorem Reaches.nothing : Reaches id none [] := .silent (by simp)

theorem Reaches.eq_nil {last : Option Await} (reaches : Reaches id last notes)
    (early : ∀ a ∈ last, a.progress ≤ 2) : notes = [] := by
  cases reaches with
  | silent => rfl
  | prompted | signed | submitted => simp [Await.progress] at early

/-- Without the flight nothing is said about a challenge. -/
theorem Reaches.ashore (reaches : Reaches id occasion.await? notes)
    (ashore : occasion.isAshore = true) : notes = [] ∧ occasion.talk id = [] := by
  have early {a : Await} (answered : a ∈ occasion.await?) : a.progress = 0 :=
    Occasion.progress_of_isAshore ashore answered
  constructor
  · apply reaches.eq_nil
    intro a answered
    simp [early answered]
  · apply Occasion.talk_early
    intro a answered
    simp [early answered]

/-- Up to the question for a challenge, nothing is said about one. -/
theorem Reaches.early (reaches : Reaches id occasion.await? notes)
    (before : ∀ a ∈ occasion.await?, a.progress ≤ 1) (after : next.progress ≤ 2) :
    Reaches id (some next) (notes ++ occasion.talk id ++ next.talk id) := by
  obtain rfl := reaches.eq_nil fun a answered => Nat.le_succ_of_le (before a answered)
  rw [Occasion.talk_early before, Await.talk_early after]
  apply Reaches.silent
  intro a same
  obtain rfl := Option.some.inj same
  exact after

/-- The next question takes the dialogue as far as it belongs there. -/
theorem Reaches.goesOn {σ : Type} [TokenStore σ] {s s' : Session σ} {call : Call}
    (reaches : Reaches id occasion.await? notes)
    (turn : Session.Turn call s occasion (.ok (.stop (.wait next))) s') :
    Reaches id (some next) (notes ++ occasion.talk id ++ next.talk id) := by
  cases turn with
  | asks asks =>
    refine reaches.early (fun a answered => ?_) ?_
    · simp [Occasion.progress_of_isAshore asks.ashore answered]
    · simp [Await.progress_of_outside asks.outside]
  | logsOut _ next =>
    refine reaches.early (by simp [Occasion.await?]) ?_
    rcases next with rfl | rfl <;> exact Nat.zero_le _
  | setsOut | startsOver => exact reaches.early (by simp [Occasion.await?]) (by decide)
  | prompts | starts =>
    exact reaches.early (by simp [Occasion.await?, Await.progress]) (by simp [Await.progress])
  | revalidates checks =>
    refine reaches.early (fun a answered => ?_) (Nat.zero_le _)
    simp [Occasion.progress_of_isCheck checks.isCheck answered]
  | fallsBack _ checked =>
    refine reaches.early (fun a answered => ?_) (by decide)
    simp [Occasion.progress_of_isCheck checked answered]
  | keepsChallenge _ given =>
    cases reaches
    exact .prompted given
  | signs =>
    cases reaches with
    | silent early => simp [Occasion.await?, Await.progress] at early
    | prompted given => exact .signed given _
  | submits =>
    cases reaches with
    | silent early => simp [Occasion.await?, Await.progress] at early
    | signed given => exact .submitted given _ _

theorem Reaches.dialogue {last : Option Await} (reaches : Reaches id last notes) :
    Dialogue id notes := by
  cases reaches with
  | silent => exact .silent
  | prompted given => exact .prompted given
  | signed given signed => exact .signed given _
  | submitted given signed publicKey => exact .submitted given signed publicKey

/-- Whatever the answer is, the dialogue may end with it. -/
theorem Reaches.ends (reaches : Reaches id occasion.await? notes) :
    Dialogue id (notes ++ occasion.talk id) := by
  have stays (quiet : occasion.talk id = []) : Dialogue id (notes ++ occasion.talk id) := by
    rw [quiet, List.append_nil]
    exact reaches.dialogue
  cases occasion with
  | start | flight => exact stays rfl
  | answer a reply =>
    cases a with
    | issue draft =>
      cases reaches
      exact .issued reply
    | signature payload =>
      cases reaches with
      | silent early => simp [Occasion.await?, Await.progress] at early
      | prompted given => exact .signed given reply
    | publicKey signed =>
      cases reaches with
      | silent early => simp [Occasion.await?, Await.progress] at early
      | signed given => exact .keyed given signed reply
    | _ => exact stays rfl

end Dialogue

end Reaches

section Nonces

variable {β : Type} {f g : Note → Option β} {log notes : List Note} {m n : Note} {x : β} {id : Nat}

theorem eq_of_nodup_filterMap (nodup : (log.filterMap f).Nodup) (hm : m ∈ log) (hn : n ∈ log)
    (fm : f m = some x) (fn : f n = some x) : m = n := by
  obtain ⟨before, after, rfl⟩ := List.append_of_mem hm
  rw [List.filterMap_append, List.filterMap_cons_some fm, List.nodup_middle, List.nodup_cons,
    ← List.filterMap_append] at nodup
  by_contra other
  have elsewhere : n ∈ before ++ after := by simpa [Ne.symm other] using hn
  exact nodup.1 (List.mem_filterMap.mpr ⟨n, elsewhere, fn⟩)

/-- If each call brings up only values of its own, in their order, then no value comes up twice that is
not there twice. -/
theorem nodup_of_own (each : ∀ id, ((own id log).filterMap g).Sublist ((own id log).filterMap f))
    (nodup : (log.filterMap f).Nodup) : (log.filterMap g).Nodup := by
  have source {n : Note} {x : β} (member : n ∈ log) (value : g n = some x) :
      ∃ m ∈ log, m.id = n.id ∧ f m = some x := by
    have now := (each n.id).subset (List.mem_filterMap.mpr ⟨n, mem_own member, value⟩)
    obtain ⟨m, mine, value⟩ := List.mem_filterMap.mp now
    obtain ⟨member, same⟩ := List.mem_filter.mp mine
    exact ⟨m, member, by simpa using same, value⟩
  unfold List.Nodup
  rw [List.pairwise_filterMap, List.pairwise_iff_forall_sublist]
  intro m n both x valueM y valueN same
  subst same
  obtain ⟨m', memberM, idM, sourceM⟩ := source (both.subset (by simp)) valueM
  obtain ⟨n', memberN, idN, sourceN⟩ := source (both.subset (by simp)) valueN
  obtain rfl := eq_of_nodup_filterMap nodup memberM memberN sourceM sourceN
  -- Both were brought up by one call, which has the value only once.
  have same : m.id = n.id := idM.symm.trans idN
  have twice : [x, x].Sublist ((own n.id log).filterMap g) := by
    simpa [own, same, valueM, valueN] using (both.filter fun k : Note => k.id == n.id).filterMap g
  have once := nodup.sublist ((twice.trans (each n.id)).trans (List.filter_sublist.filterMap f))
  simp at once

theorem filterMap_talk (only : ∀ n, n.isTalk = false → g n = none) :
    (talk id log).filterMap g = (own id log).filterMap g := by
  unfold talk
  rw [List.filterMap_filter]
  congr
  funext n
  cases talks : n.isTalk with
  | true => simp
  | false => simp [only n talks]

theorem Note.nonces_of_quiet (quiet : n.isTalk = false) :
    n.issuedNonce? = none ∧ n.promptedNonce? = none ∧ n.submittedNonce? = none := by
  refine ⟨?_, ?_, ?_⟩
  · unfold issuedNonce?
    split
    · contradiction
    · rfl
  · unfold promptedNonce?
    split
    · contradiction
    · rfl
  · unfold submittedNonce?
    split
    · contradiction
    · rfl

theorem Dialogue.prompts (dialogue : Dialogue id notes) :
    (notes.filterMap Note.promptedNonce?).Sublist (notes.filterMap Note.issuedNonce?) := by
  cases dialogue with
  | silent | issued => exact List.nil_sublist _
  | prompted given | signed given | keyed given | submitted given =>
    simp [prompt, signing, List.filterMap_cons, Note.promptedNonce?, Note.issuedNonce?, given]

/-- Whatever the wallet has signed names the nonce that it was asked to sign. -/
def Echoes (log : List Note) : Prop :=
  ∀ (id : Nat) (payload : SignMessagePayload) (options : SignOptions) (signed : SignedMessage),
    .asked id (.signMessage payload options) ∈ log →
      .answered id .signMessage (.ok { success := true, result := some signed }) ∈ log →
      signed.nonce = payload.nonce

theorem Echoes.subset (echoes : Echoes log) (subset : notes ⊆ log) : Echoes notes :=
  fun id payload options signed asked answered =>
    echoes id payload options signed (subset asked) (subset answered)

theorem Dialogue.submits (dialogue : Dialogue id notes)
    (echoes : Echoes notes) :
    (notes.filterMap Note.submittedNonce?).Sublist (notes.filterMap Note.promptedNonce?) := by
  cases dialogue with
  | silent | issued | prompted | signed | keyed => exact List.nil_sublist _
  | submitted given signed publicKey =>
    have echo := echoes id _ _ signed (List.mem_cons_of_mem _ List.mem_cons_self) (by simp [signing])
    simp [prompt, signing, List.filterMap_cons, Note.promptedNonce?, Note.submittedNonce?, echo]

end Nonces

namespace Place

/-- What a call asks where it waits, if it asks anything. -/
def await? : Place → Option Await
  | .asking a => some a
  | .startupTurn | .flightTurn _ => none

end Place

namespace World

variable {σ : Type} {w w' : World σ} {t u : Task} {occasion : Occasion} {lock : Lock}
  {notes : List Note} {place : Option Place} {s : Session σ} {id : Nat}

/-- Every call has said a dialogue, and those that are there wait where it has come to. -/
structure Spoken (w : World σ) : Prop where
  dialogue (id : Nat) : Dialogue id (talk id w.log)
  reaches {t : Task} (has : w.Has t) : Dialogue.Reaches t.id t.place.await? (talk t.id w.log)

theorem Orderly.unspoken (orderly : w.Orderly) (number : id = w.nextId) : talk id w.log = [] := by
  apply talk_others
  intro n member
  exact Nat.ne_of_lt (number ▸ orderly.noted member)

/-- One call speaks at a time. -/
theorem Spoken.moved (spoken : w.Spoken) (moved : Moved w t lock place s notes w')
    (mine : ∀ n ∈ notes, n.id = t.id) (dialogue : Dialogue t.id (talk t.id w'.log))
    (reaches : ∀ p, place = some p → Dialogue.Reaches t.id p.await? (talk t.id w'.log)) :
    w'.Spoken := by
  have other {id : Nat} (other : id ≠ t.id) : talk id w'.log = talk id w.log := by
    have unsaid : talk id notes = [] := talk_others fun n member => mine n member ▸ Ne.symm other
    rw [moved.log, talk_append, unsaid, List.append_nil]
  constructor
  · intro id
    by_cases same : id = t.id
    · exact same ▸ dialogue
    · rw [other same]
      exact spoken.dialogue id
  · intro u has
    rcases moved.has_cases has with ⟨p, goes, rfl⟩ | ⟨others, had⟩
    · exact reaches p goes
    · rw [other others]
      exact spoken.reaches had

/-- Whoever goes where nothing is asked, or away, without a word about a challenge. -/
theorem Spoken.quiet (spoken : w.Spoken) (moved : Moved w t lock place s notes w')
    (mine : ∀ n ∈ notes, n.id = t.id) (quiet : talk t.id notes = [])
    (reaches : ∀ p, place = some p → Dialogue.Reaches t.id p.await? (talk t.id w.log)) :
    w'.Spoken := by
  have log : talk t.id w'.log = talk t.id w.log := by
    rw [moved.log, talk_append, quiet, List.append_nil]
  apply spoken.moved moved mine
  · rw [log]
    exact spoken.dialogue t.id
  · rw [log]
    exact reaches

variable [TokenStore σ]

/-- A call goes on from where its dialogue has come to, and its coming adds the answer. -/
theorem Comes.reaches (comes : Comes w t occasion lock notes) (orderly : w.Orderly)
    (spoken : w.Spoken) :
    Dialogue.Reaches t.id occasion.await? (talk t.id w.log) ∧
      talk t.id notes = occasion.talk t.id := by
  induction comes with
  | fresh number =>
    rw [orderly.unspoken number]
    exact ⟨.nothing, talk_singleton rfl⟩
  | roused has place =>
    have reaches := spoken.reaches has
    rw [place] at reaches
    exact ⟨reaches, rfl⟩
  | answered has place reply =>
    have reaches := spoken.reaches has
    rw [place] at reaches
    exact ⟨reaches, talk_answered _ _ _⟩
  | boards comes turn free ih =>
    obtain ⟨unsaid, untold⟩ := ih.1.ashore turn.board_ashore
    rw [talk_append, ih.2, untold, unsaid]
    exact ⟨.nothing, talk_singleton rfl⟩
  | isCalled has place =>
    have reaches := spoken.reaches has
    rw [place] at reaches
    exact ⟨reaches, talk_singleton rfl⟩

omit [TokenStore σ] in
theorem talk_closing {result : Except AuthError Move} (ends : rest result = none) :
    talk t.id (closing t lock s result) = [] := by
  apply talk_quiet
  intro n member
  rcases closing_cases member with final | ⟨a, rfl, _⟩
  · exact not_isTalk_of_isFinal final
  · contradiction

theorem Spoken.turns {result : Except AuthError Move} (spoken : w.Spoken) (orderly : w.Orderly)
    (comes : Comes w t occasion lock notes)
    (turn : Session.Turn t.call w.session occasion result s)
    (moved : Moved w t lock (rest result) (settled s.rested t.call result)
      (notes ++ s.deeds.map (.did t.id) ++ closing t lock s.rested result) w') : w'.Spoken := by
  obtain ⟨reaches, told⟩ := comes.reaches orderly spoken
  have log : talk t.id w'.log =
      talk t.id w.log ++ occasion.talk t.id ++ talk t.id (closing t lock s.rested result) := by
    rw [moved.log]
    simp [told]
  have respects := orderly.turns comes turn
  cases goes : rest result with
  | none =>
    rw [talk_closing goes, List.append_nil] at log
    apply spoken.moved moved fun _ => respects.mine
    · rw [log]
      exact reaches.ends
    · simp [goes]
  | some p =>
    obtain ⟨a, rfl, rfl⟩ := rest_eq_some goes
    have goesOn := reaches.goesOn turn
    rw [← talk_asked] at goesOn
    apply spoken.moved moved fun _ => respects.mine
    · rw [log]
      exact goesOn.dialogue
    · intro p same
      obtain rfl := Option.some.inj same
      rw [log]
      exact goesOn

theorem Moves.spoken (moves : Moves w w' id) (orderly : w.Orderly) (spoken : w.Spoken) :
    w'.Spoken := by
  cases moves with
  | idle same => exact same ▸ spoken
  | turns comes turn stops moved => exact spoken.turns orderly comes turn moved
  | queues comes turn moved =>
    obtain ⟨reaches, told⟩ := comes.reaches orderly spoken
    obtain ⟨unsaid, untold⟩ := reaches.ashore turn.board_ashore
    apply spoken.quiet moved fun _ => comes.mine
    · rw [told, untold]
    · rintro p ⟨⟩
      rw [unsaid]
      exact .nothing
  | shares has place holds served moved =>
    apply spoken.quiet moved (by simp [Note.id]) (talk_singleton rfl)
    simp
  | waits number only moved =>
    apply spoken.quiet moved (by simp [Note.id]) (talk_singleton rfl)
    rintro p ⟨⟩
    rw [orderly.unspoken number]
    exact .nothing
  | observes comes moved =>
    apply spoken.quiet moved fun _ => comes.mine_snoc rfl
    · rw [talk_append, (comes.reaches orderly spoken).2]
      exact (List.nil_append _).trans (talk_singleton rfl)
    · simp
  | drops has moved =>
    apply spoken.quiet moved fun n member => (parting_final member).1
    · exact talk_quiet fun n member => not_isTalk_of_isFinal (parting_final member).2
    · simp

theorem Reachable.spoken (reachable : w.Reachable) : w.Spoken :=
  reachable.stepwise (fun _ _ _ => ⟨fun _ => .silent, fun has => nomatch has⟩)
    fun _ action reachable => (step_moves reachable.orderly action).spoken reachable.orderly

/-- Each challenge is signed once and each signature submitted once: what a call says of challenges is a
dialogue about one that was issued to it. So if no nonce is issued twice, none is put before the wallet
twice, and none is submitted twice if the wallet names the nonces that it signs. -/
theorem challenges_are_used_once (reachable : w.Reachable) :
    (∀ id, Dialogue id (talk id w.log)) ∧
      ((w.log.filterMap Note.issuedNonce?).Nodup →
        (w.log.filterMap Note.promptedNonce?).Nodup ∧
          (Echoes w.log → (w.log.filterMap Note.submittedNonce?).Nodup)) := by
  have dialogue := reachable.spoken.dialogue
  refine ⟨dialogue, fun issued => ?_⟩
  have prompted : (w.log.filterMap Note.promptedNonce?).Nodup := by
    refine nodup_of_own (fun id => ?_) issued
    rw [← filterMap_talk fun n quiet => (Note.nonces_of_quiet quiet).1,
      ← filterMap_talk fun n quiet => (Note.nonces_of_quiet quiet).2.1]
    exact (dialogue id).prompts
  refine ⟨prompted, fun echoes => nodup_of_own (fun id => ?_) prompted⟩
  rw [← filterMap_talk fun n quiet => (Note.nonces_of_quiet quiet).2.1,
    ← filterMap_talk fun n quiet => (Note.nonces_of_quiet quiet).2.2]
  exact (dialogue id).submits (echoes.subset (List.filter_sublist.trans List.filter_sublist).subset)

section Twice

def shakenRecord (nonce : String) : SessionToken :=
  { token := some "t", account := some "a", nonce := some nonce }

def shakenSigned (nonce : String) : SignedMessage := { message := "m", nonce, signature := [] }

/-- A handshake, up to its submission. -/
def shaking (id : Nat) (nonce : String) : List Action :=
  [.start .handshake false, .answer id .account (.ok "a"), .answer id .issue (.ok (shakenRecord nonce)),
    .answer id .signMessage (.ok { success := true, result := some (shakenSigned nonce) }),
    .answer id .publicKey (.ok "k")]

/-- Two handshakes, one after the other. -/
def shakenTwice : World MemoryStore :=
  (ofSession (Session.create ⟨"", "", ""⟩ true (⟨none⟩ : MemoryStore))).steps
    (shaking 0 "n" ++ .answer 0 .verify (.ok { verified := true }) :: shaking 1 "o")

theorem shakenTwice_reachable : shakenTwice.Reachable := ⟨_, _, _, _, rfl⟩

theorem shakenTwice_talk : shakenTwice.log.filter Note.isTalk =
    signing 0 (shakenRecord "n") "n" (shakenSigned "n") ++
      [.answered 0 .publicKey (.ok "k"), .asked 0 (.verify ⟨shakenSigned "n", "k"⟩)] ++
    signing 1 (shakenRecord "o") "o" (shakenSigned "o") ++
      [.answered 1 .publicKey (.ok "k"), .asked 1 (.verify ⟨shakenSigned "o", "k"⟩)] := rfl

theorem shakenTwice_echoes : Echoes shakenTwice.log := by
  intro id payload options signed asked answered
  have asked := List.mem_filter.mpr ⟨asked, (rfl : Note.isTalk _ = true)⟩
  have answered := List.mem_filter.mpr ⟨answered, (rfl : Note.isTalk _ = true)⟩
  rw [shakenTwice_talk] at asked answered
  simp only [signing, prompt, List.cons_append, List.nil_append, List.mem_cons, reduceCtorEq,
    Note.asked.injEq, Note.answered.injEq, Request.signMessage.injEq, SignMessageResponse.mk.injEq,
    and_false, List.not_mem_nil, or_self, or_false, false_or, false_and, heq_eq_eq, Except.ok.injEq,
    Option.some.injEq, true_and] at asked answered
  rcases asked with ⟨rfl, rfl, _⟩ | ⟨rfl, rfl, _⟩
  · obtain rfl : signed = shakenSigned "n" := by simpa using answered
    rfl
  · obtain rfl : signed = shakenSigned "o" := by simpa using answered
    rfl

theorem twice_without_repeating :
    (shakenTwice.log.filterMap Note.issuedNonce?).Nodup ∧ Echoes shakenTwice.log ∧
      (shakenTwice.log.filterMap Note.promptedNonce?).Nodup ∧
        shakenTwice.log.filterMap Note.submittedNonce? = ["n", "o"] ∧
          (shakenTwice.log.filterMap Note.submittedNonce?).Nodup := by
  have issued : (shakenTwice.log.filterMap Note.issuedNonce?).Nodup := by decide
  obtain ⟨_, once⟩ := challenges_are_used_once shakenTwice_reachable
  obtain ⟨prompted, submitted⟩ := once issued
  exact ⟨issued, shakenTwice_echoes, prompted, rfl, submitted shakenTwice_echoes⟩

end Twice

end World

end WalletSession
