import WalletSession.Proofs.Session.Turn
import WalletSession.Proofs.Store.Lawful

/-! A session that shows itself as connected is in a phase that says so, holds a verified record, and
the store holds the same one. Every stretch of work keeps it so. -/
namespace WalletSession.Session

variable {σ : Type} [TokenStore σ] {s s' : Session σ} {call : Call} {occasion : Occasion}
  {result : Except AuthError Move}

/-- The phases in which a session may be connected. -/
def Shown (s : Session σ) : Prop :=
  s.state.connected = true → s.state.phase = .verified ∨ s.state.phase = .revalidating

omit [TokenStore σ] in
theorem Shown.apart (shown : s.Shown) {phase : Phase} (now : s.state.phase = phase)
    (other : phase ≠ .verified ∧ phase ≠ .revalidating) : s.state.connected = false := by
  subst now
  refine Bool.eq_false_iff.mpr fun connected => ?_
  exact (shown connected).elim other.1 other.2

/-- Whatever the store does, the edges that leave a connected session keep to these phases. -/
theorem Turn.shown (turn : Turn call s occasion result s') (shown : s.Shown) : s'.Shown := by
  have apart {session : Session σ} (apart : session.state.connected = false) : session.Shown :=
    fun connected => absurd connected (Bool.eq_false_iff.mp apart)
  cases turn with
  | boards | ready | asks | isUnready | returns | fails | prompts | isRefused | cannotCheck | overtaken
  | signs => exact shown
  | logsOut | forgetsFailing | forgets | startsOver | fallsBackFailing | fallsBackVainly
  | fallsBack | setsOut | lacksWallet | isUnanswered => exact apart rfl
  | revalidates => exact fun _ => .inr rfl
  | confirms => exact fun _ => .inl rfl
  | starts phase | submits phase | keepsChallenge phase | isRejected phase =>
    exact apart (shown.apart phase (by decide))
  | givesUp edge shakes => exact apart (shown.apart rfl (Await.shakes_apart edge shakes))
  | cannotKeep edge keeps =>
    cases keeps with
    | renewed => exact fun _ => .inl rfl
    | challenge | accepted | rejected =>
      exact apart (shown.apart (Option.some.inj edge).symm (by decide))

variable [LawfulStore σ]

structure Trusted (s : Session σ) : Prop where
  backed : s.state.token.IsBacked
  shown : s.Shown
  verified (connected : s.state.connected = true) : s.state.token.verified = true
  stored (connected : s.state.connected = true) :
    LawfulStore.record s.store = some (Wire.encode s.state.token)

theorem Trusted.create (chain : ChainConfig) (hasWallet : Bool) (store : σ) :
    (Session.create chain hasWallet store).Trusted :=
  ⟨LawfulStore.isBacked_load store, nofun, nofun, nofun⟩

section Updates

/-- Nothing is asked of a session that is not connected but a record that is backed. -/
theorem Trusted.disconnected (apart : s.state.connected = false)
    (backed : s.state.token.IsBacked) : s.Trusted :=
  ⟨backed, by simp [Shown, apart], by simp [apart], by simp [apart]⟩

theorem Trusted.forgotten (s : Session σ) : s.forgotten.Trusted :=
  .disconnected rfl SessionToken.isBacked_empty

theorem Trusted.inPhase (trusted : s.Trusted) {phase : Phase}
    (next : phase = .verified ∨ phase = .revalidating) : (s.inPhase phase).Trusted :=
  ⟨trusted.backed, fun _ => next, trusted.verified, trusted.stored⟩

theorem isBacked_kept {held token : SessionToken} {a : Await} {reply : Except AuthError a.Reply}
    {phase : Phase} (keeps : Keeps held a reply token phase) : token.IsBacked := by
  cases keeps with
  | challenge | accepted | rejected => exact SessionToken.isBacked_merge _ _
  | @renewed current answer =>
    -- Neither the claim nor what backs it depends on the nonce.
    exact SessionToken.isBacked_merge current answer

theorem verified_of_kept {held token : SessionToken} {a : Await} {reply : Except AuthError a.Reply}
    (keeps : Keeps held a reply token .verified) : token.verified = true := by
  cases keeps with
  | renewed valid | accepted valid => exact valid

end Updates

theorem Turn.trusted (turn : Turn call s occasion result s') (trusted : s.Trusted) :
    s'.Trusted := by
  cases turn with
  | boards | ready | asks | isUnready | returns | fails | prompts | isRefused | cannotCheck | overtaken
  | signs => exact trusted
  | logsOut | forgetsFailing | forgets | startsOver | fallsBackFailing | fallsBackVainly
  | fallsBack => exact .forgotten _
  | setsOut | lacksWallet | isUnanswered => exact .disconnected rfl trusted.backed
  | revalidates => exact trusted.inPhase (.inr rfl)
  | starts phase | submits phase =>
    exact .disconnected (trusted.shown.apart phase (by decide)) trusted.backed
  | givesUp edge shakes =>
    exact .disconnected (trusted.shown.apart rfl (Await.shakes_apart edge shakes)) trusted.backed
  | keepsChallenge phase =>
    exact .disconnected (trusted.shown.apart phase (by decide)) (SessionToken.isBacked_merge _ _)
  | confirms phase keeps saved =>
    exact ⟨isBacked_kept keeps, fun _ => .inl rfl, fun _ => verified_of_kept keeps,
      fun _ => LawfulStore.saves saved⟩
  | isRejected phase keeps =>
    exact .disconnected (trusted.shown.apart phase (by decide)) (isBacked_kept keeps)
  | cannotKeep edge keeps unsaved =>
    have same : LawfulStore.record (TokenStore.save s.store _).2 = _ := LawfulStore.refusesSave unsaved
    cases keeps with
    | renewed => exact ⟨trusted.backed, fun _ => .inl rfl, trusted.verified,
        fun connected => same.trans (trusted.stored connected)⟩
    | challenge | accepted | rejected =>
      exact .disconnected (trusted.shown.apart (Option.some.inj edge).symm (by decide)) trusted.backed

end WalletSession.Session
