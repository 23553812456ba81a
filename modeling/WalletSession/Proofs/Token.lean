import WalletSession.Store.Basic

/-! What merging makes of a record: it never claims to be verified without something to verify, and
it claims so only if the answer does. -/
namespace WalletSession.SessionToken

/-- Whoever claims to be verified has something to verify. -/
def IsBacked (t : SessionToken) : Prop := t.verified = true → t.isPresent = true

theorem isBacked_empty : IsBacked {} := nofun

theorem isBacked_normalized (t : SessionToken) : t.normalized.IsBacked :=
  isPresent_of_verified_normalized t

theorem isBacked_merge (t answer : SessionToken) : (t.merge answer).IsBacked :=
  isBacked_normalized _

theorem isBacked_ofRecord? {raw : String} {t : SessionToken} (held : ofRecord? raw = some t) :
    t.IsBacked := by
  unfold ofRecord? at held
  obtain ⟨_, _, rfl⟩ := Option.map_eq_some_iff.mp held
  exact isBacked_normalized _

variable {t answer : SessionToken}

@[simp] theorem merge_account : (t.merge answer).account = answer.account.or t.account := by
  unfold merge normalized
  split <;> rfl

@[simp] theorem merge_token : (t.merge answer).token = answer.token.or t.token := by
  unfold merge normalized
  split <;> rfl

/-- A merged record is verified if the answer says so and there is something to verify. -/
theorem verified_merge :
    (t.merge answer).verified = (answer.verified && (t.merge answer).isPresent) := by
  rw [isPresent, merge_token, merge_account]
  unfold merge normalized isPresent
  cases answer.verified <;> cases answer.token.or t.token <;> cases answer.account.or t.account <;> rfl

theorem verified_of_merge (verified : (t.merge answer).verified = true) :
    answer.verified = true := by
  rw [verified_merge, Bool.and_eq_true] at verified
  exact verified.1

theorem verified_of_answer (present : t.isPresent = true) (verified : answer.verified = true) :
    (t.merge answer).verified = true := by
  have both : t.token.isSome = true ∧ t.account.isSome = true := by simpa [isPresent] using present
  simp [verified_merge, isPresent, both, verified]

/-- A challenge for an account is a record that can be verified. -/
theorem isPresent_of_issued (account : String) (given : answer.token.isSome = true) :
    ((withAccount account).merge answer).isPresent = true := by
  simp [isPresent, withAccount, given]

end WalletSession.SessionToken
