import Mathlib.Data.List.Basic
import Mathlib.Data.List.Induction
import WalletSession.Proofs.Token

/-! What a series of answers makes of a record. To merge an answer is to lay it over the record and then
to drop a claim to be verified that nothing backs. What is dropped never shows through the next
answer, so a whole series can be laid over the record first and be normalized once: of each field the
last answer that gives it prevails, and the claim to be verified is the last answer's. -/
namespace WalletSession.SessionToken

variable {α : Type} {t a : SessionToken}

/-- An answer over a record, with its claim to be verified as it stands. -/
def overlay (t answer : SessionToken) : SessionToken where
  token := answer.token.or t.token
  account := answer.account.or t.account
  nonce := answer.nonce.or t.nonce
  verified := answer.verified
  createdAt := answer.createdAt.or t.createdAt

theorem merge_eq (t answer : SessionToken) : t.merge answer = (t.overlay answer).normalized := rfl

theorem normalized_eq (t : SessionToken) :
    t.normalized = { t with verified := t.verified && t.isPresent } := by
  obtain ⟨token, account, nonce, verified, createdAt⟩ := t
  cases verified <;> cases token <;> cases account <;> rfl

theorem overlay_normalized : t.normalized.overlay a = t.overlay a := by
  rw [normalized_eq]
  rfl

theorem merge_merge_self (t a : SessionToken) : (t.merge a).merge a = t.merge a := by
  have twice : (t.overlay a).overlay a = t.overlay a := by simp [overlay, ← Option.or_assoc]
  rw [merge_eq, merge_eq, overlay_normalized, twice]

/-- What answers make of a record, one after the other. -/
def mergeAll (t : SessionToken) (answers : List SessionToken) : SessionToken := answers.foldl merge t

theorem mergeAll_concat (t : SessionToken) (answers : List SessionToken) (last : SessionToken) :
    t.mergeAll (answers ++ [last]) = (t.mergeAll answers).merge last := by
  rw [mergeAll, List.foldl_concat, mergeAll]

/-- No normalization on the way leaves a trace beneath the next answer. -/
theorem overlay_mergeAll (t : SessionToken) (answers : List SessionToken) (last : SessionToken) :
    (t.mergeAll answers).overlay last = (answers.foldl overlay t).overlay last := by
  -- At the end of the series, where the next answer covers what normalizing the last one did.
  induction answers using List.reverseRecOn generalizing last with
  | nil => rfl
  | append_singleton answers a ih =>
    rw [mergeAll_concat, merge_eq, overlay_normalized, ih, List.foldl_concat]

/-- A series is laid over the record and normalized once. -/
theorem mergeAll_eq (t : SessionToken) (answers : List SessionToken) (last : SessionToken) :
    t.mergeAll (answers ++ [last]) = ((answers ++ [last]).foldl overlay t).normalized := by
  rw [mergeAll_concat, merge_eq, overlay_mergeAll, List.foldl_concat]

/-- What a series makes of a field: the last answer that gives it prevails, and if none does, the record
keeps its own. -/
inductive Prevails (field : SessionToken → Option α) (t : SessionToken) :
    List SessionToken → Option α → Prop
  | kept {answers : List SessionToken} (absent : ∀ answer ∈ answers, field answer = none) :
      Prevails field t answers (field t)
  | given {earlier later : List SessionToken} {answer : SessionToken} {x : α}
      (present : field answer = some x) (absent : ∀ answer ∈ later, field answer = none) :
      Prevails field t (earlier ++ answer :: later) (some x)

theorem Prevails.concat {field : SessionToken → Option α} {answers : List SessionToken}
    {value : Option α} (prevails : Prevails field t answers value) (last : SessionToken) :
    Prevails field t (answers ++ [last]) ((field last).or value) := by
  cases present : field last with
  | some x => exact .given present nofun
  | none =>
    rw [Option.none_or]
    have absent_concat {answers : List SessionToken}
        (absent : ∀ answer ∈ answers, field answer = none) :
        ∀ answer ∈ answers ++ [last], field answer = none := by
      intro answer member
      rcases List.mem_append.mp member with member | member
      · exact absent answer member
      · exact List.mem_singleton.mp member ▸ present
    cases prevails with
    | kept absent => exact .kept (absent_concat absent)
    | given given absent =>
      rw [List.append_assoc, List.cons_append]
      exact .given given (absent_concat absent)

theorem prevails_overlay {field : SessionToken → Option α}
    (laid : ∀ t answer, field (overlay t answer) = (field answer).or (field t)) (t : SessionToken)
    (answers : List SessionToken) : Prevails field t answers (field (answers.foldl overlay t)) := by
  induction answers using List.reverseRecOn with
  | nil => exact .kept nofun
  | append_singleton answers last ih =>
    rw [List.foldl_concat, laid]
    exact ih.concat last

theorem prevails_mergeAll {field : SessionToken → Option α}
    (laid : ∀ t answer, field (overlay t answer) = (field answer).or (field t))
    (kept : ∀ t, field (normalized t) = field t) (t : SessionToken) (earlier : List SessionToken)
    (last : SessionToken) :
    Prevails field t (earlier ++ [last]) (field (t.mergeAll (earlier ++ [last]))) := by
  rw [mergeAll_eq, kept]
  exact prevails_overlay laid t _

/-- After a series of answers each field has the last value that was given, the record is verified if the
last answer says so of a credential and an account, nothing is left to normalize, and the last answer
can be merged again without effect. -/
theorem last_answers_prevail (t : SessionToken) (earlier : List SessionToken) (last : SessionToken) :
    let answers := earlier ++ [last]
    let merged := t.mergeAll answers
    Prevails token t answers merged.token ∧ Prevails account t answers merged.account ∧
      Prevails nonce t answers merged.nonce ∧ Prevails createdAt t answers merged.createdAt ∧
      (merged.verified = true ↔
        last.verified = true ∧ merged.token.isSome = true ∧ merged.account.isSome = true) ∧
      merged.normalized = merged ∧ merged.merge last = merged := by
  intro answers merged
  have final : merged = (t.mergeAll earlier).merge last := mergeAll_concat t earlier last
  refine ⟨?_, ?_, ?_, ?_, ?_, ?_, ?_⟩
  · exact prevails_mergeAll (fun _ _ => rfl) (fun _ => by rw [normalized_eq]) t earlier last
  · exact prevails_mergeAll (fun _ _ => rfl) (fun _ => by rw [normalized_eq]) t earlier last
  · exact prevails_mergeAll (fun _ _ => rfl) (fun _ => by rw [normalized_eq]) t earlier last
  · exact prevails_mergeAll (fun _ _ => rfl) (fun _ => by rw [normalized_eq]) t earlier last
  · rw [final, verified_merge, isPresent, Bool.and_eq_true, Bool.and_eq_true]
  · rw [final, merge_eq, normalized_idem]
  · rw [final, merge_merge_self]

/-- A claim that comes too early is not made good by what comes after it. -/
example :
    (mergeAll {} [{ verified := true }, { token := some "t", account := some "a" }]).verified = false :=
  rfl

end WalletSession.SessionToken
