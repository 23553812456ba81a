import WalletSession.Proofs.Json.Numerals
import WalletSession.Proofs.Token

/-! Reading back the record of a session. Texts and marks always come back as they were written. When
the record was made comes back as the number that is read of it, which need not be the number that was
written. -/
namespace WalletSession

namespace Json

variable {α : Type} {v : Json} {a : α} {read : Reader α}

/-- The reader reads this of what is written of the value, at any depth. -/
def ReadsBack (read : Reader α) (v : Json) (a : α) : Prop :=
  ∃ ts tree, Written v.chars ts tree ∧ ∀ depth, read depth tree = some a

theorem readsBack_string (s : String) : ReadsBack Reader.string (.string s) s :=
  ⟨_, _, written_string s, fun _ => Piece.text?_pieces s⟩

theorem readsBack_bool (b : Bool) : ReadsBack Reader.bool (.bool b) b := by
  cases b <;> exact ⟨_, _, ⟨rfl, rfl⟩, fun _ => rfl⟩

theorem readsBack_some (present : ReadsBack read v a) (proper : ∀ depth, read depth .null = none) :
    ReadsBack (Reader.option read) v (some a) := by
  obtain ⟨ts, tree, written, reads⟩ := present
  refine ⟨ts, tree, written, fun depth => ?_⟩
  have other : tree ≠ .null := fun null => by simp [null, proper] at reads
  cases tree <;> simp_all [Reader.option]

/-- An absent value is written as null, which no text is. -/
theorem readsBack_text (o : Option String) :
    ReadsBack (Reader.option Reader.string) (ofOption .string o) o := by
  cases o with
  | none => exact ⟨_, _, ⟨rfl, rfl⟩, fun _ => rfl⟩
  | some s => exact readsBack_some (readsBack_string s) fun _ => rfl

theorem readsBack_echo {x y : Binary64} (echo : x.echo? = some y) :
    ReadsBack Reader.binary64 (.number (.real x)) y := by
  obtain ⟨tree, parsed, read⟩ := Option.bind_eq_some_iff.mp echo
  rw [String.toList_ofList] at parsed
  obtain ⟨ts, written⟩ := written_of_parse? parsed
  -- The reader of numbers does not look at the depth.
  exact ⟨ts, tree, written, fun _ => by cases tree <;> exact read⟩

/-- A number that is not finite is written as null too. -/
theorem readsBack_moment (o : Option Binary64) :
    ReadsBack (Reader.option Reader.binary64) (ofOption (fun x => .number (.real x)) o)
      (o.bind Binary64.echo?) := by
  cases o with
  | none => exact ⟨_, _, ⟨rfl, rfl⟩, fun _ => rfl⟩
  | some x =>
    rw [Option.bind_some]
    cases finite : x.isFinite with
    | true =>
      obtain ⟨y, echo, -⟩ := Binary64.echo?_isFinite finite
      exact echo ▸ readsBack_some (readsBack_echo echo) fun _ => rfl
    | false =>
      have null : x.jsonChars = ['n', 'u', 'l', 'l'] := by
        rw [Binary64.jsonChars, finite]
        rfl
      have echo : x.echo? = none := by
        rw [Binary64.echo?, null]
        decide +kernel
      rw [echo]
      exact ⟨[.null], .null, ⟨congrArg tokens? null, rfl⟩, fun _ => rfl⟩

end Json

namespace SessionToken

open Json

/-- The record as it is read from its own text. -/
def echoed (t : SessionToken) : SessionToken := { t with createdAt := t.createdAt.bind (·.echo?) }

/-- Of what is written for a record all comes back but for the number. -/
theorem decode?_encode (t : SessionToken) : Wire.decode? (Wire.encode t) = some t.echoed := by
  obtain ⟨_, token, token', readToken⟩ := readsBack_text t.token
  obtain ⟨_, account, account', readAccount⟩ := readsBack_text t.account
  obtain ⟨_, nonce, nonce', readNonce⟩ := readsBack_text t.nonce
  obtain ⟨_, verified, verified', readVerified⟩ := readsBack_bool t.verified
  obtain ⟨_, createdAt, createdAt', readCreatedAt⟩ := readsBack_moment t.createdAt
  have members : MembersWritten
      [("token", ofOption .string t.token), ("account", ofOption .string t.account),
        ("nonce", ofOption .string t.nonce), ("verified_token", .bool t.verified),
        ("created_at", ofOption (fun x => .number (.real x)) t.createdAt)] _ _ :=
    .more token' (.more account' (.more nonce' (.more verified' (.one createdAt'))))
  have text : (Wire.encode t).toList = (Json.object _).chars := String.toList_ofList
  rw [Wire.decode?, Reader.decode?, text, members.object.parse?, Option.bind_some]
  have filled : Reader.slots fields (.object [(pieces "token", token), (pieces "account", account),
      (pieces "nonce", nonce), (pieces "verified_token", verified),
      (pieces "created_at", createdAt)]) =
      some [some token, some account, some nonce, some verified, some createdAt] := by
    simp [Reader.slots, Reader.fillAll, Reader.fill, Reader.emptySlots, fields, List.findIdx?_cons]
  simp [Wire.read, SessionToken.read, nestingLimit, Reader.record, filled, Reader.optional,
    Reader.withDefault, readToken, readAccount, readNonce, readVerified, readCreatedAt, echoed]

theorem echoed_eq_iff {t : SessionToken} : t.echoed = t ↔ ∀ x ∈ t.createdAt, x.ReadsBack := by
  obtain ⟨token, account, nonce, verified, createdAt⟩ := t
  simp only [echoed, mk.injEq, true_and, Option.mem_def]
  cases createdAt with
  | none => simp
  | some x => simp [Binary64.ReadsBack, Binary64.echo?]

theorem ofRecord?_encode_eq (t : SessionToken) :
    ofRecord? (Wire.encode t) = some t.echoed.normalized := by
  rw [ofRecord?, decode?_encode, Option.map_some]

theorem normalized_of_isBacked {t : SessionToken} (backed : t.IsBacked) : t.normalized = t := by
  unfold normalized
  split
  next claims => simp_all [IsBacked]
  next => rfl

/-- A record that backs its claim is read back from where it is stored. -/
theorem ofRecord?_encode {t : SessionToken} (backed : t.IsBacked)
    (reads : ∀ x ∈ t.createdAt, x.ReadsBack) : ofRecord? (Wire.encode t) = some t := by
  rw [ofRecord?_encode_eq, echoed_eq_iff.mpr reads, normalized_of_isBacked backed]

end SessionToken

end WalletSession
