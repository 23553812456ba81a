import WalletSession.Proofs.Json.Members
import WalletSession.Proofs.Json.Record
import WalletSession.Proofs.Store.Corrupt

/-! A session that was saved is the session that is loaded, if the number in its record is read back. A
record is read from any text that gives its fields, and what is read can be written and read again, but
the number may be another one then. -/
namespace WalletSession

namespace SessionToken

open Json

variable {t : SessionToken} {depth : ℕ} {ms : List (List Piece × Tree)}

open Reader in
/-- The members give the fields of a record, each once or not at all. The claim to be verified has two
names, and members of other names do not count. -/
structure GivenBy (depth : ℕ) (ms : List (List Piece × Tree)) (t : SessionToken) : Prop where
  names : ∀ m ∈ ms, (Piece.text? m.1).isSome = true
  token : Gives (optional string depth) (given ["token"] ms) t.token
  account : Gives (optional string depth) (given ["account"] ms) t.account
  nonce : Gives (optional string depth) (given ["nonce"] ms) t.nonce
  verified : Gives (withDefault false bool depth) (given ["verified_token", "verified"] ms) t.verified
  createdAt : Gives (optional binary64 depth) (given ["created_at"] ms) t.createdAt

open Reader in
/-- A record is read field by field from what is written for each. -/
theorem read_eq_some_iff {tree : Tree} : SessionToken.read (depth + 1) tree = some t ↔
    ∃ token account nonce verified createdAt : Option Tree,
      slots fields tree = some [token, account, nonce, verified, createdAt] ∧
      optional string depth token = some t.token ∧ optional string depth account = some t.account ∧
      optional string depth nonce = some t.nonce ∧
      withDefault false bool depth verified = some t.verified ∧
      optional binary64 depth createdAt = some t.createdAt := by
  rw [SessionToken.read, record, Option.bind_eq_some_iff]
  constructor
  · rintro ⟨final, filled, built⟩
    split at built
    next token account nonce verified createdAt =>
      simp only [bind, Option.bind_eq_some_iff, Option.some.injEq] at built
      obtain ⟨_, token', _, account', _, nonce', _, verified', _, createdAt', rfl⟩ := built
      exact ⟨token, account, nonce, verified, createdAt, filled, token', account', nonce', verified',
        createdAt'⟩
    next => contradiction
  · rintro ⟨token, account, nonce, verified, createdAt, filled, token', account', nonce', verified',
      createdAt'⟩
    refine ⟨_, filled, ?_⟩
    simp only [bind, Option.bind_eq_some_iff, Option.some.injEq]
    exact ⟨_, token', _, account', _, nonce', _, verified', _, createdAt', rfl⟩

theorem read_object_iff :
    SessionToken.read (depth + 1) (.object ms) = some t ↔ t.GivenBy depth ms := by
  rw [read_eq_some_iff]
  simp only [Reader.slots_object_eq_some_iff (show fields.flatten.Nodup by decide)]
  constructor
  · rintro ⟨_, _, _, _, _, ⟨names, values⟩, token', account', nonce', verified', createdAt'⟩
    simp only [fields, List.map_cons, List.map_nil, List.cons.injEq, and_true] at values
    obtain ⟨token, account, nonce, verified, createdAt⟩ := values
    exact ⟨names, ⟨_, token, token'⟩, ⟨_, account, account'⟩, ⟨_, nonce, nonce'⟩,
      ⟨_, verified, verified'⟩, ⟨_, createdAt, createdAt'⟩⟩
  · rintro ⟨names, ⟨_, token, token'⟩, ⟨_, account, account'⟩, ⟨_, nonce, nonce'⟩,
      ⟨_, verified, verified'⟩, ⟨_, createdAt, createdAt'⟩⟩
    refine ⟨_, _, _, _, _, ⟨names, ?_⟩, token', account', nonce', verified', createdAt'⟩
    simp [fields, token, account, nonce, verified, createdAt]

/-- When a record was made is a finite number, if it was read. -/
theorem isFinite_of_read {tree : Tree} (read : SessionToken.read depth tree = some t) :
    ∀ x ∈ t.createdAt, x.isFinite = true := by
  intro x held
  cases depth with
  | zero => contradiction
  | succ depth =>
    obtain ⟨_, _, _, _, _, -, -, -, -, -, createdAt⟩ := read_eq_some_iff.mp read
    obtain ⟨_, value⟩ := Reader.read_of_optional (createdAt.trans (congrArg some held))
    exact isFinite_of_binary64 value

theorem isFinite_of_decode? {text : String} (decoded : Wire.decode? text = some t) :
    ∀ x ∈ t.createdAt, x.isFinite = true := by
  obtain ⟨tree, -, read⟩ := Option.bind_eq_some_iff.mp decoded
  exact isFinite_of_read read

/-- The number is never lost. -/
theorem isSome_echoed (finite : ∀ x ∈ t.createdAt, x.isFinite = true) :
    t.echoed.createdAt.isSome = t.createdAt.isSome := by
  change (t.createdAt.bind (·.echo?)).isSome = t.createdAt.isSome
  cases held : t.createdAt with
  | none => rfl
  | some x =>
    obtain ⟨y, echo, -⟩ := Binary64.echo?_isFinite (finite x held)
    rw [Option.bind_some, echo]
    rfl

theorem chars_createdAt {token account nonce verified v v' : Json}
    (same : (Json.object [("token", token), ("account", account), ("nonce", nonce),
        ("verified_token", verified), ("created_at", v)]).chars =
      (Json.object [("token", token), ("account", account), ("nonce", nonce),
        ("verified_token", verified), ("created_at", v')]).chars) : v.chars = v'.chars := by
  simpa [Json.chars, Json.memberChars] using same

/-- Another number has another text. -/
theorem encode_echoed_eq_iff (finite : ∀ x ∈ t.createdAt, x.isFinite = true) :
    Wire.encode t.echoed = Wire.encode t ↔ t.echoed = t := by
  refine ⟨fun same => ?_, congrArg _⟩
  obtain ⟨token, account, nonce, verified, createdAt⟩ := t
  cases createdAt with
  | none => rfl
  | some x =>
    obtain ⟨y, echo, finite'⟩ := Binary64.echo?_isFinite (finite x rfl)
    rw [echoed, Option.bind_some, echo] at same ⊢
    have texts : y.jsonChars = x.jsonChars := chars_createdAt (String.ofList_injective same)
    rw [(Binary64.jsonChars_inj finite' (finite x rfl)).mp texts]

theorem isBacked_echoed (backed : t.IsBacked) : t.echoed.IsBacked := backed

end SessionToken

open Json

/-- A saved session is loaded as it was saved, but for a claim to be verified that nothing backs, and
its text stays as it is, if its number is read back. What any text is read as can be written and read
again, and is the same then, with the same text, exactly if its number is read back. An object is read
from the values that it gives for the fields, whatever else it holds. -/
theorem saved_sessions_read_back (t : SessionToken) :
    ((∀ x ∈ t.createdAt, x.ReadsBack) →
      Wire.decode? (Wire.encode t) = some t ∧
      (∀ s : MemoryStore, ∃ s', TokenStore.save s t = (.ok (), s') ∧ s'.raw = some (Wire.encode t) ∧
        TokenStore.load s' = (t.normalized, s')) ∧
      ∀ s : FileStore, (s.Serves → ∃ s', TokenStore.save s t = (.ok (), s')) ∧
        ∀ s', TokenStore.save s t = (.ok (), s') →
          s'.Holds (some (Wire.encode t)) ∧ TokenStore.load s' = (t.normalized, s')) ∧
    (∀ text, Wire.decode? text = some t →
      (Wire.decode? (Wire.encode t) = some t.echoed ∧
        t.echoed.createdAt.isSome = t.createdAt.isSome) ∧
      (Wire.decode? (Wire.encode t) = some t ↔ ∀ x ∈ t.createdAt, x.ReadsBack) ∧
      ((Wire.decode? (Wire.encode t)).map (Wire.encode (α := SessionToken)) = some (Wire.encode t) ↔
        ∀ x ∈ t.createdAt, x.ReadsBack)) ∧
    (∀ text, SessionToken.ofRecord? text = some t →
      (SessionToken.ofRecord? (Wire.encode t) = some t ↔ ∀ x ∈ t.createdAt, x.ReadsBack)) ∧
    ∀ text ms, Tree.parse? text.toList = some (.object ms) →
      (Wire.decode? text = some t ↔ t.GivenBy (nestingLimit - 1) ms) := by
  refine ⟨fun reads => ?_, fun text decoded => ?_, fun text recorded => ?_, fun text ms parsed => ?_⟩
  · have same := SessionToken.echoed_eq_iff.mpr reads
    have recorded : SessionToken.ofRecord? (Wire.encode t) = some t.normalized := by
      rw [SessionToken.ofRecord?_encode_eq, same]
    refine ⟨by rw [SessionToken.decode?_encode, same],
      fun s => ⟨⟨some (Wire.encode t)⟩, rfl, rfl, MemoryStore.load_of_record recorded⟩,
      fun s => ⟨fun serves => ⟨(TokenStore.save s t).2, ?_⟩, fun s' saved => ?_⟩⟩
    · rw [← (serves.saved t).1]
    · have held := FileStore.holds_of_save saved
      exact ⟨held, FileStore.load_of_record held recorded⟩
  · have finite := SessionToken.isFinite_of_decode? decoded
    have again := SessionToken.decode?_encode t
    refine ⟨⟨again, SessionToken.isSome_echoed finite⟩, ?_, ?_⟩
    · rw [again, Option.some.injEq, SessionToken.echoed_eq_iff]
    · rw [again, Option.map_some, Option.some.injEq, SessionToken.encode_echoed_eq_iff finite,
        SessionToken.echoed_eq_iff]
  · have backed := SessionToken.isBacked_ofRecord? recorded
    rw [SessionToken.ofRecord?_encode_eq, SessionToken.normalized_of_isBacked
      (SessionToken.isBacked_echoed backed), Option.some.injEq, SessionToken.echoed_eq_iff]
  · rw [Wire.decode?, Reader.decode?, parsed, Option.bind_some]
    exact SessionToken.read_object_iff

/-- The claim goes by its other name, a name and two strings are escaped, and a member is unknown. -/
theorem odd_text_reads_back :
    let text := "\x7b \"x\": [1e999], \"verified\": true, \"\\u0061ccount\": \"0\\ud83d\\ude00\"," ++
      "\"created_at\": 1700000000, \"token\": \"\\\"\\u0001\" \x7d"
    let t : SessionToken :=
      { token := some "\"\x01", account := some "0😀", verified := true,
        createdAt := some (.ofNat 1700000000) }
    Wire.decode? text = some t ∧ Wire.decode? (Wire.encode t) = some t ∧
      ∃ s', TokenStore.save ({} : MemoryStore) t = (.ok (), s') ∧ s'.raw = some (Wire.encode t) ∧
        TokenStore.load s' = (t.normalized, s') := by
  intro text t
  have decoded : Wire.decode? text = some t := by decide +kernel
  have reads : ∀ x ∈ t.createdAt, x.ReadsBack := by decide +kernel
  obtain ⟨stored, read, -⟩ := saved_sessions_read_back t
  exact ⟨decoded, (read text decoded).2.1.mpr reads, (stored reads).2.1 {}⟩

/-- Seventeen digits make an integer that is no binary number, and so they are rounded before they are
divided. The number that is read here shows itself as 1633737858.0411441, and that is read as the number
below it, whose text is 1633737858.041144. -/
theorem moment_is_not_read_back :
    ¬ ∀ text (t : SessionToken), Wire.decode? text = some t →
      Wire.decode? (Wire.encode t) = some t ∧
      (Wire.decode? (Wire.encode t)).map (Wire.encode (α := SessionToken)) = some (Wire.encode t) := by
  intro always
  have decoded : Wire.decode? "\x7b\"created_at\":1633737858.0411442\x7d" =
      some ({ createdAt := some ⟨4744639201226695195⟩ } : SessionToken) := by
    decide +kernel
  exact absurd (always _ _ decoded).1 (by decide +kernel)

end WalletSession
