import WalletSession.Config
import WalletSession.Proofs.Text.Digits
import WalletSession.Proofs.Text.Quoted
import WalletSession.Proofs.Text.Trimmed
import WalletSession.Proofs.Text.Utf8

/-! What an environment configures. Each required variable is a text without the white space around it,
each timeout a number in decimal digits or its default. An environment that gives no configuration
fails with the first of its variables that is missing, and if none is, with the first timeout that is
no number. -/
namespace WalletSession

open Text

namespace Environment

variable {env : Environment} {name raw value s : String} {e e' : AuthError} {n default : ℕ}

section Required

/-- The variable is set to a text that is more than white space. -/
def IsGiven (env : Environment) (name : String) : Prop :=
  ∃ raw, env.text? name = some raw ∧ ∃ c ∈ raw.toList, isBlank c = false

/-- The variable is set to this text with white space around it. -/
def Holds (env : Environment) (name value : String) : Prop :=
  ∃ raw, env.text? name = some raw ∧ Padded value raw ∧ IsTrimmed value ∧ value ≠ ""

theorem required_eq_ok_iff : env.required name = .ok value ↔ env.Holds name value := by
  constructor
  · intro read
    unfold required at read
    split at read
    · next raw set =>
      split at read
      · contradiction
      · next filled =>
        cases read
        exact ⟨raw, set, padded_trim raw, isTrimmed_trim raw, filled⟩
    · contradiction
  · rintro ⟨raw, set, padded, trimmed, filled⟩
    have same : trim raw = value := trim_eq_iff.mpr ⟨padded, trimmed⟩
    simp only [required, set, same, if_neg filled]

theorem isGiven_iff : env.IsGiven name ↔ ∃ value, env.Holds name value := by
  constructor
  · rintro ⟨raw, set, c, member, solid⟩
    refine ⟨trim raw, raw, set, padded_trim raw, isTrimmed_trim raw, fun empty => ?_⟩
    have blank := trim_eq_empty_iff.mp empty c member
    simp [solid] at blank
  · rintro ⟨value, raw, set, padded, trimmed, filled⟩
    refine ⟨raw, set, ?_⟩
    by_contra none
    have gap : IsGap raw := by simpa [IsGap] using none
    exact filled ((trim_eq_iff.mpr ⟨padded, trimmed⟩).symm.trans (trim_eq_empty_iff.mpr gap))

theorem Holds.isGiven (holds : env.Holds name value) : env.IsGiven name :=
  isGiven_iff.mpr ⟨value, holds⟩

/-- There is no other way to fail. -/
theorem required_eq_error_iff :
    env.required name = .error e ↔ ¬ env.IsGiven name ∧ e = .missingConfig name := by
  have told : ∀ e, env.required name = .error e → e = .missingConfig name := by
    intro e failed
    unfold required at failed
    split at failed
    · split at failed
      · exact (Except.error.inj failed).symm
      · contradiction
    · exact (Except.error.inj failed).symm
  rw [isGiven_iff]
  simp only [← required_eq_ok_iff]
  cases result : env.required name with
  | error e' =>
    rw [told e' result]
    simp [eq_comm]
  | ok value => simp

end Required

section Seconds

/-- Decimal digits, with a plus sign before them or without one, that write a number of 64 bits. -/
def Numeral (s : String) (n : ℕ) : Prop :=
  ∃ digits, (s.toList = digits ∨ s.toList = '+' :: digits) ∧ digits ≠ [] ∧
    (∀ c ∈ digits, c.isDigit = true) ∧ Nat.ofDigitChars 10 digits 0 = n ∧ n < UInt64.size

theorem Numeral.isTrimmed (numeral : Numeral s n) : IsTrimmed s := by
  obtain ⟨digits, signed, -, all, -, -⟩ := numeral
  apply isTrimmed_of_solid
  intro c member
  rcases signed with unsigned | signed
  · exact isBlank_of_isDigit (all c (unsigned ▸ member))
  · rw [signed] at member
    rcases List.mem_cons.mp member with rfl | member
    · decide
    · exact isBlank_of_isDigit (all c member)

theorem wholeNumber?_eq_some_iff : wholeNumber? s.toList = some n ↔ Numeral s n := by
  have read (digits : List Char) :
      (if isWholeNumber digits && digitsValue digits < Nat.pow 2 64 then some (digitsValue digits)
        else none) = some n ↔
      digits ≠ [] ∧ (∀ c ∈ digits, c.isDigit = true) ∧ Nat.ofDigitChars 10 digits 0 = n ∧
        n < UInt64.size := by
    rw [Option.ite_none_right_eq_some, Bool.and_eq_true, isWholeNumber_iff, decide_eq_true_iff,
      Option.some.injEq, and_assoc, and_assoc]
    change _ ∧ _ ∧ Nat.ofDigitChars 10 digits 0 < UInt64.size ∧ Nat.ofDigitChars 10 digits 0 = n ↔ _
    constructor
    · rintro ⟨some, all, small, rfl⟩
      exact ⟨some, all, rfl, small⟩
    · rintro ⟨some, all, rfl, small⟩
      exact ⟨some, all, small, rfl⟩
  unfold wholeNumber?
  -- A plus sign is no digit, so only one of the two ways of writing is possible.
  split
  · next rest signed =>
    rw [read]
    constructor
    · intro whole
      exact ⟨rest, .inr signed, whole⟩
    · rintro ⟨digits, same | same, some, all, value⟩
      · have digit : '+'.isDigit = true := all '+' (by rw [← same, signed]; exact List.mem_cons_self)
        contradiction
      · obtain rfl : rest = digits := (List.cons.inj (signed.symm.trans same)).2
        exact ⟨some, all, value⟩
  · next unsigned =>
    rw [read]
    constructor
    · intro whole
      exact ⟨s.toList, .inl rfl, whole⟩
    · rintro ⟨digits, same | same, whole⟩
      · rwa [same]
      · exact absurd same (unsigned digits)

/-- The text is a number with white space around it. -/
def Writes (raw : String) (n : ℕ) : Prop := ∃ numeral, Padded numeral raw ∧ Numeral numeral n

theorem wholeNumber?_trimChars : wholeNumber? (trimChars raw.toList) = some n ↔ Writes raw n := by
  have text : trimChars raw.toList = (trim raw).toList := String.toList_ofList.symm
  rw [text, wholeNumber?_eq_some_iff]
  constructor
  · intro numeral
    exact ⟨trim raw, padded_trim raw, numeral⟩
  · rintro ⟨core, padded, numeral⟩
    rwa [trim_eq_iff.mpr ⟨padded, numeral.isTrimmed⟩]

/-- If the variable is set, it is set to a number. -/
def IsSound (env : Environment) (name : String) : Prop :=
  ∀ raw, env.text? name = some raw → ∃ n, Writes raw n

/-- The variable is set to this number, or it is not set and this is the default. -/
def Sets (env : Environment) (name : String) (default n : ℕ) : Prop :=
  env.text? name = none ∧ n = default ∨ ∃ raw, env.text? name = some raw ∧ Writes raw n

theorem Sets.isSound (sets : env.Sets name default n) : env.IsSound name := by
  intro raw set
  rcases sets with ⟨unset, -⟩ | ⟨raw', set', writes⟩
  · simp [unset] at set
  · obtain rfl : raw = raw' := Option.some.inj (set.symm.trans set')
    exact ⟨n, writes⟩

def complaint (name raw : String) : String :=
  name ++ " must be a whole number of seconds, got " ++ quoted raw

theorem complaint_injective (name : String) : Function.Injective (complaint name) := by
  intro raw raw' same
  have ends := congrArg String.toList same
  simp only [complaint, String.toList_append] at ends
  exact quoted_injective (String.toList_injective (List.append_cancel_left ends))

theorem seconds_eq_ok_iff : env.seconds name default = .ok n ↔ env.Sets name default n := by
  unfold seconds Sets
  cases env.text? name with
  | none => simp [eq_comm]
  | some raw =>
    simp only [← wholeNumber?_trimChars]
    cases read : wholeNumber? (trimChars raw.toList) with
    | none => simp [read]
    | some m => simp [read]

theorem seconds_eq_error_iff :
    env.seconds name default = .error e ↔
      ∃ raw, env.text? name = some raw ∧ (¬ ∃ n, Writes raw n) ∧ e = .configParse (complaint name raw) := by
  unfold seconds
  cases env.text? name with
  | none => simp
  | some raw =>
    simp only [← wholeNumber?_trimChars]
    cases read : wholeNumber? (trimChars raw.toList) with
    | none => simp [read, complaint, eq_comm]
    | some m => simp [read]

end Seconds

section Order

variable {p : String → Prop} {names : List String} {other : String}

/-- The first of some names that has a property. -/
inductive First (p : String → Prop) : String → List String → Prop
  | here {name : String} {names : List String} (holds : p name) : First p name (name :: names)
  | later {name other : String} {names : List String} (fails : ¬ p other)
      (first : First p name names) : First p name (other :: names)

theorem First.not_all (first : First (¬ p ·) name names) : ¬ ∀ name ∈ names, p name := by
  intro all
  induction first with
  | here fails => exact fails (all _ List.mem_cons_self)
  | later _ _ ih => exact ih fun name member => all name (List.mem_cons_of_mem _ member)

theorem First.mem (first : First p name names) : name ∈ names := by
  induction first with
  | here => exact List.mem_cons_self
  | later _ _ ih => exact List.mem_cons_of_mem _ ih

theorem First.unique (first : First p name names) (first' : First p other names) :
    name = other := by
  induction first with
  | here holds =>
    cases first' with
    | here => rfl
    | later fails => exact absurd holds fails
  | later fails _ ih =>
    cases first' with
    | here holds => exact absurd holds fails
    | later _ first' => exact ih first'

end Order

def requiredNames : List String := ["LUMIO_RPC_URL", "LUMIO_CHAIN_ID", "VIBE_BALANCE_CONTRACT"]

def timeoutNames : List String :=
  ["WALLET_AUTH_REQUEST_TIMEOUT_SECS", "WALLET_AUTH_CONNECT_TIMEOUT_SECS"]

/-- The names of the timeouts differ in their thirteenth letter. -/
theorem complaint_name_inj {name other raw raw' : String} (timeout : name ∈ timeoutNames)
    (timeout' : other ∈ timeoutNames) (same : complaint name raw = complaint other raw') :
    name = other := by
  have letter : ∀ name ∈ timeoutNames, ∀ raw, (complaint name raw).toList[12]? = name.toList[12]? := by
    intro name timeout raw
    have long : ∀ name ∈ timeoutNames, 12 < name.toList.length := by decide
    rw [complaint, String.toList_append, String.toList_append, List.append_assoc,
      List.getElem?_append_left (long name timeout)]
  have differ : ∀ name ∈ timeoutNames, ∀ other ∈ timeoutNames, name.toList[12]? = other.toList[12]? →
    name = other := by decide
  refine differ name timeout other timeout' ?_
  calc name.toList[12]? = (complaint name raw).toList[12]? := (letter name timeout raw).symm
    _ = (complaint other raw').toList[12]? := by rw [same]
    _ = other.toList[12]? := letter other timeout' raw'

/-- All that is required is there, and the timeouts are numbers. -/
def IsComplete (env : Environment) : Prop :=
  (∀ name ∈ requiredNames, env.IsGiven name) ∧ ∀ name ∈ timeoutNames, env.IsSound name

/-- The error of an environment that gives no configuration. -/
inductive FailsWith (env : Environment) : AuthError → Prop
  | missing {name : String} (first : First (¬ env.IsGiven ·) name requiredNames) :
      FailsWith env (.missingConfig name)
  | malformed {name raw : String} (given : ∀ name ∈ requiredNames, env.IsGiven name)
      (first : First (¬ env.IsSound ·) name timeoutNames) (set : env.text? name = some raw) :
      FailsWith env (.configParse (complaint name raw))

/-- The configuration that an environment gives. -/
structure Describes (env : Environment) (c : AuthConfig) : Prop where
  baseUrl : c.baseUrl =
    dropSlashes ((env.text? "WALLET_AUTH_BASE_URL").getD "http://127.0.0.1:3000")
  rpcUrl : ∃ url, env.Holds "LUMIO_RPC_URL" url ∧ c.chain.rpcUrl = dropSlashes url
  chainId : env.Holds "LUMIO_CHAIN_ID" c.chain.chainId
  contractAddress : env.Holds "VIBE_BALANCE_CONTRACT" c.chain.contractAddress
  storageDir : c.storageDir = (env.text? "WALLET_AUTH_STORAGE_DIR").getD "."
  requestSecs : env.Sets "WALLET_AUTH_REQUEST_TIMEOUT_SECS" 30 c.timeouts.requestSecs
  connectSecs : env.Sets "WALLET_AUTH_CONNECT_TIMEOUT_SECS" 10 c.timeouts.connectSecs

theorem Describes.isComplete {c : AuthConfig} (describes : env.Describes c) : env.IsComplete := by
  obtain ⟨_, rpcUrl, -⟩ := describes.rpcUrl
  simp only [IsComplete, requiredNames, timeoutNames, List.forall_mem_cons]
  exact ⟨⟨rpcUrl.isGiven, describes.chainId.isGiven, describes.contractAddress.isGiven, nofun⟩,
    describes.requestSecs.isSound, describes.connectSecs.isSound, nofun⟩

theorem FailsWith.not_isComplete (fails : env.FailsWith e) : ¬ env.IsComplete := by
  rintro ⟨given, sound⟩
  cases fails with
  | missing first => exact first.not_all given
  | malformed _ first => exact first.not_all sound

theorem FailsWith.unique (fails : env.FailsWith e) (fails' : env.FailsWith e') : e = e' := by
  cases fails with
  | missing first =>
    cases fails' with
    | missing first' => rw [first.unique first']
    | malformed given => exact absurd given first.not_all
  | malformed given first set =>
    cases fails' with
    | missing first' => exact absurd given first'.not_all
    | malformed _ first' set' =>
      obtain rfl := first.unique first'
      rw [Option.some.inj (set.symm.trans set')]

section Reading

variable {ε α β : Type} {x : Except ε α} {f : α → Except ε β}

theorem bind_eq_ok_iff {b : β} : x >>= f = .ok b ↔ ∃ a, x = .ok a ∧ f a = .ok b := by
  cases x <;> simp [bind, Except.bind]

theorem bind_eq_error_iff {failure : ε} :
    x >>= f = .error failure ↔ x = .error failure ∨ ∃ a, x = .ok a ∧ f a = .error failure := by
  cases x <;> simp [bind, Except.bind]

theorem ofEnvironment_eq_ok_iff {c : AuthConfig} :
    AuthConfig.ofEnvironment env = .ok c ↔ env.Describes c := by
  simp only [AuthConfig.ofEnvironment, bind_eq_ok_iff, required_eq_ok_iff, seconds_eq_ok_iff]
  constructor
  · rintro ⟨url, rpcUrl, chainId, chain, contractAddress, contract, requestSecs, request, connectSecs,
      connect, ⟨⟩⟩
    exact ⟨rfl, ⟨url, rpcUrl, rfl⟩, chain, contract, rfl, request, connect⟩
  · obtain ⟨baseUrl, ⟨rpcUrl, chainId, contractAddress⟩, storageDir, ⟨requestSecs, connectSecs⟩⟩ := c
    rintro ⟨base, ⟨url, rpc, dropped⟩, chain, contract, storage, request, connect⟩
    refine ⟨url, rpc, chainId, chain, contractAddress, contract, requestSecs, request, connectSecs,
      connect, ?_⟩
    cases base
    cases dropped
    cases storage
    rfl

theorem failsWith_of_error (failed : AuthConfig.ofEnvironment env = .error e) : env.FailsWith e := by
  simp only [AuthConfig.ofEnvironment, bind_eq_error_iff, required_eq_error_iff, seconds_eq_error_iff,
    required_eq_ok_iff, seconds_eq_ok_iff] at failed
  rcases failed with ⟨missing, rfl⟩ | ⟨_, rpcUrl, ⟨missing, rfl⟩ | ⟨_, chain, ⟨missing, rfl⟩ |
    ⟨_, contract, failed⟩⟩⟩
  · exact .missing (.here missing)
  · exact .missing (.later (not_not_intro rpcUrl.isGiven) (.here missing))
  · exact .missing
      (.later (not_not_intro rpcUrl.isGiven) (.later (not_not_intro chain.isGiven) (.here missing)))
  · have given : ∀ name ∈ requiredNames, env.IsGiven name := by
      simp only [requiredNames, List.forall_mem_cons]
      exact ⟨rpcUrl.isGiven, chain.isGiven, contract.isGiven, nofun⟩
    rcases failed with ⟨raw, set, malformed, rfl⟩ | ⟨_, request, ⟨raw, set, malformed, rfl⟩ | ⟨_, -, ⟨⟩⟩⟩
    · exact .malformed given (.here fun sound => malformed (sound raw set)) set
    · exact .malformed given
        (.later (not_not_intro request.isSound) (.here fun sound => malformed (sound raw set))) set

end Reading

/-- An environment gives a configuration if and only if it is complete; the configuration and the error
are those of the environment. -/
theorem ofEnvironment_outcome (env : Environment) :
    ((∃ c, AuthConfig.ofEnvironment env = .ok c) ↔ env.IsComplete) ∧
      (∀ e, AuthConfig.ofEnvironment env = .error e ↔ env.FailsWith e) ∧
      ∀ c, AuthConfig.ofEnvironment env = .ok c ↔ env.Describes c := by
  refine ⟨⟨?_, ?_⟩, fun e => ⟨failsWith_of_error, ?_⟩, fun c => ofEnvironment_eq_ok_iff⟩
  · rintro ⟨c, accepted⟩
    exact (ofEnvironment_eq_ok_iff.mp accepted).isComplete
  · intro complete
    cases result : AuthConfig.ofEnvironment env with
    | error e => exact absurd complete (failsWith_of_error result).not_isComplete
    | ok c => exact ⟨c, rfl⟩
  · intro fails
    cases result : AuthConfig.ofEnvironment env with
    | error e' => rw [fails.unique (failsWith_of_error result)]
    | ok c => exact absurd (ofEnvironment_eq_ok_iff.mp result).isComplete fails.not_isComplete

/-- The message about a timeout tells which variable it is and what it is set to. -/
theorem text_of_complaint (timeout : name ∈ timeoutNames)
    (failed : AuthConfig.ofEnvironment env = .error (.configParse (complaint name raw))) :
    env.text? name = some raw := by
  generalize shown : complaint name raw = message at failed
  cases failsWith_of_error failed with
  | malformed _ first set =>
    obtain rfl := complaint_name_inj timeout first.mem shown
    rwa [complaint_injective _ shown]

/-- An environment that sets these variables and no others. -/
def ofTexts (texts : List (String × String)) : Environment :=
  fun name => (texts.lookup name).map String.toUTF8

theorem text?_ofTexts (texts : List (String × String)) (name : String) :
    (ofTexts texts).text? name = texts.lookup name := by
  unfold text? ofTexts
  cases texts.lookup name with
  | none => rfl
  | some text => exact Utf8.fromUTF8?_toUTF8 text

/-- Quotes, a line break and a space that has no width are written with backslashes. -/
theorem ofEnvironment_shows_malformed :
    AuthConfig.ofEnvironment (.ofTexts [("LUMIO_RPC_URL", "x"), ("LUMIO_CHAIN_ID", "2"),
      ("VIBE_BALANCE_CONTRACT", "0xcafe"), ("WALLET_AUTH_REQUEST_TIMEOUT_SECS", "a \"while\"\n\u200b")]) =
      .error (.configParse ("WALLET_AUTH_REQUEST_TIMEOUT_SECS must be a whole number of seconds, got " ++
        "\"a \\\"while\\\"\\n\\u\x7b200b\x7d\"")) := by
  have shown : complaint "WALLET_AUTH_REQUEST_TIMEOUT_SECS" "a \"while\"\n\u200b" =
      "WALLET_AUTH_REQUEST_TIMEOUT_SECS must be a whole number of seconds, got " ++
        "\"a \\\"while\\\"\\n\\u\x7b200b\x7d\"" := by decide +kernel
  rw [← shown]
  refine ((ofEnvironment_outcome _).2.1 _).mpr (.malformed ?given (.here ?malformed) (text?_ofTexts _ _))
  case given =>
    simp only [requiredNames, List.forall_mem_cons]
    exact ⟨⟨"x", text?_ofTexts _ _, 'x', .head _, rfl⟩, ⟨"2", text?_ofTexts _ _, '2', .head _, rfl⟩,
      ⟨"0xcafe", text?_ofTexts _ _, '0', .head _, rfl⟩, nofun⟩
  case malformed =>
    intro sound
    obtain ⟨n, writes⟩ := sound _ (text?_ofTexts _ _)
    have unread : wholeNumber? (trimChars "a \"while\"\n\u200b".toList) = none := by decide +kernel
    exact absurd (unread.symm.trans (wholeNumber?_trimChars.mpr writes)) nofun

/-- What is missing is told before what is malformed. -/
example :
    AuthConfig.ofEnvironment (.ofTexts [("LUMIO_RPC_URL", "x"), ("LUMIO_CHAIN_ID", "\u3000"),
      ("WALLET_AUTH_REQUEST_TIMEOUT_SECS", "soon")]) = .error (.missingConfig "LUMIO_CHAIN_ID") := rfl

end Environment

end WalletSession
