import WalletSession.Proofs.Config.Environment
import WalletSession.Proofs.Text.Case

/-! When a wallet is on the configured network. Of the two addresses neither white space around them nor
slashes at their end nor the case of letters counts, and all else does; of the two chain ids neither
white space around them nor case counts. An address from the environment is trimmed before its slashes
are dropped, and once more when it is compared: white space that stood before the slashes is then at
its end, and a wallet that reports the same text as the environment has another address. -/
namespace WalletSession

namespace ChainConfig

open Text

variable {u v c d url : String} {network : Network} {expected : ChainConfig}

/-- Nothing that decorates an address counts. -/
theorem normalizedRpc_of_decorates (bare : IsBare u) (decorated : Decorates u url) :
    normalizedRpc url = lower u := by
  obtain ⟨spelled, same, framed⟩ := decorated
  rw [normalizedRpc, dropSlashes_trim_of_framed (same.isBare bare) framed]
  exact lower_eq_iff.mpr same

/-- Two decorated addresses and two padded chain ids match if and only if the addresses are equal up to
case and the chain ids up to case and white space around them. -/
theorem isMatchedBy_iff (bare : IsBare u) (bare' : IsBare v) (api : Decorates u network.api)
    (rpcUrl : Decorates v expected.rpcUrl) (reported : Padded c network.chainId)
    (wanted : Padded d expected.chainId) :
    expected.isMatchedBy network = true ↔ EqUpToCase u v ∧ EqUpToPadding c d := by
  rw [isMatchedBy, Bool.and_eq_true, beq_iff_eq, beq_iff_eq, normalizedRpc_of_decorates bare api,
    normalizedRpc_of_decorates bare' rpcUrl, trim_of_padded reported, trim_of_padded wanted,
    lower_eq_iff, lower_trim_eq_iff]

/-- An address and a chain id that are written in two ways each. -/
theorem matches_other_spelling :
    let network : Network := ⟨"\u3000HTTPS://Node/a///\u00a0", "\tA1 "⟩
    let expected : ChainConfig := ⟨"https://nOde/A/", "a1", "0xcafe"⟩
    IsBare "https://node/a" ∧ Decorates "https://node/a" network.api ∧
      Decorates "https://node/a" expected.rpcUrl ∧ Padded "A1" network.chainId ∧
      Padded "a1" expected.chainId ∧ expected.isMatchedBy network = true := by
  intro network expected
  have bare : IsBare "https://node/a" := ⟨by decide, by decide⟩
  have api : Decorates "https://node/a" network.api :=
    ⟨"HTTPS://Node/a", by decide, 3, "\u3000", "\u00a0", by decide, by decide, by decide⟩
  have rpcUrl : Decorates "https://node/a" expected.rpcUrl := ⟨"https://nOde/A", by decide, 1, .refl _⟩
  have reported : Padded "A1" network.chainId := ⟨"\t", " ", by decide, by decide, by decide⟩
  have wanted : Padded "a1" expected.chainId := .refl _
  refine ⟨bare, api, rpcUrl, reported, wanted, ?_⟩
  apply (isMatchedBy_iff bare bare api rpcUrl reported wanted).mpr
  exact ⟨by decide, "A1", "a1", .refl _, .refl _, by decide⟩

/-- Nothing has to be taken off the texts before they are used. -/
structure IsUsable (chain : ChainConfig) : Prop where
  rpcUrl : chain.rpcUrl ≠ "" ∧ IsBare chain.rpcUrl
  chainId : chain.chainId ≠ "" ∧ IsTrimmed chain.chainId
  contractAddress : chain.contractAddress ≠ "" ∧ IsTrimmed chain.contractAddress

variable {env : Environment} {config : AuthConfig} {id : String}

/-- An address is compared as it was read if there is nothing left to take off. -/
theorem normalizedRpc_dropSlashes_trim (url : String) :
    normalizedRpc url = normalizedRpc (dropSlashes (trim url)) ↔ IsBare (dropSlashes (trim url)) := by
  have ends : EndsOpen (dropSlashes (trim url)) := endsOpen_dropSlashes _
  constructor
  · intro same
    -- Trimming and dropping slashes shorten a text, so with equal lengths nothing was taken off.
    have lengths := congrArg String.length same
    rw [normalizedRpc, normalizedRpc, length_lower, length_lower] at lengths
    exact ⟨isTrimmed_of_length lengths.symm, ends⟩
  · intro bare
    rw [normalizedRpc, normalizedRpc, trim_of_isTrimmed bare.toIsTrimmed, dropSlashes_of_endsOpen ends]

/-- The address that is used is the one in the text, if that is bare. -/
theorem isBare_dropSlashes_trim_iff {p : String → Prop} :
    p (dropSlashes (trim url)) ∧ IsBare (dropSlashes (trim url)) ↔
      ∃ address, p address ∧ IsBare address ∧ Framed address url := by
  constructor
  · rintro ⟨holds, bare⟩
    exact ⟨_, holds, bare, framed_dropSlashes_trim url⟩
  · rintro ⟨address, holds, bare, framed⟩
    rw [dropSlashes_trim_of_framed bare framed]
    exact ⟨holds, bare⟩

/-- Of an accepted configuration the chain id and the contract can always be used, and the address of the
node has neither white space before it nor a slash after it. It can be used if and only if the text in
the environment is an address with slashes after it and white space around both, where the address is
not empty and has no white space at its end. If it has, then a wallet that reports just the texts of
the environment is on another network. -/
theorem usable_iff_framed (accepted : AuthConfig.ofEnvironment env = .ok config) :
    ∃ url id, env.text? "LUMIO_RPC_URL" = some url ∧ env.text? "LUMIO_CHAIN_ID" = some id ∧
      (config.chain.chainId ≠ "" ∧ IsTrimmed config.chain.chainId) ∧
      (config.chain.contractAddress ≠ "" ∧ IsTrimmed config.chain.contractAddress) ∧
      (EndsOpen config.chain.rpcUrl ∧ ∀ c ∈ config.chain.rpcUrl.toList.head?, isBlank c = false) ∧
      (config.chain.IsUsable ↔ ∃ address, address ≠ "" ∧ IsBare address ∧ Framed address url) ∧
      (config.chain.isMatchedBy ⟨url, id⟩ = true ↔
        ∃ address, IsBare address ∧ Framed address url) := by
  obtain ⟨-, ⟨_, ⟨url, set, padded, trimmed, -⟩, base⟩, ⟨id, wanted, around, chainId, someId⟩,
    ⟨_, -, -, contract, someContract⟩, -, -, -⟩ := Environment.ofEnvironment_eq_ok_iff.mp accepted
  obtain rfl := trim_eq_iff.mpr ⟨padded, trimmed⟩
  refine ⟨url, id, set, wanted, ⟨someId, chainId⟩, ⟨someContract, contract⟩, ⟨?_, ?_⟩, ?_, ?_⟩
  · rw [base]
    exact endsOpen_dropSlashes _
  · rw [base]
    intro c first
    exact trimmed.starts c (head_dropSlashes first)
  · rw [← isBare_dropSlashes_trim_iff, ← base]
    constructor
    · exact IsUsable.rpcUrl
    · intro usable
      exact ⟨usable, ⟨someId, chainId⟩, ⟨someContract, contract⟩⟩
  · have sameId : trim id = trim config.chain.chainId := trim_of_padded around
    rw [isMatchedBy, Bool.and_eq_true, beq_iff_eq, beq_iff_eq, base, normalizedRpc_dropSlashes_trim,
      sameId]
    simpa using isBare_dropSlashes_trim_iff (p := fun _ => True)

/-- A configuration that is left to its defaults but for what is required. -/
def configOf (rpcUrl : String) : AuthConfig where
  baseUrl := "http://127.0.0.1:3000"
  chain := { rpcUrl, chainId := "2", contractAddress := "0xcafe" }
  storageDir := "."
  timeouts := {}

def framedNode : Environment :=
  .ofTexts [("LUMIO_RPC_URL", "\u3000https://Node//\n"), ("LUMIO_CHAIN_ID", " 2"),
    ("VIBE_BALANCE_CONTRACT", "0xcafe")]

theorem framed_node_matches :
    AuthConfig.ofEnvironment framedNode = .ok (configOf "https://Node") ∧
      (configOf "https://Node").chain.IsUsable ∧
      (configOf "https://Node").chain.isMatchedBy ⟨"\u3000https://Node//\n", " 2"⟩ = true := by
  have accepted : AuthConfig.ofEnvironment framedNode = .ok (configOf "https://Node") := rfl
  obtain ⟨url, id, set, wanted, -, -, -, usable, matched⟩ := usable_iff_framed accepted
  obtain rfl : "\u3000https://Node//\n" = url := Option.some.inj set
  obtain rfl : " 2" = id := Option.some.inj wanted
  have bare : IsBare "https://Node" := ⟨by decide, by decide⟩
  have framed : Framed "https://Node" "\u3000https://Node//\n" :=
    ⟨2, "\u3000", "\n", by decide, by decide, by decide⟩
  exact ⟨accepted, usable.mpr ⟨_, by decide, bare, framed⟩, matched.mpr ⟨_, bare, framed⟩⟩

/-- White space before the slash at the end. -/
def spacedNode : Environment :=
  .ofTexts [("LUMIO_RPC_URL", "https://node /"), ("LUMIO_CHAIN_ID", "2"),
    ("VIBE_BALANCE_CONTRACT", "0xcafe")]

theorem not_every_accepted_usable :
    (¬ ∀ env config, AuthConfig.ofEnvironment env = .ok config → config.chain.IsUsable) ∧
      ¬ ∀ env config url id, AuthConfig.ofEnvironment env = .ok config →
        env.text? "LUMIO_RPC_URL" = some url → env.text? "LUMIO_CHAIN_ID" = some id →
          config.chain.isMatchedBy ⟨url, id⟩ = true := by
  have accepted : AuthConfig.ofEnvironment spacedNode = .ok (configOf "https://node ") := rfl
  constructor
  · intro always
    have usable := always _ _ accepted
    exact absurd (usable.rpcUrl.2.ends ' ' (by decide)) (by decide)
  · intro always
    have matched := always _ _ "https://node /" "2" accepted rfl rfl
    exact absurd matched (by decide)

end ChainConfig

end WalletSession
