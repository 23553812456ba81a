import WalletSession.AuthError
import WalletSession.Text.Blank
import WalletSession.Text.Case
import WalletSession.Text.Digits
import WalletSession.Text.Quoted
import WalletSession.Wallet.Network

/-! The settings of a session, read from an environment. Variables are looked at in a fixed order,
and the first that is missing or malformed is the error. A value that is not UTF-8 counts as
unset. -/
namespace WalletSession

abbrev Environment := String → Option ByteArray

namespace Environment

def text? (env : Environment) (name : String) : Option String := (env name).bind String.fromUTF8?

/-- The value of a required variable without the white space around it. -/
def required (env : Environment) (name : String) : Except AuthError String :=
  match env.text? name with
  | some value =>
    if Text.trim value = "" then .error (.missingConfig name) else .ok (Text.trim value)
  | none => .error (.missingConfig name)

/-- A whole number below `2 ^ 64` in decimal digits, with or without a plus sign. -/
def wholeNumber? (cs : List Char) : Option Nat :=
  let ds := match cs with
    | '+' :: rest => rest
    | _ => cs
  if Text.isWholeNumber ds && Text.digitsValue ds < Nat.pow 2 64 then some (Text.digitsValue ds) else none

def seconds (env : Environment) (name : String) (default : Nat) : Except AuthError Nat :=
  match env.text? name with
  | none => .ok default
  | some raw =>
    match wholeNumber? (Text.trimChars raw.toList) with
    | some n => .ok n
    | none =>
      .error (.configParse
        (name ++ " must be a whole number of seconds, got " ++ Text.quoted raw))

end Environment

structure Timeouts where
  requestSecs : Nat := 30
  connectSecs : Nat := 10
  deriving DecidableEq, Repr

/-- The chain that a wallet must be on before value is moved. -/
structure ChainConfig where
  rpcUrl : String
  chainId : String
  contractAddress : String
  deriving DecidableEq, Repr

namespace ChainConfig

/-- An address of a node, up to case, white space around it and slashes at its end. -/
def normalizedRpc (url : String) : String := Text.lower (Text.dropSlashes (Text.trim url))

/-- The wallet is on the configured network. -/
def isMatchedBy (expected : ChainConfig) (network : Network) : Bool :=
  normalizedRpc network.api == normalizedRpc expected.rpcUrl &&
    Text.lower (Text.trim network.chainId) == Text.lower (Text.trim expected.chainId)

end ChainConfig

structure AuthConfig where
  /-- Where the backend is, without slashes at its end. -/
  baseUrl : String
  chain : ChainConfig
  storageDir : String
  timeouts : Timeouts
  deriving DecidableEq, Repr

namespace AuthConfig

def defaultBaseUrl : String := "http://127.0.0.1:3000"

def defaultStorageDir : String := "."

def ofEnvironment (env : Environment) : Except AuthError AuthConfig := do
  let baseUrl := Text.dropSlashes ((env.text? "WALLET_AUTH_BASE_URL").getD defaultBaseUrl)
  let rpcUrl ← env.required "LUMIO_RPC_URL"
  let chainId ← env.required "LUMIO_CHAIN_ID"
  let contractAddress ← env.required "VIBE_BALANCE_CONTRACT"
  let storageDir := (env.text? "WALLET_AUTH_STORAGE_DIR").getD defaultStorageDir
  let defaults : Timeouts := {}
  let requestSecs ← env.seconds "WALLET_AUTH_REQUEST_TIMEOUT_SECS" defaults.requestSecs
  let connectSecs ← env.seconds "WALLET_AUTH_CONNECT_TIMEOUT_SECS" defaults.connectSecs
  .ok
    { baseUrl
      chain := { rpcUrl := Text.dropSlashes rpcUrl, chainId, contractAddress }
      storageDir
      timeouts := { requestSecs, connectSecs } }

end AuthConfig

end WalletSession
