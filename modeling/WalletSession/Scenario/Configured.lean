import WalletSession.Scenario.Simulation
import WalletSession.Store.File

/-! Sessions as a configuration describes them: the backend and the chain are asked over HTTP, and
the record lies in a file in the configured directory. -/
namespace WalletSession.Scenario

namespace HttpPartners

/-- The clients that a configuration asks for, in front of a server. -/
def ofConfig (config : AuthConfig) (wallet : Cast) (server : Http.Server) : HttpPartners :=
  { wallet, remote := .create config.baseUrl config.chain.rpcUrl server }

end HttpPartners

/-- Nothing is open yet. -/
def Simulation.ofConfig (config : AuthConfig) (hasWallet : Bool) (wallet : Cast)
    (server : Http.Server) (files : FileTree) : Simulation HttpPartners FileStore :=
  { chain := config.chain, hasWallet, partners := .ofConfig config wallet server
    store := .inDirectory files ⟨config.storageDir⟩ }

end WalletSession.Scenario
