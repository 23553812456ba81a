import WalletSession.AuthError
import WalletSession.Backend.Answer
import WalletSession.Backend.Remote
import WalletSession.Backend.Submission
import WalletSession.Balance
import WalletSession.Binary64.Basic
import WalletSession.Binary64.Decimal
import WalletSession.Binary64.Reader
import WalletSession.Binary64.Rounding
import WalletSession.Binary64.Scaled
import WalletSession.Chain
import WalletSession.Config
import WalletSession.Http.Client
import WalletSession.Http.Cookie
import WalletSession.Http.Date
import WalletSession.Http.Exchange
import WalletSession.Http.Host
import WalletSession.Http.Url
import WalletSession.Json.Basic
import WalletSession.Json.Numeral
import WalletSession.Json.Piece
import WalletSession.Json.Printer
import WalletSession.Json.Reader
import WalletSession.Json.Token
import WalletSession.Json.Tree
import WalletSession.Machine.Phase
import WalletSession.Machine.Transition
import WalletSession.Proofs.Backend.Detail
import WalletSession.Proofs.Backend.Exchange
import WalletSession.Proofs.Backend.Submission
import WalletSession.Proofs.Balance
import WalletSession.Proofs.Binary64.Spelling
import WalletSession.Proofs.Config.Network
import WalletSession.Proofs.Machine.Routes
import WalletSession.Proofs.Store.Saved
import WalletSession.Proofs.Token.Series
import WalletSession.Proofs.World.Abort
import WalletSession.Proofs.World.Agreement
import WalletSession.Proofs.World.Alone
import WalletSession.Proofs.World.Ceremony
import WalletSession.Proofs.World.Checked
import WalletSession.Proofs.World.Composed
import WalletSession.Proofs.World.Connected
import WalletSession.Proofs.World.Deposits
import WalletSession.Proofs.World.Dialogue
import WalletSession.Proofs.World.FailedChecks
import WalletSession.Proofs.World.Flights
import WalletSession.Proofs.World.Fresh
import WalletSession.Proofs.World.Harmless
import WalletSession.Proofs.World.Interrupted
import WalletSession.Proofs.World.Lasting
import WalletSession.Proofs.World.PassedOn
import WalletSession.Proofs.World.Published
import WalletSession.Proofs.World.Reconnect
import WalletSession.Proofs.World.Refused
import WalletSession.Proofs.World.Restart
import WalletSession.Proofs.World.Revalidating
import WalletSession.Proofs.World.Revoked
import WalletSession.Proofs.World.Severed
import WalletSession.Proofs.World.SingleFlight
import WalletSession.Proofs.World.Startup
import WalletSession.Proofs.World.Unfinished
import WalletSession.Scenario.Cast
import WalletSession.Scenario.Configured
import WalletSession.Scenario.Partners
import WalletSession.Scenario.Simulation
import WalletSession.Session.Call
import WalletSession.Session.Handshake
import WalletSession.Session.Lock
import WalletSession.Session.Outcome
import WalletSession.Session.Request
import WalletSession.Session.Revalidation
import WalletSession.Session.State
import WalletSession.Session.Step
import WalletSession.Session.Stretch
import WalletSession.Session.World
import WalletSession.Store.Basic
import WalletSession.Store.Faulty
import WalletSession.Store.File
import WalletSession.Store.FilePath
import WalletSession.Store.FileTree
import WalletSession.Store.Memory
import WalletSession.Text.Blank
import WalletSession.Text.Case
import WalletSession.Text.Digits
import WalletSession.Text.Quoted
import WalletSession.Text.Split
import WalletSession.Text.Unprintable
import WalletSession.Text.Utf8
import WalletSession.Token
import WalletSession.Wallet.Deposit
import WalletSession.Wallet.Network
import WalletSession.Wallet.Signing
