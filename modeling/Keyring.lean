import Keyring.Lib.Machine
import Keyring.Lib.Mutex
import Keyring.Lib.History
import Keyring.Basic
import Keyring.Bitwarden.Models
import Keyring.Bitwarden.KeyStore
import Keyring.Bitwarden.MapStore
import Keyring.Bitwarden.Auth
import Keyring.Bitwarden.Crypto
import Keyring.Proofs.Bitwarden.Crypto
import Keyring.Bitwarden.Session
import Keyring.Proofs.Bitwarden.Session.Moves
import Keyring.Proofs.Bitwarden.Session.Locks
import Keyring.Proofs.Bitwarden.Session.Publication
import Keyring.Proofs.Bitwarden.Session.Missing
import Keyring.Proofs.Bitwarden.Session.Calls
import Keyring.Proofs.Bitwarden.Session.Login
import Keyring.Proofs.Bitwarden.Session.Retry
import Keyring.Proofs.Bitwarden.Session.Heal
import Keyring.Cli.Platform
import Keyring.Proofs.Cli.Platform.Moves
import Keyring.Proofs.Cli.Platform.Reclaim
import Keyring.Cli.Serve
import Keyring.Proofs.Cli.Platform.Release
import Keyring.Proofs.Cli.Serve.Turns
import Keyring.Proofs.Cli.Serve.Generations
import Keyring.Proofs.Cli.Serve.Reloads
import Keyring.Lib.Index
import Keyring.Service.Signing
import Keyring.Service.Session
import Keyring.Proofs.Service.Listing
import Keyring.Proofs.Service.OneIndex
import Keyring.Bitwarden.Provider
import Keyring.Proofs.Bitwarden.Provider.Key
import Keyring.Proofs.Bitwarden.Provider.Discovery
import Keyring.Core.Cell
import Keyring.Proofs.Core.Cell.Linear
import Keyring.Proofs.Core.Cell.SingleFlight
import Keyring.Bitwarden.Load
import Keyring.Proofs.Bitwarden.Provider.Load
import Keyring.Proofs.Bitwarden.Provider.Snapshot
import Keyring.Cli.Handle
import Keyring.Proofs.Cli.Handle.Exchanges
import Keyring.Proofs.Cli.Handle.Stops
import Keyring.Proofs.Cli.Serve.Shutdown
import Keyring.Cli.Drain
import Keyring.Proofs.Cli.Drain.Deadlines
import Keyring.Proofs.Bitwarden.Provider.Locality
import Keyring.Proofs.Bitwarden.Session.Outcome
import Keyring.Proofs.Service.Binds
import Keyring.Lib.Rsa
import Keyring.Proofs.Service.Signing
import Keyring.Bitwarden.Decode
import Keyring.Proofs.Bitwarden.Provider.Body
import Keyring.Proofs.Bitwarden.Provider.Origin
import Keyring.Core.Provider
import Keyring.Lib.Parties
import Keyring.Proofs.Bitwarden.Provider.Heal
import Keyring.Proofs.Bitwarden.Session.Settle
import Keyring.Proofs.Core.Provider
import Keyring.Process
import Keyring.Proofs.Providers
import Keyring.Proofs.Service.Agent.Moves
import Keyring.Proofs.Service.Agent.Origin
import Keyring.Proofs.Service.Agent.Own
import Keyring.Proofs.Service.Agent.Settle
import Keyring.Cli.Config
import Keyring.Cli.Reload
import Keyring.Proofs.Cli.Config
import Keyring.Proofs.Cli.Serve.Converges
import Keyring.Bitwarden.TokenDecode
import Keyring.Proofs.Bitwarden.Decode
import Keyring.Proofs.Bitwarden.Session.Fresh
import Keyring.Proofs.Bitwarden.TokenDecode
import Keyring.Proofs.Cli.Platform.Alone
import Keyring.Proofs.Cli.Drain.Settle
import Keyring.Proofs.Cli.Platform.Restart
import Keyring.Proofs.Process.Origin
import Keyring.Proofs.Process.Rest
import Keyring.Proofs.Process.Shutdown
