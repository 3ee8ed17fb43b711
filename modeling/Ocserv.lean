import Ocserv.Lib.HTable
import Ocserv.Lib.Keyed
import Ocserv.Lib.Bits
import Ocserv.Lib.Lz77
import Ocserv.Lib.Members
import Ocserv.Lib.Inet
import Ocserv.Lib.Runs
import Ocserv.Lib.Outcome
import Ocserv.Lib.Subnet
import Ocserv.Basic
import Ocserv.SecMod.Db
import Ocserv.SecMod.Auth
import Ocserv.SecMod.Session
import Ocserv.SecMod.Steps
import Ocserv.SecMod.Resume
import Ocserv.Main.State
import Ocserv.Main.Lease
import Ocserv.Main.Grant
import Ocserv.Main.Peers
import Ocserv.Main.Session
import Ocserv.Main.Ban
import Ocserv.Main.Worker
import Ocserv.Main.System
import Ocserv.Worker.Http
import Ocserv.Worker.Certificate
import Ocserv.Worker.Score
import Ocserv.Proofs.AuthGate
import Ocserv.Proofs.Workers
import Ocserv.Proofs.Events
import Ocserv.Proofs.System
import Ocserv.Proofs.Balance
import Ocserv.Proofs.Ownership
import Ocserv.Proofs.Termination
import Ocserv.Proofs.Camouflage
import Ocserv.Proofs.CertAccount
import Ocserv.Proofs.Renegotiation
import Ocserv.IpUtil
import Ocserv.Lzs
import Ocserv.Proofs.Route
import Ocserv.Main.Routes
import Ocserv.Proofs.Connect
import Ocserv.Proofs.Access
import Ocserv.Proofs.Scripts
import Ocserv.Lib.Ledger
import Ocserv.Proofs.Iroutes
import Ocserv.Proofs.Revocation
import Ocserv.Proofs.Logins
import Ocserv.SecMod.Account
import Ocserv.Proofs.Traffic
import Ocserv.Proofs.Accounting
import Ocserv.Proofs.Pids
import Ocserv.Proofs.Leases
import Ocserv.Proofs.Collisions
import Ocserv.Proofs.Candidates
import Ocserv.Proofs.Resume
import Ocserv.Proofs.Peers
import Ocserv.Proofs.Addresses
import Ocserv.Proofs.Tables
import Ocserv.Proofs.Ban
import Ocserv.Proofs.Lzs
import Ocserv.SecMod.Oidc
import Ocserv.Proofs.OidcTables
import Ocserv.Proofs.OidcLogin
import Ocserv.Proofs.Identity
import Ocserv.Lib.Fragments
import Ocserv.Worker.Headers
import Ocserv.Worker.Callbacks
import Ocserv.Proofs.Segmentation
import Ocserv.Lib.Residue
import Ocserv.Proofs.Isolation
import Ocserv.Proofs.Ciphersuites
import Ocserv.Lib.Block
import Ocserv.Config.Strv
import Ocserv.Config.Ports
import Ocserv.Config.Values
import Ocserv.Lib.Burst
import Ocserv.Worker.Bandwidth
import Ocserv.Worker.Groups
import Ocserv.Worker.Mtu
import Ocserv.Worker.Tunnel
import Ocserv.Proofs.Tunnel
import Ocserv.Proofs.Mtu
import Ocserv.Proofs.TunSlot
import Ocserv.Lib.Reads
import Ocserv.Ipc
import Ocserv.Proofs.Ipc
import Ocserv.Proofs.InitTag
import Ocserv.Lib.Lines
import Ocserv.Auth.Plain
import Ocserv.Proofs.GroupList
import Ocserv.Proofs.PasswdFile
import Ocserv.Proofs.PlainAuth
import Ocserv.Auth.Groups
import Ocserv.Proofs.AuthGroups
import Ocserv.Lib.Coroutine
import Ocserv.Auth.Pam
import Ocserv.Proofs.Pam
import Ocserv.Auth.Radius
import Ocserv.Proofs.RadiusRounds
import Ocserv.Lib.Shuffle
import Ocserv.Proofs.RadiusAttrs
import Ocserv.Ocpasswd
import Ocserv.Proofs.Ocpasswd
import Ocserv.Lib.Search
import Ocserv.Worker.Form
import Ocserv.Proofs.Form
