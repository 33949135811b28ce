import Hysj.Ratchet.DoubleRatchet
import Hysj.Ratchet.SkippedFifo
import Hysj.Ratchet.Chains
import Hysj.Ratchet.Conversation
import Hysj.Ratchet.Synchronised
import Hysj.Ratchet.Delivery
import Hysj.Ratchet.Wire
import Hysj.Ratchet.Calls
import Hysj.Ratchet.Atomicity
import Hysj.Ratchet.Sending
import Hysj.Ratchet.PanicFreedom
import Hysj.Ratchet.HeaderNumbers
import Hysj.Crypto.X3dh
import Hysj.Crypto.PreKeyBundles
import Hysj.Native.Api
import Hysj.Native.X3dh
import Hysj.Ratchet.InOrder
import Hysj.Native.Session
import Hysj.Symbolic.Term
import Hysj.Symbolic.Places
import Hysj.Symbolic.Standing
import Hysj.Symbolic.World
import Hysj.Symbolic.Authenticity
import Hysj.Symbolic.ForwardSecrecy
import Hysj.Symbolic.Healing
import Hysj.Symbolic.Onion
import Hysj.Api.SenderCertificate
import Hysj.Messaging.Redis
import Hysj.Shared.Messages
import Hysj.Messaging.Queue
import Hysj.Messaging.Drain
import Hysj.Messaging.Otp
import Hysj.Messaging.MediaStore
import Hysj.Messaging.Wipe
import Hysj.Base.Utf8
import Hysj.Base.JsonSize
import Hysj.Crypto.SealedLength
import Hysj.Crypto.Onion
import Hysj.Crypto.OnionDelivery
import Hysj.Db.Tables
import Hysj.Api.State
import Hysj.Api.Handler
import Hysj.Messaging.Changes
import Hysj.Api.Effects
import Hysj.Api.Acknowledgements
import Hysj.Api.Wipe
import Hysj.Api.WipeAuthority
import Hysj.Messaging.WipeNames
import Hysj.Api.WipeFrames
import Hysj.Api.Offline
import Hysj.Api.Sockets
import Hysj.Api.Registry
import Hysj.Api.Lifetime
import Hysj.Api.Ledger
import Hysj.Auth.Credentials
import Hysj.Api.Auth
import Hysj.Api.Tokens
import Hysj.Api.WipeStatus
import Hysj.Base.Pool
import Hysj.Base.PoolRuns
import Hysj.Base.Exec
import Hysj.Api.Operations
import Hysj.Api.Durability
import Hysj.Api.OneTime
import Hysj.Base.ForeignKeys
import Hysj.Db.References
import Hysj.Api.AccountDeletion
import Hysj.Api.Registration
import Hysj.Api.Otp
import Hysj.Base.Trail
import Hysj.Api.TwoFactor
import Hysj.Api.SecondFactor
import Hysj.Api.Lockout
import Hysj.Api.Escalation
import Hysj.Db.Vpn
import Hysj.Api.Vpn
import Hysj.Api.VpnAddresses
import Hysj.Api.VpnCapacity
import Hysj.App.WsMessage
import Hysj.Db.Groups
import Hysj.Api.Groups
import Hysj.Api.GroupAuthority
import Hysj.Api.GroupAdmins
import Hysj.Api.GroupSize
import Hysj.Api.FanOut
import Hysj.Db.PreKeys
import Hysj.Api.PreKeys
import Hysj.Api.PreKeyClaims
import Hysj.Api.PreKeyLimit
import Hysj.Api.RateLimit
import Hysj.Api.Media
import Hysj.Api.MediaKeys
import Hysj.Api.MediaLifetime
import Hysj.Api.VpnSessions
import Hysj.Api.WipeEntries
import Hysj.Api.DrainOnce
import Hysj.Api.DeliveryOrder
import Hysj.Messaging.SingleDrain
import Hysj.Messaging.Answers
import Hysj.Api.WipeSweep
import Hysj.Api.WipeFailure
import Hysj.Api.GroupCreation
import Hysj.Api.Usernames
import Hysj.App.ApiClient
import Hysj.Base.Utf16
import Hysj.Base.Memo
import Hysj.App.CryptoService
import Hysj.App.ChatService
import Hysj.Base.Pages
import Hysj.Db.Pagination
import Hysj.Base.Text
import Hysj.Api.Config
import Hysj.Base.Constraints
import Hysj.Db.Contacts
import Hysj.Db.Integrity
import Hysj.Db.Writes
import Hysj.Api.Contacts
import Hysj.Api.Endpoints
import Hysj.Api.EndpointRuns
import Hysj.Api.Consent
import Hysj.Api.VpnKeys
import Hysj.Api.Relay
import Hysj.Api.GroupRaces
import Hysj.App.WsClient
import Hysj.App.LocalStorage
import Hysj.App.AuthService
