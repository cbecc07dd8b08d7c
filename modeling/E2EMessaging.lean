import E2EMessaging.Lib.Run
import E2EMessaging.Lib.Bytes
import E2EMessaging.Lib.Deduction
import E2EMessaging.Lib.Slot
import E2EMessaging.Lib.Ticket
import E2EMessaging.Lib.Codec
import E2EMessaging.Lib.Reader
import E2EMessaging.Lib.Base64
import E2EMessaging.Lib.Search
import E2EMessaging.Lib.FixedWindow
import E2EMessaging.Lib.BinaryField
import E2EMessaging.Lib.Utf8
import E2EMessaging.Lib.Dialog
import E2EMessaging.Lib.Register
import E2EMessaging.Lib.Json
import E2EMessaging.Group.Session
import E2EMessaging.Group.Wire
import E2EMessaging.Group.Membership
import E2EMessaging.Group.Symbolic
import E2EMessaging.Group.History
import E2EMessaging.Group.Secrecy
import E2EMessaging.Group.Exposure
import E2EMessaging.Group.Authenticity
import E2EMessaging.Group.NoPanic
import E2EMessaging.Group.RawKeys
import E2EMessaging.Relay.Base64
import E2EMessaging.Relay.Pow
import E2EMessaging.Relay.RateLimit
import E2EMessaging.Relay.RateWindow
import E2EMessaging.Relay.Store
import E2EMessaging.Relay.StoreThreads
import E2EMessaging.Relay.Server
import E2EMessaging.Relay.System
import E2EMessaging.Relay.Delivery
import E2EMessaging.Relay.Frame
import E2EMessaging.Relay.PowGate
import E2EMessaging.Relay.Base64Exact
import E2EMessaging.Relay.Solve
import E2EMessaging.Relay.Client
import E2EMessaging.Relay.Difficulty
import E2EMessaging.Relay.Answers
import E2EMessaging.Relay.WsClient
import E2EMessaging.Relay.WsJson
import E2EMessaging.Crypto.PreKey
import E2EMessaging.Crypto.PreKeyPool
import E2EMessaging.Crypto.PreKeyBytes
import E2EMessaging.Crypto.RatchetSession
import E2EMessaging.Crypto.Republish
import E2EMessaging.Crypto.BundleBytes
import E2EMessaging.Crypto.DeviceSet
import E2EMessaging.Protocol.Fanout
import E2EMessaging.Protocol.EmptySend
import E2EMessaging.Transport.Dht
import E2EMessaging.Transport.SealedSender
import E2EMessaging.Storage.Backup
import E2EMessaging.Storage.Tamper
import E2EMessaging.Storage.EncryptedStore
import E2EMessaging.Web.Restore
import E2EMessaging.Web.GroupConversation
import E2EMessaging.Web.Interleaving
import E2EMessaging.Web.Lookup
import E2EMessaging.Web.RelayTransport
import E2EMessaging.Web.Correlation
import E2EMessaging.Web.Pow
import E2EMessaging.Web.Fidelity
import E2EMessaging.Web.Interop
import E2EMessaging.Web.RelayConnection
import E2EMessaging.Web.RelayStatus
import E2EMessaging.Web.ReceiverSession
import E2EMessaging.Web.Backup
import E2EMessaging.Web.BrowserStorage
import E2EMessaging.Web.BackupPanel
import E2EMessaging.Web.RecordText
import E2EMessaging.Web.StorageGate
import E2EMessaging.Web.RestoreAtomic
import E2EMessaging.Web.SafetyNumber
import E2EMessaging.Web.Identity
import E2EMessaging.Web.History
import E2EMessaging.Web.DeviceLinking
import E2EMessaging.Web.ReedSolomon
import E2EMessaging.Web.FailureContract
import E2EMessaging.Desktop.Verify
import E2EMessaging.Desktop.Restore
import E2EMessaging.Web.QrMatrix
import E2EMessaging.Transport.ReaderCalls
import E2EMessaging.Crypto.DeviceQr
import E2EMessaging.Web.Polling
import E2EMessaging.Crypto.SafetyNumber
import E2EMessaging.Web.LinkingScreen
import E2EMessaging.Web.TrustDrawer
import E2EMessaging.Web.Chat
import E2EMessaging.Transport.Privacy
