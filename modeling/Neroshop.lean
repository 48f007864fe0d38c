import Neroshop.Foundation.Transition
import Neroshop.Foundation.Bytes
import Neroshop.Foundation.CommonFront
import Neroshop.Foundation.Framing
import Neroshop.Foundation.Register
import Neroshop.Foundation.Effects
import Neroshop.Json
import Neroshop.Fetch
import Neroshop.Timestamp
import Neroshop.Node.Store
import Neroshop.Node.KeyMapper
import Neroshop.Node.Validate
import Neroshop.Node.Put
import Neroshop.Node.Rejection
import Neroshop.Node.Update
import Neroshop.Node.Totality
import Neroshop.Node.Permanence
import Neroshop.Node.Succession
import Neroshop.Node.Freshness
import Neroshop.Node.Authenticity
import Neroshop.Node.Interleaving
import Neroshop.Node.Replication
import Neroshop.Tor.Frame
import Neroshop.Tor.Safety
import Neroshop.Tor.RoundTrip
import Neroshop.Tor.Connections
import Neroshop.Routing.NodeId
import Neroshop.Routing.Table
import Neroshop.Routing.History
import Neroshop.Node.LocalNode
import Neroshop.Rpc.Pending
import Neroshop.Rpc.Peers
import Neroshop.Rpc.Removal
import Neroshop.Rpc.Wire
import Neroshop.Rpc.Remote
import Neroshop.Rpc.Signed
import Neroshop.Rpc.Client
import Neroshop.Rpc.Coherence
import Neroshop.Rpc.Message
import Neroshop.Rpc.Process
import Neroshop.Rpc.Methods
import Neroshop.Rpc.Reply
import Neroshop.Rpc.Session
import Neroshop.Rpc.Answers
import Neroshop.Transport.TcpInterface
import Neroshop.Transport.Reconnect
import Neroshop.Transport.Ipc
import Neroshop.Transport.RpcServer
import Neroshop.Gui.Rows
import Neroshop.Gui.Readers
import Neroshop.Market.Rating
import Neroshop.Market.Votes
import Neroshop.Foundation.Keyed
import Neroshop.Market.Listing
import Neroshop.Market.Cart
import Neroshop.Market.Order
import Neroshop.Market.BatchChecks
import Neroshop.Market.Product
import Neroshop.Market.ListingDocument
import Neroshop.Market.OrderDocument
import Neroshop.Market.Variants
import Neroshop.Gui.SignIn
import Neroshop.Gui.Rates
import Neroshop.Rpc.Providers
import Neroshop.Node.Heartbeat
import Neroshop.Rpc.Admission
import Neroshop.Node.Indexing
import Neroshop.Gui.Precision
import Neroshop.Gui.DisplayNames
import Neroshop.Database.Sqlite3
import Neroshop.Rpc.JsonRpc
import Neroshop.Foundation.Amounts
import Neroshop.Foundation.Fallback
import Neroshop.Market.Favorites
import Neroshop.Market.Pricing
import Neroshop.Market.Quotes
import Neroshop.PriceApi.Services
import Neroshop.Routing.Closest
import Neroshop.Tools.Strings
import Neroshop.Wallet.Transfer
import Neroshop.Wallet.Uri
import Neroshop.Tools.ThreadPool
import Neroshop.Rpc.Publication
import Neroshop.Rpc.Acknowledgements
import Neroshop.Rpc.PutReply
import Neroshop.Rpc.RemoveReply
import Neroshop.Rpc.OwnId
import Neroshop.Rpc.Filling
import Neroshop.Rpc.Overlay
import Neroshop.Rpc.Provenance
import Neroshop.Rpc.Holders
import Neroshop.Market.Expiration
import Neroshop.Gui.Mailbox
import Neroshop.Rpc.Retrieval
import Neroshop.Node.Purge
import Neroshop.Node.UserFields
import Neroshop.Node.MappedTerms
import Neroshop.Gui.Stars
import Neroshop.Market.CartDocument
import Neroshop.Market.Subcategories
import Neroshop.Foundation.Choices
import Neroshop.Market.Combinations
import Neroshop.Foundation.BitGroups
import Neroshop.Network.Base32
import Neroshop.Routing.HexText
import Neroshop.Routing.Ultrametric
import Neroshop.Routing.Refresh
import Neroshop.Foundation.Numerals
import Neroshop.Foundation.Calendar
import Neroshop.Instants
import Neroshop.Node.FilePieces
import Neroshop.Network.Socks5
import Neroshop.Network.SamDatagram
import Neroshop.Network.SamIdentity
import Neroshop.Network.SamReply
import Neroshop.Network.SamSession
import Neroshop.Market.Loading
import Neroshop.Foundation.Replace
import Neroshop.Foundation.Overlap
import Neroshop.Tools.SwapAll
import Neroshop.Durations
