import ConnectAlso.Misc.Runs
import ConnectAlso.Misc.Program
import ConnectAlso.Misc.Locks
import ConnectAlso.Misc.Sections
import ConnectAlso.Misc.Table
import ConnectAlso.Misc.KeyedTable
import ConnectAlso.Misc.Datagrams
import ConnectAlso.Misc.Slices
import ConnectAlso.Misc.FirstMatch
import ConnectAlso.Misc.HashOrder
import ConnectAlso.Misc.Bytes
import ConnectAlso.Misc.Checked
import ConnectAlso.Misc.DnsFormat
import ConnectAlso.Misc.Text
import ConnectAlso.Misc.Counter
import ConnectAlso.Misc.Aead
import ConnectAlso.Net.Address
import ConnectAlso.Net.Socket
import ConnectAlso.Core.Acl
import ConnectAlso.Core.PacketHeader
import ConnectAlso.RelayProto.Frame
import ConnectAlso.Relay.Server
import ConnectAlso.Relay.Routing
import ConnectAlso.Crypto.KeyExchange
import ConnectAlso.Tunnel.Tunnel
import ConnectAlso.Tunnel.Nonce
import ConnectAlso.Tunnel.Direction
import ConnectAlso.Tunnel.Replay
import ConnectAlso.Tunnel.RelayClient
import ConnectAlso.Tunnel.RelayReceive
import ConnectAlso.Tunnel.Path
import ConnectAlso.Tunnel.PathStatus
import ConnectAlso.Tunnel.Subscribers
import ConnectAlso.Tunnel.RelayPool
import ConnectAlso.Tunnel.RelaySelection
import ConnectAlso.Tunnel.Failover
import ConnectAlso.Platform.Tun
import ConnectAlso.Daemon.Forward
import ConnectAlso.Mobile.Engine
import ConnectAlso.Mobile.Peers
import ConnectAlso.Mobile.Flush
import ConnectAlso.Mobile.Ffi
import ConnectAlso.Mobile.Queue
import ConnectAlso.Mobile.FailedReconnect
import ConnectAlso.Mobile.Receive
import ConnectAlso.Mobile.Routing
import ConnectAlso.System.Confidentiality
import ConnectAlso.System.MultiPeer
import ConnectAlso.Control.Schema
import ConnectAlso.Control.Service
import ConnectAlso.Control.Sound
import ConnectAlso.Control.Requests
import ConnectAlso.Control.Reservation
import ConnectAlso.Control.Revocation
import ConnectAlso.Control.Registration
import ConnectAlso.Control.FirstDevice
import ConnectAlso.Control.Threads
import ConnectAlso.Control.Leases
import ConnectAlso.Control.Leaks
import ConnectAlso.Control.Failures
import ConnectAlso.Control.Purge
import ConnectAlso.Control.Allocations
import ConnectAlso.Control.Cidr
import ConnectAlso.Control.Handout
import ConnectAlso.Control.Candidates
import ConnectAlso.Control.Publishing
import ConnectAlso.Control.AclRules
import ConnectAlso.Control.Listings
import ConnectAlso.Control.Lifecycle
import ConnectAlso.System.RelayHealth
import ConnectAlso.System.OnLink
import ConnectAlso.Stun.Service
import ConnectAlso.Stun.Ipv6
import ConnectAlso.Stun.Client
import ConnectAlso.Stun.Attributes
import ConnectAlso.Stun.Totality
import ConnectAlso.Traversal.Punch
import ConnectAlso.Traversal.Calls
import ConnectAlso.Traversal.Agreement
import ConnectAlso.Traversal.Detector
import ConnectAlso.Daemon.Candidates
import ConnectAlso.Daemon.LiveCandidates
import ConnectAlso.Daemon.Running
import ConnectAlso.Daemon.Following
import ConnectAlso.Daemon.RelayChoice
import ConnectAlso.Daemon.Status
import ConnectAlso.Daemon.Tasks
import ConnectAlso.System.Stack
import ConnectAlso.System.Shown
import ConnectAlso.System.Exchange
import ConnectAlso.System.Delivery
import ConnectAlso.System.Discovery
import ConnectAlso.Daemon.Dns
import ConnectAlso.Daemon.DnsQueries
import ConnectAlso.Daemon.Resolve
