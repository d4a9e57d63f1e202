import Ydn64.Cmd.EndToEnd
import Ydn64.Cmd.Timeouts
import Ydn64.Config.Embedding
import Ydn64.Dns64.Denials
import Ydn64.Dns64.Edns
import Ydn64.Dns64.Freshness
import Ydn64.Dns64.Identity
import Ydn64.Dns64.Lifetime
import Ydn64.Dns64.Policy
import Ydn64.Dns64.QuerySlots
import Ydn64.Dns64.RateBound
import Ydn64.Dns64.Relay
import Ydn64.Dns64.Reverse
import Ydn64.Dns64.Snapshot
import Ydn64.Dns64.StaticNames
import Ydn64.Dns64.Synthesis
import Ydn64.Dns64.Transparency
import Ydn64.Dns64.Ttl
import Ydn64.Dns64.X20
import Ydn64.Dns64.Zones
import Ydn64.Nat64.ChainWalk
import Ydn64.Nat64.EchoRace
import Ydn64.Nat64.EchoSafety
import Ydn64.Nat64.FragmentVerdicts
import Ydn64.Nat64.PathMtu
import Ydn64.Nat64.Ping
import Ydn64.Nat64.TcpSlots
import Ydn64.Nat64.TcpRelay
import Ydn64.Nat64.Ceilings
import Ydn64.Nat64.Udp.Expiry
import Ydn64.Nat64.Udp.Flows
import Ydn64.Nat64.Udp.Inbound
import Ydn64.Nat64.Udp.Mapping
import Ydn64.Nat64.Udp.ParityBind
import Ydn64.Nat64.Udp.Quotes
import Ydn64.Netstack.Egress
import Ydn64.Netstack.ReadLoop
