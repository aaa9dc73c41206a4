import HttpSocksProxy.Dns.Answers
import HttpSocksProxy.Dns.Aton
import HttpSocksProxy.Dns.Chaining
import HttpSocksProxy.Dns.Compression
import HttpSocksProxy.Dns.Exchange
import HttpSocksProxy.Dns.Inet
import HttpSocksProxy.Dns.Lifetime
import HttpSocksProxy.Dns.Message
import HttpSocksProxy.Dns.Name
import HttpSocksProxy.Dns.Pton
import HttpSocksProxy.Dns.Renderer
import HttpSocksProxy.Dns.Reply
import HttpSocksProxy.Dns.Resolution
import HttpSocksProxy.Dns.RoundTrip
import HttpSocksProxy.Dns.Sections
import HttpSocksProxy.Dns.Text
import HttpSocksProxy.Dns.Wire
import HttpSocksProxy.Foundation.AgingTable
import HttpSocksProxy.Foundation.ByteStream
import HttpSocksProxy.Foundation.Effect
import HttpSocksProxy.Foundation.Fleet
import HttpSocksProxy.Foundation.Grouping
import HttpSocksProxy.Foundation.History
import HttpSocksProxy.Foundation.InetText
import HttpSocksProxy.Foundation.MessageHead
import HttpSocksProxy.Foundation.OrderedDict
import HttpSocksProxy.Foundation.RankedChoice
import HttpSocksProxy.Foundation.Transition
import HttpSocksProxy.Http.Authority
import HttpSocksProxy.Http.Body
import HttpSocksProxy.Http.Classification
import HttpSocksProxy.Http.Delimited
import HttpSocksProxy.Http.Exchange
import HttpSocksProxy.Http.Forward
import HttpSocksProxy.Http.Frame
import HttpSocksProxy.Http.Framing
import HttpSocksProxy.Http.Handler
import HttpSocksProxy.Http.Head
import HttpSocksProxy.Http.Headers
import HttpSocksProxy.Http.Opening
import HttpSocksProxy.Http.Relaying
import HttpSocksProxy.Http.Request
import HttpSocksProxy.Http.Sanitized
import HttpSocksProxy.Http.Screening
import HttpSocksProxy.Http.StrictChunks
import HttpSocksProxy.Http.Text
import HttpSocksProxy.Http.Transparency
import HttpSocksProxy.Http.Truncation
import HttpSocksProxy.Http.Url
import HttpSocksProxy.Legacy.Startup
import HttpSocksProxy.Legacy.Tasks
import HttpSocksProxy.Server.Admission
import HttpSocksProxy.Server.Binding
import HttpSocksProxy.Server.Exceptions
import HttpSocksProxy.Server.Relay
import HttpSocksProxy.Server.Resolve
import HttpSocksProxy.Server.Status
import HttpSocksProxy.Server.Stopping
import HttpSocksProxy.Server.Traffic
import HttpSocksProxy.Socks.Address
import HttpSocksProxy.Socks.Association
import HttpSocksProxy.Socks.Closing
import HttpSocksProxy.Socks.Decoders
import HttpSocksProxy.Socks.Encapsulation
import HttpSocksProxy.Socks.Endpoints
import HttpSocksProxy.Socks.Negotiation
import HttpSocksProxy.Socks.Udp
import HttpSocksProxy.Socks.UdpInvariant
import HttpSocksProxy.Stable.AutoRoute
import HttpSocksProxy.Stable.Freshness
import HttpSocksProxy.Stable.Grace
import HttpSocksProxy.Stable.Health
import HttpSocksProxy.Stable.Interfaces
import HttpSocksProxy.Stable.Isolation
import HttpSocksProxy.Stable.Keepalive
import HttpSocksProxy.Stable.Lifecycle
import HttpSocksProxy.Stable.Outage
import HttpSocksProxy.Stable.Ownership
import HttpSocksProxy.Stable.Panel
import HttpSocksProxy.Stable.Persistence
import HttpSocksProxy.Stable.Probes
import HttpSocksProxy.Stable.Restarts
import HttpSocksProxy.Stable.Retrying
import HttpSocksProxy.Stable.Saturation
import HttpSocksProxy.Stable.Selection
import HttpSocksProxy.Stable.Startup
import HttpSocksProxy.Stable.StopRequests
import HttpSocksProxy.Stable.Supervisor
import HttpSocksProxy.Stable.Watchdog
import HttpSocksProxy.Stable.WpadProbe
