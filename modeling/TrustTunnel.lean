import TrustTunnel.Buffer.Ring
import TrustTunnel.Connector.Fallback
import TrustTunnel.Core.Utils
import TrustTunnel.Dns.Intake
import TrustTunnel.Dns.Listener
import TrustTunnel.Dns.Queries
import TrustTunnel.Dns.Upstream
import TrustTunnel.Filter.Reload
import TrustTunnel.Gui.Cidr
import TrustTunnel.Gui.PathKey
import TrustTunnel.Gui.RuleFiles
import TrustTunnel.Gui.TunOnly
import TrustTunnel.Icmp.Manager
import TrustTunnel.Net.Http
import TrustTunnel.Net.TcpSocket
import TrustTunnel.Ping.Finish
import TrustTunnel.Ping.Handoff
import TrustTunnel.Pipe.Output
import TrustTunnel.Socks5.Authentication
import TrustTunnel.Socks5.Bounds
import TrustTunnel.Socks5.Closing
import TrustTunnel.Tcpip.Icmp
import TrustTunnel.Tcpip.UdpFlow
import TrustTunnel.Tunnel.Leak
import TrustTunnel.Udp.Handler
import TrustTunnel.Udp.Packet
import TrustTunnel.Udp.Streams
import TrustTunnel.Upstream.Closing
import TrustTunnel.Upstream.Pending
import TrustTunnel.Upstream.Pool
import TrustTunnel.Vpn.Attempts
import TrustTunnel.Vpn.Endpoint
import TrustTunnel.Vpn.Recovery
import TrustTunnel.Vpn.Window
