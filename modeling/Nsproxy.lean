import Nsproxy.Core.Upstream
import Nsproxy.Core.Downstream
import Nsproxy.Core.Destroy
import Nsproxy.Core.WakeUp
import Nsproxy.Lwip.Queues
import Nsproxy.Conf
import Nsproxy.Core.Establish
import Nsproxy.Core.Relay
import Nsproxy.Dns.Names
import Nsproxy.Dns.Responses
import Nsproxy.Handshake.HttpExact
import Nsproxy.Handshake.Output
import Nsproxy.Handshake.SocksExact
import Nsproxy.Handshake.SocksMethods
import Nsproxy.Handshake.SocksWaiting
import Nsproxy.Lib.Linked
import Nsproxy.Lwip.Upkeep
import Nsproxy.Tcpdns.Answers
import Nsproxy.Tcpdns.Deframing
import Nsproxy.Core.GracefulClose
import Nsproxy.Core.Segments
import Nsproxy.Args.CidrArgs
import Nsproxy.Core.SocksUdp
import Nsproxy.Dns.NameWalk
import Nsproxy.Dns.RuleSemantics
import Nsproxy.Handshake.Credentials
import Nsproxy.Tcpdns.Delivery
import Nsproxy.Args.DnsArgs
import Nsproxy.Args.Growth
import Nsproxy.Core.ForwardLists
import Nsproxy.Core.SendLoop
import Nsproxy.Core.UdpDelivery
import Nsproxy.Handshake.Encoder
import Nsproxy.Loop.Children
import Nsproxy.Loop.Interest
import Nsproxy.Lwip.ChksumChecks
import Nsproxy.Lwip.ReassemblyRuns
import Nsproxy.Lwip.TcpDemux
import Nsproxy.Lwip.UdpIsolation
import Nsproxy.Process.StartupEnds
