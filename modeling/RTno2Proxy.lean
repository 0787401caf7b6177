import RTno2Proxy.Program
import RTno2Proxy.Packet
import RTno2Proxy.Delimiter
import RTno2Proxy.Device
import RTno2Proxy.Transport
import RTno2Proxy.LineReads
import RTno2Proxy.LineWrites
import RTno2Proxy.Framing
import RTno2Proxy.Grammar
import RTno2Proxy.Profile
import RTno2Proxy.Protocol
import RTno2Proxy.Exchange
import RTno2Proxy.PortData
import RTno2Proxy.ProfileReads
import RTno2Proxy.Session
import RTno2Proxy.Lockstep
import RTno2Proxy.StaleReply
import RTno2Proxy.EtherTcp
import RTno2Proxy.Com2Tcp
import RTno2Proxy.Deliveries
import RTno2Proxy.Executions
import RTno2Proxy.Outcomes
import RTno2Proxy.Payloads
import RTno2Proxy.Retries
import RTno2Proxy.Com2TcpSession
import RTno2Proxy.Interactive
import RTno2Proxy.Shutdown
import RTno2Proxy.Instances
import RTno2Proxy.Requests
import RTno2Proxy.Profiles
import RTno2Proxy.PortReads
import RTno2Proxy.DeviceFailures
import RTno2Proxy.Commands
import RTno2Proxy.Inject
import RTno2Proxy.Print
import RTno2Proxy.Assignments
import RTno2Proxy.Termination
import RTno2Proxy.Sequences
import RTno2Proxy.CommandLines
import RTno2Proxy.Simulation
import RTno2Proxy.Devices
import RTno2Proxy.Links
import RTno2Proxy.TcpDevice
import RTno2Proxy.Dispatch
import RTno2Proxy.Sessions
import RTno2Proxy.TcpSession
import RTno2Proxy.SerialPort
import RTno2Proxy.SerialSession
import RTno2Proxy.FrontEnds
import RTno2Proxy.SerialHalting
import RTno2Proxy.TcpHalting
import RTno2Proxy.Relay
import RTno2Proxy.RelaySession
import RTno2Proxy.Com2TcpServer
