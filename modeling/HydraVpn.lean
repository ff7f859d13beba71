import HydraVpn.Bytes
import HydraVpn.Protocol.Packet
import HydraVpn.Protocol.Handshake
import HydraVpn.Crypto.Session
import HydraVpn.Server.IPPool
import HydraVpn.Server.Handshake
import HydraVpn.Client.Handshake
import HydraVpn.KeyAgreement
import HydraVpn.Crypto.SessionRuns
import HydraVpn.Frames
import HydraVpn.Server.Tasks
import HydraVpn.DataPath
import HydraVpn.Transport.Obfuscated
import HydraVpn.Transport.Quic
import HydraVpn.Transport.WebSocket
import HydraVpn.Client.Lifecycle
import HydraVpn.Client.Invariants
import HydraVpn.Server.Delivery
import HydraVpn.Server.SharedSession
import HydraVpn.Agreement
import HydraVpn.DataPlane
import HydraVpn.Server.Collision
import HydraVpn.System
