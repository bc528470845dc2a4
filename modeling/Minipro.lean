import Minipro.Library.ByteOrder
import Minipro.Library.ErrorDetection
import Minipro.Library.Framing
import Minipro.Library.Latest
import Minipro.Library.Pacing
import Minipro.Library.Emission
import Minipro.Library.Transition
import Minipro.Library.Ownership
import Minipro.Library.Sweep
import Minipro.Library.Records
import Minipro.Library.Keyed
import Minipro.Library.References
import Minipro.Packet.Frame
import Minipro.Packet.FrameCodec
import Minipro.Packet.Stream
import Minipro.Packet.Checksum
import Minipro.Control.MiniPro
import Minipro.Control.HostIndependence
import Minipro.Joystick.Device
import Minipro.Joystick.AxisTable
import Minipro.Joystick.InputLoop
import Minipro.Joystick.ButtonTable
import Minipro.Joystick.AxisIndices
import Minipro.Timing.LoopRate
import Minipro.Control.ControlLoop
import Minipro.Control.Session
import Minipro.Bluez.Att
import Minipro.Bluez.GattWrite
import Minipro.Bluez.SendQueue
import Minipro.Bluez.Uuid
import Minipro.Bluez.Discovery
import Minipro.Bluez.MtuExchange
import Minipro.Bluez.DiscoveryRange
import Minipro.Bluez.AttributeServer
import Minipro.Bluez.DiscoveryComplete
import Minipro.Bluez.GattDb
import Minipro.Bluez.GattDbOrder
import Minipro.Bluez.GattDbHeap
import Minipro.Bluez.ClientDiscovery
import Minipro.Bluez.ServedDatabase
import Minipro.Bluez.ServedPrefix
import Minipro.Bluez.DiscoveryMirror
import Minipro.Bluez.DiscoveryStore
import Minipro.Bluez.DiscoveryPhases
import Minipro.Bluez.DiscoveryRun
import Minipro.Bluez.IncludedDiscovery
import Minipro.Bluez.IncludedComplete
import Minipro.Bluez.DiscoveryReports
import Minipro.Bluez.DiscoverySafety
import Minipro.LEClient.Completion
import Minipro.LEClient.Wakeup
import Minipro.LEClient.ReliableSession
import Minipro.LEClient.Lifecycle
import Minipro.LEClient.Link
import Minipro.LEClient.LinkOrder
import Minipro.LEClient.Barrier
import Minipro.LEClient.Destruction
import Minipro.LEClient.Readiness
import Minipro.Control.Notifications
import Minipro.Bluez.NotifyRegistration
import Minipro.Bluez.NotifyCells
import Minipro.Bluez.NotifyPhases
import Minipro.Bluez.NotifySteps
import Minipro.Bluez.NotifyAnswer
import Minipro.Bluez.NotifyRequests
import Minipro.Bluez.NotifyRemoval
import Minipro.Bluez.NotifyServiceChanged
import Minipro.Bluez.NotifyDelivery
import Minipro.Bluez.NotifyRun
import Minipro.Bluez.NotifyServer
import Minipro.Bluez.NotifyHazards
import Minipro.Bluez.ReadLong
import Minipro.Bluez.DiscoveryChanges
import Minipro.Bluez.ServiceChanged
import Minipro.Bluez.ServiceChangedRuns
