import Sponge.ByteStream.Chunks
import Sponge.StreamReassembler.EndOfStream
import Sponge.StreamReassembler.OpenEnd
import Sponge.TCP.ReceiverWindow
import Sponge.TCP.Sender.FinWindow
import Sponge.TCP.Sender.Retention
import Sponge.TCP.Sender.StaleAcks
import Sponge.TCP.Silence
import Sponge.TCP.FullWindow
import Sponge.TCP.AckFlag
import Sponge.TCP.Queues
import Sponge.NetworkInterface.Requests
import Sponge.Wire.LinkLayer
import Sponge.Wire.Lock
import Sponge.Router.Frames
import Sponge.EventLoop.Lifecycle
import Sponge.StreamCopy
import Sponge.Adapter.Ethernet
import Sponge.Socket.Exit
import Sponge.NetworkSimulator.Simulation
