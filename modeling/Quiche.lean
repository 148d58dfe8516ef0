import Quiche.Octets.Raw
import Quiche.Connection.Numbering
import Quiche.Packet.Seen
import Quiche.Ranges.Equal
import Quiche.Ranges.Evict
import Quiche.Stream.RecvBuf.Size
import Quiche.Stream.SendBuf.Counted
import Quiche.Frame.Normal
import Quiche.Minmax
import Quiche.Recovery.Congestion.Window
import Quiche.Recovery.Congestion.Minimum
import Quiche.Recovery.Congestion.Counted
import Quiche.Recovery.Congestion.Hystart
import Quiche.Recovery.Judged
import Quiche.Recovery.Gcongestion.Tracking
import Quiche.Recovery.Timed
import Quiche.TransportParams.Wire
import Quiche.Cid.Announced
import Quiche.Path.Evidence
import Quiche.Connection.KeysInStep
import Quiche.Connection.Truthful
import Quiche.Connection.Schedule
import Quiche.Engine.Shutdown
import Quiche.Engine.Read
import Quiche.Connection.Cancel
import Quiche.Connection.LostFrames.Abandoned
import Quiche.Connection.Fin
import Quiche.Connection.Buffered
import Quiche.Connection.Amplification
import Quiche.Connection.Identifiers
import Quiche.Http3Driver.Outbound
import Quiche.Http3Driver.Delivery
import Quiche.H3.Qpack.Integers
import Quiche.H3.Qpack.RoundTrip
import Quiche.H3.Priority
import Quiche.H3.Process.Recognition
import Quiche.H3.Readable.Closing
import Quiche.H3.Config
import Quiche.IoWorker.Gather
import Quiche.TaskKillswitch
import Quiche.Router
import Quiche.Recovery.Congestion.Pacer
import Quiche.Recovery.Gcongestion.Bbr.BandwidthSampler.Points
import Quiche.Frame.Length
import Quiche.Connection.LengthFields.Decode
