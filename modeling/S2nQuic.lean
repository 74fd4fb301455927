import S2nQuic.Lib.ByteOrder
import S2nQuic.Lib.IntervalList
import S2nQuic.Codec
import S2nQuic.Varint
import S2nQuic.Packet.Number
import S2nQuic.Time
import S2nQuic.Crypto.KeySet
import S2nQuic.IntervalSet.Interval
import S2nQuic.IntervalSet.Insert
import S2nQuic.IntervalSet.Remove
import S2nQuic.IntervalSet.Intersection
import S2nQuic.IntervalSet.Search
import S2nQuic.IntervalSet.Set
import S2nQuic.Packet.SlidingWindow
import S2nQuic.Frame.Ack
import S2nQuic.Dc.Receiver
import S2nQuic.Stream.SendFlowControl
import S2nQuic.Buffer.Reassembler
import S2nQuic.Transport.Error
import S2nQuic.Stream.ReceiveFlowControl
import S2nQuic.Time.TokenBucket
import S2nQuic.Stream.Controller
import S2nQuic.IntervalSet.Limit
import S2nQuic.Ack.Ranges
import S2nQuic.Crypto.HeaderProtection
import S2nQuic.Recovery.RttEstimator
import S2nQuic.Recovery.Manager
import S2nQuic.Frame.Stream
import S2nQuic.Stream.FinalSize
import S2nQuic.Path.Ecn
import S2nQuic.Path.Mtu
import S2nQuic.Path.MtuSearch
import S2nQuic.Sync.DataSender.Buffer
import S2nQuic.Sync.DataSender.Transmissions
import S2nQuic.Sync.DataSender
import S2nQuic.Lib.Word
import S2nQuic.Recovery.Bandwidth
import S2nQuic.Lib.Ring
import S2nQuic.Buffer.Deque
import S2nQuic.Dc.PathSecret
import S2nQuic.Lib.OrderedMap
import S2nQuic.Lib.Refinement
import S2nQuic.Packet.Map
import S2nQuic.Sync.Spsc.Channel
import S2nQuic.Sync.Spsc.Invariant
import S2nQuic.Sync.Spsc.Run
