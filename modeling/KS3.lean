import KS3.Foundations.Run
import KS3.Foundations.Simulation
import KS3.Foundations.Memory
import KS3.Foundations.Circular
import KS3.Foundations.PrefixCode
import KS3.Foundations.Greedy
import KS3.Foundations.ShiftRegister
import KS3.Comm.Crc16
import KS3.Comm.TQueue
import KS3.Comm.Ring
import KS3.Comm.TBuffer
import KS3.Comm.Octets
import KS3.Comm.ConstrInput
import KS3.Comm.CommandLookup
import KS3.DataIO.Layer2
import KS3.DataIO.Bounds
import KS3.DataIO.Frame
import KS3.DataIO.Reception
import KS3.DataIO.Resync
import KS3.DataIO.Bursts
import KS3.DataIO.SerialCrc
import KS3.DataIO.Layer3
import KS3.DataIO.Messages
import KS3.DataIO.Tails
import KS3.DataIO.Grammar
import KS3.DataIO.RoundTrip
import KS3.DataIO.Lt
import KS3.Protocol.TProtocol
import KS3.Protocol.Parsing
import KS3.Protocol.Delivery
import KS3.Protocol.TProtocolInst
import KS3.Protocol.HiIo
import KS3.Protocol.TxBounds
import KS3.Protocol.ReadBlock
import KS3.Protocol.Pending
import KS3.Protocol.Replies
import KS3.Protocol.Routing
import KS3.Protocol.TxQueue
import KS3.Protocol.TMasterTx
import KS3.Hal.Ticks
import KS3.Protocol.MasterPackets
import KS3.Protocol.MasterRuns
import KS3.Protocol.Assembly
import KS3.Protocol.SequenceNumbers
import KS3.Protocol.HalfDuplex
import KS3.Hal.Uarts
import KS3.Buffers.Container
import KS3.Buffers.Samples
import KS3.Buffers.DataBuffers
import KS3.Buffers.Storage
import KS3.Buffers.Searches
import KS3.Buffers.Accounting
import KS3.Buffers.Serving
import KS3.Buffers.Results
import KS3.Buffers.Oldest
import KS3.Poll.SlavePoll
import KS3.Poll.Polling
import KS3.Poll.Handover
import KS3.Poll.Link
import KS3.Poll.Acknowledge
import KS3.Poll.AckContent
import KS3.Poll.StoredBlocks
import KS3.Udp.TBuffersPool
import KS3.Udp.UdpIo
import KS3.Udp.Transmission
import KS3.Udp.Requests
import KS3.Udp.Truncation
import KS3.Supervisor.TSupervisor
import KS3.Supervisor.Dispatch
import KS3.Supervisor.MacService
import KS3.Net.Phy
import KS3.Protocol.Server
import KS3.Protocol.Upper
import KS3.Protocol.MasterLatency
import KS3.Supervisor.MacLink
import KS3.Supervisor.LinkLatency
import KS3.Supervisor.UdpService
import KS3.Supervisor.Concentrator
import KS3.Supervisor.Room
import KS3.Supervisor.Keeps
import KS3.Supervisor.NetworkState
import KS3.Supervisor.NeverPolled
import KS3.Supervisor.Clients
