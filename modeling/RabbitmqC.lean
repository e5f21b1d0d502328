import RabbitmqC.Table.Totality
import RabbitmqC.Framing.PropertiesCopy
import RabbitmqC.Framing.Codegen
import RabbitmqC.Framing.PropertyCodegen
import RabbitmqC.Connection.FrameRoundTrip
import RabbitmqC.Connection.FrameStream
import RabbitmqC.Connection.PayloadReads
import RabbitmqC.Connection.Chunks
import RabbitmqC.Socket.SendRule
import RabbitmqC.Socket.SendDiscipline
import RabbitmqC.Socket.Delivery
import RabbitmqC.Socket.DeadPeer
import RabbitmqC.Socket.Conservation
import RabbitmqC.Socket.ChunkIndependence
import RabbitmqC.Consumer.ConnectionClose
import RabbitmqC.Consumer.Heartbeats
import RabbitmqC.Url.Escapes
import RabbitmqC.Url.Lexer
import RabbitmqC.Url.Accesses
import RabbitmqC.Consumer.HeaderClass
import RabbitmqC.Consumer.MessageMemory
import RabbitmqC.Consumer.Reassembly
import RabbitmqC.Consumer.Listening
import RabbitmqC.Consumer.Recovery
import RabbitmqC.Consumer.Epochs
import RabbitmqC.Consumer.FrameQueue
import RabbitmqC.Framing.Contained
import RabbitmqC.Connection.Progress
import RabbitmqC.Socket.ReadLoops
import RabbitmqC.Socket.PollDeadlines
import RabbitmqC.Login.Capabilities
import RabbitmqC.Login.FrameLimit
import RabbitmqC.Login.ProtocolHeader
import RabbitmqC.Login.Phases
import RabbitmqC.Login.Agreement
import RabbitmqC.Socket.Deadlines
import RabbitmqC.Socket.Survival
import RabbitmqC.Socket.WaitLoop
import RabbitmqC.Socket.Sparing
import RabbitmqC.Login.TimeLeft
import RabbitmqC.Login.Tuning
import RabbitmqC.Login.ErrorPaths
import RabbitmqC.Login.Abort
import RabbitmqC.Login.PropertyPools
import RabbitmqC.Login.Override
import RabbitmqC.Framing.FlagWords
import RabbitmqC.Table.Stored
import RabbitmqC.Publish.LastPart
import RabbitmqC.Publish.Loopback
import RabbitmqC.Memory.PoolRuns
import RabbitmqC.Memory.PoolTable
import RabbitmqC.Memory.PoolGrowth
import RabbitmqC.Tls.Versions
import RabbitmqC.Tls.Connections
import RabbitmqC.Tools.Common
import RabbitmqC.Tools.Consume
import RabbitmqC.Kos.Dump
import RabbitmqC.Table.EntryOrder
import RabbitmqC.Duplex.Calls
import RabbitmqC.Duplex.Sending
import RabbitmqC.Duplex.Pooled
import RabbitmqC.Duplex.Arrivals
import RabbitmqC.Duplex.Endpoints
import RabbitmqC.Duplex.Applications
import RabbitmqC.Consumer.Demultiplexing
import RabbitmqC.Lib.Holdings
import RabbitmqC.Net.Opening
import RabbitmqC.Net.Tls
import RabbitmqC.Net.Lifecycle
import RabbitmqC.Lib.Lines
import RabbitmqC.Tools.Publish
import RabbitmqC.Tools.Pipeline
import RabbitmqC.Memory.Lifetime
import RabbitmqC.Memory.MemoryRuns
