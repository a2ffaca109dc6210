import Gopher.Common.IpStr
import Gopher.Elf.ProcSymbs
import Gopher.Elf.SymbCache
import Gopher.Event
import Gopher.Fifo
import Gopher.Imdb.Export.Emission
import Gopher.Imdb.Export.Grammar
import Gopher.Imdb.Export.Page
import Gopher.Imdb.Ingest.Keys
import Gopher.Imdb.Priority
import Gopher.Ingress.Event2Json.Theorems
import Gopher.IoProbe
import Gopher.Ipc.Access
import Gopher.Ipc.Access.Footprint
import Gopher.Ipc.Count
import Gopher.Ipc.Delivery
import Gopher.Kafka
import Gopher.Kafka.Handover.Single
import Gopher.Kafka.Handover.Topics
import Gopher.Kafka.Xdp.Frame
import Gopher.Kern.KernSymb
import Gopher.KsliProbe
import Gopher.L7.BinaryDecoder.Discipline
import Gopher.L7.ConnTable.Tracking
import Gopher.L7.ConnTracker.Dispatch
import Gopher.L7.ConnTracker.Latency
import Gopher.L7.Counters.Theorems
import Gopher.L7.DataStream.Overlay
import Gopher.L7.Histogram.ZeroDivision
import Gopher.L7.Http.Boundary
import Gopher.L7.Http.Frame
import Gopher.L7.Http.Matcher
import Gopher.L7.Inference
import Gopher.L7.KernSock
import Gopher.L7.ParserTables
import Gopher.L7.Pgsql.Decoding
import Gopher.L7.Pgsql.Matcher.Latency
import Gopher.L7.Pgsql.Matcher.Query
import Gopher.L7.Pgsql.Matcher.RecordBuf
import Gopher.L7.Pgsql.Rounds.Theorems
import Gopher.L7.Pgsql.Segmentation
import Gopher.Logs
import Gopher.NsProbe
import Gopher.Probe.Config.Changes
import Gopher.Probe.Fprintf.Theorems
import Gopher.Probe.LifeCycle.Single
import Gopher.Probe.LifeCycle.Stop
import Gopher.Probe.Params.Request
import Gopher.Probe.PodMng.CgrpPath
import Gopher.Probe.PodMng.Filter
import Gopher.Probe.Snooper.ConfArray.Refinement
import Gopher.Probe.Snooper.Entries
import Gopher.Probe.Snooper.Events.Order
import Gopher.Profiling.Batch.Theorems
import Gopher.Profiling.ProcTable
import Gopher.Profiling.Trace.Clock
import Gopher.RedisSli.Theorems
import Gopher.StackProbe
import Gopher.StackProbe.Channel
import Gopher.StackProbe.MemleakFp
import Gopher.StackProbe.PostBuffer
import Gopher.StackProbe.Samples
import Gopher.SystemInfos.Cmdline
import Gopher.SystemInfos.Cpu
import Gopher.SystemInfos.Deltas
import Gopher.SystemInfos.FsTable.Theorems
import Gopher.SystemInfos.NetSegment
import Gopher.SystemInfos.Procs
import Gopher.Tcp.Estab
import Gopher.Tcp.ListenPorts
import Gopher.TcpFd
