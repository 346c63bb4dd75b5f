import MongoDam.Lib.Table
import MongoDam.Lib.Bytes
import MongoDam.Lib.Double
import MongoDam.Lib.Json
import MongoDam.Protocol.Message
import MongoDam.Observer.Attribution
import MongoDam.Observer.Correlation
import MongoDam.Observer.Identity
import MongoDam.Observer.Isolation
import MongoDam.Observer.Privacy
import MongoDam.Bpf.Chunks
import MongoDam.Bpf.Captures
import MongoDam.Bpf.Intervals
import MongoDam.Observer.StaleBytes
import MongoDam.Bpf.Targets
import MongoDam.Bpf.VectorGaps
import MongoDam.Lib.Codec
import MongoDam.Lib.FileSystem
import MongoDam.Observer.Batch
import MongoDam.Observer.Batcher
import MongoDam.Observer.Capture
import MongoDam.Observer.CheckedChunk
import MongoDam.Observer.Cli
import MongoDam.Observer.Confidence
import MongoDam.Observer.Connections
import MongoDam.Observer.DnsNames
import MongoDam.Observer.DnsAnswers
import MongoDam.Observer.EndToEnd
import MongoDam.Observer.Endpoints
import MongoDam.Observer.Rejection
import MongoDam.Observer.ReplyContents
import MongoDam.Observer.Retention
import MongoDam.Observer.Shutdown
import MongoDam.Observer.SocketTables
import MongoDam.Observer.TcpFigures
import MongoDam.Outpost.Acceptance
import MongoDam.Outpost.Retries
import MongoDam.Pipeline.AtLeastOnce
import MongoDam.Pipeline.Blocking
import MongoDam.Pipeline.Identities
import MongoDam.Pipeline.Ndjson
import MongoDam.Pipeline.ObjectKeys
import MongoDam.Pipeline.Uploads
import MongoDam.Pipeline.Validity
import MongoDam.Protocol.Compression
import MongoDam.Protocol.Convertible
import MongoDam.Protocol.DeleteEncodings
import MongoDam.Protocol.DocumentJson
import MongoDam.Protocol.DocumentSequences
import MongoDam.Protocol.Scram
import MongoDam.Spool.Accounts
import MongoDam.Spool.Capacity
import MongoDam.Spool.Retry
