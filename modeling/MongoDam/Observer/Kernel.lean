import MongoDam.Lib.Bytes
import MongoDam.Schema.Events

/-!
# Kernel events and the host

One record of the eBPF ring buffer, the operations it can report, and what the
event processor reads from the host while it handles the record: the clocks and
the answers of `/proc`. The host's answers accompany each event, so that a run is
a list of events with the answers given to them.
-/

namespace MongoDam.Observer

open Lib Schema

def MAX_CAPTURE_BYTES : ℕ := 1024

def EVENT_IO_CHUNK : ℕ := 1
def EVENT_SYSCALL_LATENCY : ℕ := 2
def EVENT_CONNECTION : ℕ := 3
def EVENT_PROFILE : ℕ := 4
def EVENT_PROCESS : ℕ := 5
def EVENT_DNS_CHUNK : ℕ := 6

def OP_PREAD : ℕ := 1
def OP_PWRITE : ℕ := 2
def OP_FSYNC : ℕ := 3
def OP_OPENAT : ℕ := 4
def OP_OFFCPU : ℕ := 5
def OP_TCP_CONNECT : ℕ := 6
def OP_TCP_ACCEPT : ℕ := 7
def OP_TCP_CLOSE : ℕ := 8
def OP_TCP_RTT : ℕ := 9
def OP_TCP_RETRANSMIT : ℕ := 10
def OP_CPU_SAMPLE : ℕ := 11
def OP_FDATASYNC : ℕ := 12
def OP_LOCK_WAIT : ℕ := 13
def OP_PAGE_FAULT : ℕ := 14
def OP_PROCESS_EXEC : ℕ := 15
def OP_PROCESS_EXIT : ℕ := 16
def OP_TCP_HANDSHAKE : ℕ := 17
def OP_TCP_RESET_RECEIVED : ℕ := 18
def OP_TCP_RESET_SENT : ℕ := 19
def OP_TCP_ZERO_WINDOW : ℕ := 20
def OP_TCP_TIMEOUT : ℕ := 21

/-- A record of the ring buffer. -/
structure KernelEvent where
  timestampNs : ℕ
  connectionKey : ℕ
  cgroupId : ℕ
  durationNs : ℕ
  bytes : ℕ
  result : ℤ
  pid : ℕ
  tgid : ℕ
  uid : ℕ
  gid : ℕ
  fd : ℤ
  capturedLen : ℕ
  eventType : ℕ
  direction : ℕ
  source : ℕ
  operation : ℕ
  comm : Bytes
  data : Bytes
  /-- The data field is an array of fixed size. -/
  data_length : data.length = MAX_CAPTURE_BYTES
  deriving DecidableEq

/-- The command name up to its first NUL. -/
def KernelEvent.command (raw : KernelEvent) : String :=
  fromUtf8Lossy (raw.comm.takeWhile (· ≠ 0))

/-- A record with the stacks resolved for it. -/
structure CapturedKernelEvent where
  raw : KernelEvent
  userStackAddresses : List ℕ := []
  kernelStackAddresses : List ℕ := []
  deriving DecidableEq

/-- A connection: process and kernel connection key. -/
abbrev ConnectionKey := ℕ × ℕ

/-- One direction of a connection. -/
abbrev StreamKey := ℕ × ℕ × ℕ

/-- A request on a connection. -/
abbrev PendingKey := ℕ × ℕ × ℤ

/-- A DNS query on a connection. -/
abbrev DnsKey := ℕ × ℕ × ℕ

/-- The connection a record belongs to. -/
def KernelEvent.key (raw : KernelEvent) : ConnectionKey := (raw.tgid, raw.connectionKey)

/-- The order in which a hash map visits its keys. -/
structure VisitOrder (κ : Type) where
  visit : List κ → List κ
  /-- Every key is visited once. -/
  visit_perm : ∀ keys, (visit keys).Perm keys

/-- The host's answers while one record or message is handled. -/
structure Host where
  /-- `OffsetDateTime::now_utc`, in nanoseconds. -/
  nowUtc : ℤ
  /-- `Instant::now`, in nanoseconds. -/
  instant : ℕ
  processExecutable : ℕ → Option String
  processCredentials : ℕ → Option (ℕ × ℕ)
  processCommand : ℕ → Option String
  podUid : ℕ → Option String
  resolveSocketEndpoints : ℕ → ℤ → Option (NetworkEndpoint × NetworkEndpoint)
  pendingOrder : VisitOrder PendingKey

/-- Configuration of the event processor. -/
structure ProcessorConfig where
  customerId : String
  tenantId : String
  sourceId : String
  regionalCellId : String
  sensorId : String
  nodeName : String
  clusterName : String
  maxMessageBytes : ℕ
  cpuProfileHz : ℕ
  principalHashSalt : Option String
  captureQueryContent : Bool
  deriving DecidableEq

def captureSource (source : ℕ) : CaptureSource :=
  match source with
  | 1 => .cleartextSyscall
  | 2 => .openSslUprobe
  | 3 => .kernelTracepoint
  | 4 => .perfEvent
  | 5 => .userUprobe
  | _ => .sensor

end MongoDam.Observer
