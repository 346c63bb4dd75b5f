import MongoDam.Lib.BoundedMap
import MongoDam.Observer.Kernel

/-!
# The maps of the kernel probes

The hash maps the eBPF handlers share, with their capacities, and the ring buffer
they write records to. What a firing reads from its surroundings stands in its
context: the current task, the clock, the memory of the user process and whether
the ring buffer has room.
-/

namespace MongoDam.Bpf

open Lib Observer

def MAX_VECTOR_CHUNKS : ℕ := 2
def TCP_ESTABLISHED_STATE : ℤ := 1
def TCP_SYN_SENT_STATE : ℤ := 2
def TCP_SYN_RECV_STATE : ℤ := 3
def TCP_CLOSE_STATE : ℤ := 7
def ECONNRESET_CODE : ℤ := 104
def ETIMEDOUT_CODE : ℤ := 110

def DIRECTION_NONE : ℕ := 0
def DIRECTION_INBOUND : ℕ := 1
def DIRECTION_OUTBOUND : ℕ := 2

def SOURCE_SYSCALL : ℕ := 1
def SOURCE_OPENSSL : ℕ := 2
def SOURCE_KERNEL : ℕ := 3
def SOURCE_PERF : ℕ := 4
def SOURCE_USER_UPROBE : ℕ := 5

def OP_NONE : ℕ := 0

/-- The two halves of `bpf_get_current_pid_tgid`. -/
structure Thread where
  tgid : ℕ
  pid : ℕ
  deriving DecidableEq

/-- An I/O call a thread has entered and not left. -/
structure PendingRead where
  buffer : ℕ
  lengthPointer : ℕ
  requested : ℕ
  connectionKey : ℕ
  fd : ℤ
  source : ℕ
  vectorKind : ℕ
  isEx : Bool
  direction : ℕ
  isNetwork : Bool
  protocol : ℕ := 0
  deriving DecidableEq

structure SyscallStart where
  startedNs : ℕ
  requested : ℕ
  fd : ℤ
  operation : ℕ
  deriving DecidableEq

structure SocketOwner where
  connectionKey : ℕ
  tgid : ℕ
  fd : ℤ
  deriving DecidableEq

/-- Constants the loader sets before the handlers are attached. -/
structure Rodata where
  captureBytes : ℕ := 1024
  mongodbPort : ℕ := 27017
  rttSampleIntervalNs : ℕ := 1000000000
  lockWaitThresholdNs : ℕ := 50000
  pageFaultThresholdNs : ℕ := 100000
  offcpuThresholdNs : ℕ := 1000000

/-- The maps, and the records submitted to the ring buffer. -/
structure Maps where
  targetTgids : BoundedMap 4096 ℕ ℕ := .empty
  targetThreads : BoundedMap 32768 ℕ ℕ := .empty
  pendingReads : BoundedMap 32768 Thread PendingRead := .empty
  syscallStarts : BoundedMap 32768 Thread SyscallStart := .empty
  lockStarts : BoundedMap 32768 Thread ℕ := .empty
  faultStarts : BoundedMap 32768 Thread ℕ := .empty
  offcpuStarts : BoundedMap 32768 ℕ ℕ := .empty
  trackedSockets : BoundedMap 65536 ℕ SocketOwner := .empty
  rttLastEmit : BoundedMap 65536 ℕ ℕ := .empty
  handshakeStarts : BoundedMap 65536 ℕ ℕ := .empty
  completedHandshakes : BoundedMap 65536 ℕ ℕ := .empty
  peerResetsSeen : BoundedMap 65536 ℕ ℕ := .empty
  tlsDepth : BoundedMap 32768 Thread ℕ := .empty
  sslFds : BoundedMap 65536 ℕ ℤ := .empty
  droppedEvents : ℕ := 0
  events : List KernelEvent := []

/-- Reads of user memory by address and length. -/
structure UserMemory where
  probeRead : ℕ → ℕ → Option Bytes
  /-- A read that succeeds returns as many bytes as asked for. -/
  probeRead_length : ∀ {address size : ℕ} {found : Bytes},
    probeRead address size = some found → found.length = size

/-- What one firing reads from its surroundings. A firing reads the clock at one instant. -/
structure Context where
  thread : Thread
  uid : ℕ
  gid : ℕ
  cgroupId : ℕ
  comm : Bytes
  /-- `bpf_ktime_get_ns`. -/
  now : ℕ
  /-- Whether the ring buffer has room at the n-th place of the handler that reserves a record. -/
  ringHasRoom : ℕ → Bool
  /-- What the reserved record held before. -/
  residue : Bytes
  memory : UserMemory

/-- Subtraction of unsigned 64-bit words. -/
def sub64 (a b : ℕ) : ℕ := ((a : ℤ) - b).emod (2 ^ 64) |>.toNat

/-- An unsigned 64-bit word from a descriptor, through 32 bits. -/
def unsignedFd (fd : ℤ) : ℕ := (fd.emod (2 ^ 32)).toNat

namespace Maps

def isTargetTgid (m : Maps) (tgid : ℕ) : Bool := (m.targetTgids.lookup tgid).isSome

def countDrop (m : Maps) : Maps := { m with droppedEvents := (m.droppedEvents + 1) % 2 ^ 64 }

end Maps

/-- The data field of a record whose first bytes were written. -/
def dataField (written residue : Bytes) : Bytes :=
  ((written ++ residue.drop written.length).take MAX_CAPTURE_BYTES).rightpad MAX_CAPTURE_BYTES 0

theorem length_dataField (written residue : Bytes) :
    (dataField written residue).length = MAX_CAPTURE_BYTES := by
  rw [dataField, List.length_rightpad, List.length_take]
  omega

/-- The record `reserve_event` hands out, with its data field. -/
def reservedEvent (ctx : Context) (written : Bytes) : KernelEvent where
  timestampNs := ctx.now
  connectionKey := 0
  cgroupId := ctx.cgroupId
  durationNs := 0
  bytes := 0
  result := 0
  pid := ctx.thread.pid
  tgid := ctx.thread.tgid
  uid := ctx.uid
  gid := ctx.gid
  fd := -1
  capturedLen := 0
  eventType := 0
  direction := DIRECTION_NONE
  source := 0
  operation := OP_NONE
  comm := ctx.comm
  data := dataField written ctx.residue
  data_length := length_dataField ..

/-- Reserve a record at a place of the handler, fill it in and submit it. -/
def reserveAndSubmit (ctx : Context) (place : ℕ) (event : KernelEvent) (m : Maps) : Maps :=
  if ctx.ringHasRoom place then { m with events := m.events ++ [event] } else m.countDrop

/-- The records added to the ring buffer between two states. -/
def submitted (before after : Maps) : List KernelEvent := after.events.drop before.events.length

theorem submitted_of_append {before after : Maps} {added : List KernelEvent}
    (hadded : after.events = before.events ++ added) : submitted before after = added := by
  rw [submitted, hadded, List.drop_left]

end MongoDam.Bpf
