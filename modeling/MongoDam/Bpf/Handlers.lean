import MongoDam.Bpf.Chunks

/-!
# The kernel probes

The handlers the loader attaches, each a function of the maps. The ones of the
system calls and of the TLS library remember a call when it is entered and write
its bytes when it returns; the ones of the sockets give the call the key of the
socket it reaches, and write connection records with that key. The user-space
scan that adds processes to the targets stands beside them.
-/

namespace MongoDam.Bpf

open Lib Observer

/-- A socket, and what the handlers read from it. -/
structure Sock where
  /-- The address of the kernel object. -/
  handle : ℕ
  skcDaddr : ℕ
  skcRcvSaddr : ℕ
  skcDport : ℕ
  skcNum : ℕ
  skcFamily : ℕ
  /-- The words of the IPv6 addresses, remote and local, pairwise. -/
  skcV6Words : List (ℕ × ℕ)
  skErr : ℤ
  srttUs : ℕ
  sndWnd : ℕ
  deriving DecidableEq

/-- The system calls the handlers know. -/
inductive Syscall where
  | read | write | pread64 | pwrite64 | readv | writev | sendto | recvfrom | sendmsg | recvmsg
  | fsync | fdatasync | openat
  deriving DecidableEq

inductive TargetArch where
  | x86
  | arm64
  deriving DecidableEq

/-- The system call of a number. -/
def TargetArch.syscall : TargetArch → ℤ → Option Syscall
  | .x86, id => [(0, .read), (1, .write), (17, .pread64), (18, .pwrite64), (19, .readv),
      (20, .writev), (44, .sendto), (45, .recvfrom), (46, .sendmsg), (47, .recvmsg), (74, .fsync),
      (75, .fdatasync), (257, .openat)].lookup id
  | .arm64, id => [(56, .openat), (63, .read), (64, .write), (65, .readv), (66, .writev),
      (67, .pread64), (68, .pwrite64), (82, .fsync), (83, .fdatasync), (206, .sendto),
      (207, .recvfrom), (211, .sendmsg), (212, .recvmsg)].lookup id

/-- The system calls whose bytes are captured. -/
def Syscall.movesBytes : Syscall → Bool
  | .read | .recvfrom | .readv | .recvmsg | .write | .sendto | .writev | .sendmsg => true
  | _ => false

/-- The system calls whose latency is reported. -/
def Syscall.isTimed : Syscall → Bool
  | .pread64 | .pwrite64 | .fsync | .fdatasync | .openat => true
  | _ => false

section Tasks

variable (arch : TargetArch) (rodata : Rodata) (ctx : Context)

def rememberRead (pending : PendingRead) (m : Maps) : Maps :=
  { m with pendingReads := m.pendingReads.update ctx.thread pending }

/-- What a system call on a descriptor leaves behind until it returns. -/
def syscallPending (buffer requested : ℕ) (fd : ℤ) (vectorKind direction : ℕ) : PendingRead where
  buffer
  lengthPointer := 0
  requested
  connectionKey := unsignedFd fd
  fd
  source := SOURCE_SYSCALL
  vectorKind
  isEx := false
  direction
  isNetwork := false

def startLatency (fd : ℤ) (requested operation : ℕ) (m : Maps) : Maps :=
  { m with
    syscallStarts := m.syscallStarts.update ctx.thread ⟨ctx.now, requested, fd, operation⟩ }

/-- The branch of `handle_sys_enter` for one system call. -/
def enterSyscall (fd : ℤ) (args1 args2 : ℕ) : Syscall → Maps → Maps
  | .write | .sendto => rememberRead ctx (syscallPending args1 args2 fd 0 DIRECTION_OUTBOUND)
  | .read | .recvfrom => rememberRead ctx (syscallPending args1 args2 fd 0 DIRECTION_INBOUND)
  | .writev => rememberRead ctx (syscallPending args1 args2 fd 1 DIRECTION_OUTBOUND)
  | .sendmsg => rememberRead ctx (syscallPending args1 args2 fd 2 DIRECTION_OUTBOUND)
  | .readv => rememberRead ctx (syscallPending args1 args2 fd 1 DIRECTION_INBOUND)
  | .recvmsg => rememberRead ctx (syscallPending args1 args2 fd 2 DIRECTION_INBOUND)
  | .pread64 => startLatency ctx fd args2 OP_PREAD
  | .pwrite64 => startLatency ctx fd args2 OP_PWRITE
  | .fsync => startLatency ctx fd 0 OP_FSYNC
  | .fdatasync => startLatency ctx fd 0 OP_FDATASYNC
  | .openat => startLatency ctx (-1) 0 OP_OPENAT

def handleSysEnter (id : ℤ) (args0 args1 args2 : ℕ) (m : Maps) : Maps :=
  if m.isTargetTgid ctx.thread.tgid then
    let m := { m with targetThreads := m.targetThreads.update ctx.thread.pid ctx.thread.tgid }
    if (m.tlsDepth.lookup ctx.thread).isSome then m
    else
      match arch.syscall id with
      | some call => enterSyscall ctx (signed32 (args0 % 2 ^ 32)) args1 args2 call m
      | none => m
  else m

/-- The label of the records of a pending call. -/
def PendingRead.label (pending : PendingRead) (eventType : ℕ) : ChunkLabel :=
  ⟨pending.fd, pending.direction, pending.source, pending.connectionKey, eventType⟩

/-- Write the bytes of a system call that returned `ret`. -/
def finishPending (pending : PendingRead) (ret : ℤ) (m : Maps) : Maps :=
  let label := pending.label (if pending.protocol ≠ 0 then EVENT_DNS_CHUNK else EVENT_IO_CHUNK)
  if pending.vectorKind ≠ 0 then
    if pending.isNetwork then
      submitVectorChunks rodata ctx pending.buffer pending.requested
        (decide (pending.vectorKind = 2)) ret label m
    else m
  else
    let actual :=
      if 0 < ret ∧ (pending.requested : ℤ) < ret then signed64 pending.requested else ret
    if pending.isNetwork then submitChunk rodata ctx pending.buffer actual label m else m

/-- The latency record of a system call that returned. -/
def finishLatency (start : SyscallStart) (ret : ℤ) (m : Maps) : Maps :=
  reserveAndSubmit ctx MAX_VECTOR_CHUNKS
    { reservedEvent ctx [] with
      eventType := EVENT_SYSCALL_LATENCY
      source := SOURCE_KERNEL
      operation := start.operation
      fd := start.fd
      durationNs := sub64 ctx.now start.startedNs
      bytes := start.requested
      result := ret } m

/-- The half of `handle_sys_exit` for the bytes of the call. -/
def exitPending (id ret : ℤ) (m : Maps) : Maps :=
  match m.pendingReads.lookup ctx.thread with
  | some pending =>
    if (arch.syscall id).any Syscall.movesBytes then
      finishPending rodata ctx pending ret
        { m with pendingReads := m.pendingReads.delete ctx.thread }
    else m
  | none => m

/-- The half of `handle_sys_exit` for the latency of the call. -/
def exitTimed (id ret : ℤ) (m : Maps) : Maps :=
  match m.syscallStarts.lookup ctx.thread with
  | some start =>
    if (arch.syscall id).any Syscall.isTimed then
      finishLatency ctx start ret { m with syscallStarts := m.syscallStarts.delete ctx.thread }
    else m
  | none => m

def handleSysExit (id ret : ℤ) (m : Maps) : Maps :=
  if m.isTargetTgid ctx.thread.tgid = false then m
  else if (m.tlsDepth.lookup ctx.thread).isSome then m
  else exitTimed arch ctx id ret (exitPending arch rodata ctx id ret m)

/-- The arguments of a call into the TLS library. -/
structure SslArguments where
  ssl : ℕ
  buffer : ℕ
  requested : ℕ
  /-- The fourth argument, which only the `_ex` functions have. -/
  lengthPointer : ℕ
  deriving DecidableEq

def sslEnter (args : SslArguments) (direction : ℕ) (isEx : Bool) (m : Maps) : Maps :=
  if m.isTargetTgid ctx.thread.tgid then
    let m := { m with tlsDepth := m.tlsDepth.update ctx.thread 1 }
    let fd := (m.sslFds.lookup args.ssl).getD (-1)
    rememberRead ctx
      { buffer := args.buffer
        lengthPointer := if isEx then args.lengthPointer else 0
        requested := args.requested
        connectionKey := if 0 ≤ fd then unsignedFd fd else args.ssl
        fd
        source := SOURCE_OPENSSL
        vectorKind := 0
        isEx
        direction
        isNetwork := true } m
  else m

/-- The number of bytes a call into the TLS library moved, from its return register. -/
def sslActual (isEx : Bool) (lengthPointer rc : ℕ) : ℤ :=
  if isEx then
    if signed64 rc = 1 ∧ lengthPointer ≠ 0 then
      match ctx.memory.probeRead lengthPointer 8 with
      | some reported => signed64 (leNat reported)
      | none => 0
    else 0
  else signed64 rc

def sslExit (direction rc : ℕ) (m : Maps) : Maps :=
  let pending := m.pendingReads.lookup ctx.thread
  let m := { m with tlsDepth := m.tlsDepth.delete ctx.thread }
  match pending with
  | none => m
  | some pending =>
    submitChunk rodata ctx pending.buffer (sslActual ctx pending.isEx pending.lengthPointer rc)
      ⟨pending.fd, direction, SOURCE_OPENSSL, pending.connectionKey, EVENT_IO_CHUNK⟩
      { m with pendingReads := m.pendingReads.delete ctx.thread }

def handleSslSetFd (ssl fd : ℕ) (m : Maps) : Maps :=
  if m.isTargetTgid ctx.thread.tgid then
    { m with sslFds := m.sslFds.update ssl (signed32 (fd % 2 ^ 32)) }
  else m

def handleSslFree (ssl : ℕ) (m : Maps) : Maps := { m with sslFds := m.sslFds.delete ssl }

def handleMutexLockEnter (m : Maps) : Maps :=
  if m.isTargetTgid ctx.thread.tgid then
    { m with lockStarts := m.lockStarts.update ctx.thread ctx.now }
  else m

def handleMutexLockExit (rc : ℕ) (m : Maps) : Maps :=
  match m.lockStarts.lookup ctx.thread with
  | none => m
  | some started =>
    let duration := sub64 ctx.now started
    let m := { m with lockStarts := m.lockStarts.delete ctx.thread }
    if duration < rodata.lockWaitThresholdNs then m
    else
      reserveAndSubmit ctx 0
        { reservedEvent ctx [] with
          eventType := EVENT_PROFILE
          source := SOURCE_USER_UPROBE
          operation := OP_LOCK_WAIT
          durationNs := duration
          result := signed64 rc } m

end Tasks

section Sockets

variable (rodata : Rodata) (ctx : Context)

def mixSocketWord (hash value : ℕ) : ℕ := ((hash ^^^ value) * 1099511628211) % 2 ^ 64

def socketConnectionKey (sk : Sock) : ℕ :=
  let hash := [sk.skcDaddr, sk.skcRcvSaddr, sk.skcDport, sk.skcNum, sk.skcFamily].foldl
    mixSocketWord 1469598103934665603
  let hash := sk.skcV6Words.foldl
    (fun hash words => mixSocketWord (mixSocketWord hash words.1) words.2) hash
  if hash ≠ 0 then hash else 1

def markDnsSocket (sk : Sock) (m : Maps) : Maps :=
  if m.isTargetTgid ctx.thread.tgid then
    { m with
      pendingReads := m.pendingReads.modify ctx.thread fun pending =>
        { pending with connectionKey := socketConnectionKey sk, isNetwork := true, protocol := 1 } }
  else m

/-- The owner `track_socket` stores for a socket. -/
def trackedOwner (sk : Sock) (m : Maps) : SocketOwner :=
  let existing := m.trackedSockets.lookup sk.handle
  let fd := ((m.pendingReads.lookup ctx.thread).map PendingRead.fd).getD (-1)
  { connectionKey := match existing with
      | some owner => owner.connectionKey
      | none => mixSocketWord (socketConnectionKey sk) ctx.now
    tgid := ctx.thread.tgid
    fd := match existing with
      | some owner => if fd < 0 then owner.fd else fd
      | none => fd }

def trackSocket (sk : Sock) (m : Maps) : Maps :=
  if m.isTargetTgid ctx.thread.tgid then
    let owner := trackedOwner ctx sk m
    { m with
      trackedSockets :=
        if sk.handle ≠ 0 then m.trackedSockets.update sk.handle owner else m.trackedSockets
      pendingReads := m.pendingReads.modify ctx.thread fun pending =>
        { pending with
          connectionKey := if sk.handle ≠ 0 then owner.connectionKey else pending.connectionKey
          isNetwork := true } }
  else m

/-- The connection record of a tracked socket. -/
def connectionEvent (owner : SocketOwner) (operation durationNs : ℕ) : KernelEvent :=
  { reservedEvent ctx [] with
    eventType := EVENT_CONNECTION
    source := SOURCE_KERNEL
    operation
    connectionKey := owner.connectionKey
    durationNs
    pid := owner.tgid
    tgid := owner.tgid
    fd := owner.fd }

def submitConnection (place : ℕ) (sk : Sock) (operation durationNs : ℕ) (m : Maps) : Maps :=
  if sk.handle = 0 then m
  else
    match m.trackedSockets.lookup sk.handle with
    | none => m
    | some owner => reserveAndSubmit ctx place (connectionEvent ctx owner operation durationNs) m

def handleTcpConnect (sk : Sock) (m : Maps) : Maps :=
  if m.isTargetTgid ctx.thread.tgid then
    let m := trackSocket ctx sk m
    let m := { m with handshakeStarts := m.handshakeStarts.update sk.handle ctx.now }
    submitConnection ctx 0 sk OP_TCP_CONNECT 0 m
  else m

/-- The branch of `handle_tcp_state` for an established connection. -/
def establishedState (sk : Sock) (m : Maps) : Maps :=
  let started := m.handshakeStarts.lookup sk.handle
  let duration := match started with
    | some start => sub64 ctx.now start
    | none => 0
  let m :=
    if (m.trackedSockets.lookup sk.handle).isSome then
      submitConnection ctx 0 sk OP_TCP_HANDSHAKE duration m
    else
      { m with completedHandshakes := m.completedHandshakes.update sk.handle duration }
  if started.isSome then { m with handshakeStarts := m.handshakeStarts.delete sk.handle } else m

/-- The branch of `handle_tcp_state` for a closed connection. -/
def closedState (sk : Sock) (m : Maps) : Maps :=
  let started := m.handshakeStarts.lookup sk.handle
  let owned := (m.trackedSockets.lookup sk.handle).isSome
  let resetSeen := (m.peerResetsSeen.lookup sk.handle).isSome
  let m :=
    if owned ∧ resetSeen = false ∧ sk.skErr = ECONNRESET_CODE then
      submitConnection ctx 0 sk OP_TCP_RESET_RECEIVED 0 m
    else m
  let m :=
    if owned ∧ sk.skErr = ETIMEDOUT_CODE then
      submitConnection ctx 1 sk OP_TCP_TIMEOUT
        (match started with
          | some start => sub64 ctx.now start
          | none => 0) m
    else m
  { m with
    peerResetsSeen := m.peerResetsSeen.delete sk.handle
    handshakeStarts :=
      if started.isSome then m.handshakeStarts.delete sk.handle else m.handshakeStarts
    completedHandshakes := m.completedHandshakes.delete sk.handle }

def handleTcpState (sk : Sock) (newstate : ℤ) (m : Maps) : Maps :=
  if (m.trackedSockets.lookup sk.handle).isSome = false ∧ sk.skcNum ≠ rodata.mongodbPort then m
  else if newstate = TCP_SYN_SENT_STATE ∨ newstate = TCP_SYN_RECV_STATE then
    { m with handshakeStarts := m.handshakeStarts.update sk.handle ctx.now }
  else if newstate = TCP_ESTABLISHED_STATE then establishedState ctx sk m
  else if newstate = TCP_CLOSE_STATE then closedState ctx sk m
  else m

def handleTcpAccept (sk : Option Sock) (m : Maps) : Maps :=
  match sk with
  | none => m
  | some sk =>
    if m.isTargetTgid ctx.thread.tgid then
      let m := trackSocket ctx sk m
      let m := submitConnection ctx 0 sk OP_TCP_ACCEPT 0 m
      match m.completedHandshakes.lookup sk.handle with
      | some duration =>
        let m := submitConnection ctx 1 sk OP_TCP_HANDSHAKE duration m
        { m with completedHandshakes := m.completedHandshakes.delete sk.handle }
      | none => submitConnection ctx 1 sk OP_TCP_HANDSHAKE 0 m
    else m

def handleTcpClose (sk : Sock) (m : Maps) : Maps :=
  let owner := m.trackedSockets.lookup sk.handle
  let m := { m with
    handshakeStarts := m.handshakeStarts.delete sk.handle
    completedHandshakes := m.completedHandshakes.delete sk.handle }
  if owner.isSome then
    let m := submitConnection ctx 0 sk OP_TCP_CLOSE 0 m
    { m with
      trackedSockets := m.trackedSockets.delete sk.handle
      rttLastEmit := m.rttLastEmit.delete sk.handle
      peerResetsSeen := m.peerResetsSeen.delete sk.handle }
  else m

/-- Whether a round-trip sample is due on a socket. -/
def rttDue (sk : Sock) (m : Maps) : Bool :=
  match m.rttLastEmit.lookup sk.handle with
  | some last => decide (rodata.rttSampleIntervalNs ≤ sub64 ctx.now last)
  | none => true

def handleTcpRtt (sk : Sock) (m : Maps) : Maps :=
  if (m.trackedSockets.lookup sk.handle).isSome ∧ rttDue rodata ctx sk m then
    let m := { m with rttLastEmit := m.rttLastEmit.update sk.handle ctx.now }
    let m := submitConnection ctx 0 sk OP_TCP_RTT (sk.srttUs / 8 * 1000) m
    if sk.sndWnd = 0 then submitConnection ctx 1 sk OP_TCP_ZERO_WINDOW 0 m else m
  else m

def handleTcpRetransmit (sk : Sock) (m : Maps) : Maps :=
  if (m.trackedSockets.lookup sk.handle).isSome then
    submitConnection ctx 0 sk OP_TCP_RETRANSMIT 0 m
  else m

def handleTcpReset (sk : Sock) (m : Maps) : Maps :=
  if (m.trackedSockets.lookup sk.handle).isSome then
    let m := submitConnection ctx 0 sk OP_TCP_RESET_RECEIVED 0 m
    { m with peerResetsSeen := m.peerResetsSeen.update sk.handle 1 }
  else m

def handleTcpActiveReset (sk : Sock) (m : Maps) : Maps :=
  if (m.trackedSockets.lookup sk.handle).isSome then
    submitConnection ctx 0 sk OP_TCP_RESET_SENT 0 m
  else m

end Sockets

section Scheduling

variable (rodata : Rodata) (ctx : Context)

/-- The arguments of a context switch. -/
structure SchedSwitch where
  prevPid : ℕ
  nextPid : ℕ
  nextComm : Bytes
  deriving DecidableEq

def handleSchedSwitch (switch : SchedSwitch) (m : Maps) : Maps :=
  let m :=
    if (m.targetThreads.lookup switch.prevPid).isSome then
      { m with offcpuStarts := m.offcpuStarts.update switch.prevPid ctx.now }
    else m
  match m.offcpuStarts.lookup switch.nextPid, m.targetThreads.lookup switch.nextPid with
  | some started, some tgid =>
    let duration := sub64 ctx.now started
    let m := { m with offcpuStarts := m.offcpuStarts.delete switch.nextPid }
    if duration < rodata.offcpuThresholdNs then m
    else
      reserveAndSubmit ctx 0
        { reservedEvent ctx [] with
          eventType := EVENT_SYSCALL_LATENCY
          source := SOURCE_KERNEL
          operation := OP_OFFCPU
          pid := switch.nextPid
          tgid := tgid
          durationNs := duration
          comm := switch.nextComm } m
  | _, _ => m

/-- `mongod` or `mongos`, ended by a NUL. -/
def isMongodbComm (comm : Bytes) : Bool :=
  comm.take 5 = [109, 111, 110, 103, 111] ∧
    (comm.drop 5 |>.take 2) ∈ [[100, 0], [115, 0]]

/-- The record of a process that started or ended. -/
def processEvent (operation : ℕ) : KernelEvent :=
  { reservedEvent ctx [] with
    eventType := EVENT_PROCESS
    source := SOURCE_KERNEL
    operation }

def handleProcessExec (m : Maps) : Maps :=
  if isMongodbComm ctx.comm then
    reserveAndSubmit ctx 0 (processEvent ctx OP_PROCESS_EXEC)
      { m with
        targetTgids := m.targetTgids.update ctx.thread.tgid 1
        targetThreads := m.targetThreads.update ctx.thread.pid ctx.thread.tgid }
  else m

def handleProcessExit (m : Maps) : Maps :=
  let m := { m with targetThreads := m.targetThreads.delete ctx.thread.pid }
  if ctx.thread.pid ≠ ctx.thread.tgid ∨ m.isTargetTgid ctx.thread.tgid = false then m
  else
    let m := reserveAndSubmit ctx 0 (processEvent ctx OP_PROCESS_EXIT) m
    { m with targetTgids := m.targetTgids.delete ctx.thread.tgid }

def handlePageFaultEnter (m : Maps) : Maps :=
  if m.isTargetTgid ctx.thread.tgid then
    { m with faultStarts := m.faultStarts.update ctx.thread ctx.now }
  else m

def handlePageFaultExit (rc : ℕ) (m : Maps) : Maps :=
  match m.faultStarts.lookup ctx.thread with
  | none => m
  | some started =>
    let duration := sub64 ctx.now started
    let m := { m with faultStarts := m.faultStarts.delete ctx.thread }
    if duration < rodata.pageFaultThresholdNs then m
    else
      reserveAndSubmit ctx 0
        { reservedEvent ctx [] with
          eventType := EVENT_SYSCALL_LATENCY
          source := SOURCE_KERNEL
          operation := OP_PAGE_FAULT
          durationNs := duration
          result := signed64 rc } m

/-- A processor sample, with the identifiers of its stacks. -/
def handleCpuSample (userStack kernelStack : ℤ) (m : Maps) : Maps :=
  if m.isTargetTgid ctx.thread.tgid then
    reserveAndSubmit ctx 0
      { reservedEvent ctx [] with
        eventType := EVENT_PROFILE
        source := SOURCE_PERF
        operation := OP_CPU_SAMPLE
        result := userStack
        fd := kernelStack } m
  else m

/-- The user-space scan found a process to watch. -/
def addTarget (tgid : ℕ) (m : Maps) : Maps :=
  { m with targetTgids := m.targetTgids.update tgid 1 }

end Scheduling

/-- The four functions of the TLS library whose calls are observed. -/
inductive SslCall where
  | read | write | readEx | writeEx
  deriving DecidableEq

def SslCall.direction : SslCall → ℕ
  | .read | .readEx => DIRECTION_INBOUND
  | .write | .writeEx => DIRECTION_OUTBOUND

def SslCall.isEx : SslCall → Bool
  | .read | .write => false
  | .readEx | .writeEx => true

/-- The probes, with what they read from their registers and arguments. -/
inductive Probe where
  | sysEnter (id : ℤ) (args0 args1 args2 : ℕ)
  | sysExit (id ret : ℤ)
  | sslEnter (call : SslCall) (args : SslArguments)
  | sslExit (call : SslCall) (rc : ℕ)
  | sslSetFd (ssl fd : ℕ)
  | sslFree (ssl : ℕ)
  | mutexLockEnter
  | mutexLockExit (rc : ℕ)
  | udpSendmsg (sk : Sock)
  | udpRecvmsg (sk : Sock)
  | udpv6Sendmsg (sk : Sock)
  | udpv6Recvmsg (sk : Sock)
  | tcpSendmsg (sk : Sock)
  | tcpRecvmsg (sk : Sock)
  | tcpConnect (sk : Sock)
  | tcpSetState (sk : Sock) (newstate : ℤ)
  | tcpAccept (sk : Option Sock)
  | tcpClose (sk : Sock)
  | tcpRcvEstablished (sk : Sock)
  | tcpRetransmitSkb (sk : Sock)
  | tcpReset (sk : Sock)
  | tcpSendActiveReset (sk : Sock)
  | schedSwitch (switch : SchedSwitch)
  | processExec
  | processExit
  | pageFaultEnter
  | pageFaultExit (rc : ℕ)
  | cpuSample (userStack kernelStack : ℤ)
  | addTarget (tgid : ℕ)

/-- One firing of a probe. -/
structure Firing where
  ctx : Context
  probe : Probe

/-- The kernel a loader attached the probes to. -/
structure Setup where
  arch : TargetArch := .x86
  rodata : Rodata := {}

/-- The maps after a firing. -/
def fire (setup : Setup) (m : Maps) (f : Firing) : Maps :=
  match f.probe with
  | .sysEnter id args0 args1 args2 => handleSysEnter setup.arch f.ctx id args0 args1 args2 m
  | .sysExit id ret => handleSysExit setup.arch setup.rodata f.ctx id ret m
  | .sslEnter call args => sslEnter f.ctx args call.direction call.isEx m
  | .sslExit call rc => sslExit setup.rodata f.ctx call.direction rc m
  | .sslSetFd ssl fd => handleSslSetFd f.ctx ssl fd m
  | .sslFree ssl => handleSslFree ssl m
  | .mutexLockEnter => handleMutexLockEnter f.ctx m
  | .mutexLockExit rc => handleMutexLockExit setup.rodata f.ctx rc m
  | .udpSendmsg sk | .udpRecvmsg sk | .udpv6Sendmsg sk | .udpv6Recvmsg sk =>
    markDnsSocket f.ctx sk m
  | .tcpSendmsg sk | .tcpRecvmsg sk => trackSocket f.ctx sk m
  | .tcpConnect sk => handleTcpConnect f.ctx sk m
  | .tcpSetState sk newstate => handleTcpState setup.rodata f.ctx sk newstate m
  | .tcpAccept sk => handleTcpAccept f.ctx sk m
  | .tcpClose sk => handleTcpClose f.ctx sk m
  | .tcpRcvEstablished sk => handleTcpRtt setup.rodata f.ctx sk m
  | .tcpRetransmitSkb sk => handleTcpRetransmit f.ctx sk m
  | .tcpReset sk => handleTcpReset f.ctx sk m
  | .tcpSendActiveReset sk => handleTcpActiveReset f.ctx sk m
  | .schedSwitch switch => handleSchedSwitch setup.rodata f.ctx switch m
  | .processExec => handleProcessExec f.ctx m
  | .processExit => handleProcessExit f.ctx m
  | .pageFaultEnter => handlePageFaultEnter f.ctx m
  | .pageFaultExit rc => handlePageFaultExit setup.rodata f.ctx rc m
  | .cpuSample userStack kernelStack => handleCpuSample f.ctx userStack kernelStack m
  | .addTarget tgid => addTarget tgid m

end MongoDam.Bpf
