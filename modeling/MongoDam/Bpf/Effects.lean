import MongoDam.Bpf.Waits

/-!
# What the probes leave alone

A connection key lives in three maps: the pending calls, the depth of the TLS
library and the tracked sockets. Most handlers write to none of them, and the
records they add are of other types. The socket handlers write records with the
key of the tracked socket. What remains are the handlers that enter and leave a
call and the one that tracks a socket, each with a description of its own.
-/

namespace MongoDam.Bpf

open Lib Observer

/-- The three maps that hold connection keys are the same. -/
structure SameKeys (m m' : Maps) : Prop where
  pendingReads : m'.pendingReads = m.pendingReads
  tlsDepth : m'.tlsDepth = m.tlsDepth
  trackedSockets : m'.trackedSockets = m.trackedSockets

theorem SameKeys.refl (m : Maps) : SameKeys m m := ⟨rfl, rfl, rfl⟩

theorem SameKeys.trans {m m' m'' : Maps} (hfirst : SameKeys m m') (hsecond : SameKeys m' m'') :
    SameKeys m m'' :=
  ⟨hsecond.pendingReads.trans hfirst.pendingReads, hsecond.tlsDepth.trans hfirst.tlsDepth,
    hsecond.trackedSockets.trans hfirst.trackedSockets⟩

/-- The records added between two states have a property. -/
def Adds (P : KernelEvent → Prop) (m m' : Maps) : Prop :=
  ∃ added, m'.events = m.events ++ added ∧ ∀ event ∈ added, P event

namespace Adds

variable {P Q : KernelEvent → Prop} {m m' m'' : Maps}

theorem of_events_eq (hevents : m'.events = m.events) : Adds P m m' :=
  ⟨[], by rw [hevents, List.append_nil], fun _ h => absurd h List.not_mem_nil⟩

theorem trans (hfirst : Adds P m m') (hsecond : Adds P m' m'') : Adds P m m'' := by
  obtain ⟨added, hadded, hP⟩ := hfirst
  obtain ⟨later, hlater, hQ⟩ := hsecond
  refine ⟨added ++ later, by rw [hlater, hadded, List.append_assoc], ?_⟩
  intro event hevent
  exact (List.mem_append.mp hevent).elim (hP event) (hQ event)

theorem imp (hadds : Adds P m m') (himp : ∀ event, P event → Q event) : Adds Q m m' := by
  obtain ⟨added, hadded, hP⟩ := hadds
  exact ⟨added, hadded, fun event hevent => himp event (hP event hevent)⟩

theorem of_mem_submitted (hadds : Adds P m m') {event : KernelEvent}
    (hevent : event ∈ submitted m m') : P event := by
  obtain ⟨added, hadded, hP⟩ := hadds
  rw [submitted_of_append hadded] at hevent
  exact hP event hevent

end Adds

/-- A step that keeps the keys and adds only records with a property. -/
structure Writes (P : KernelEvent → Prop) (m m' : Maps) : Prop where
  same : SameKeys m m'
  adds : Adds P m m'

namespace Writes

variable {P Q : KernelEvent → Prop} {m m' m'' : Maps}

theorem of_events_eq (hsame : SameKeys m m') (hevents : m'.events = m.events) : Writes P m m' :=
  ⟨hsame, .of_events_eq hevents⟩

theorem refl (m : Maps) : Writes P m m := of_events_eq (.refl m) rfl

theorem trans (hfirst : Writes P m m') (hsecond : Writes P m' m'') : Writes P m m'' :=
  ⟨hfirst.same.trans hsecond.same, hfirst.adds.trans hsecond.adds⟩

theorem imp (hwrites : Writes P m m') (himp : ∀ event, P event → Q event) : Writes Q m m' :=
  ⟨hwrites.same, hwrites.adds.imp himp⟩

end Writes

section Records

variable (ctx : Context) (place : ℕ)

theorem writes_reserveAndSubmit {P : KernelEvent → Prop} {event : KernelEvent} (hevent : P event)
    (m : Maps) : Writes P m (reserveAndSubmit ctx place event m) := by
  unfold reserveAndSubmit
  split
  · refine ⟨⟨rfl, rfl, rfl⟩, [event], rfl, ?_⟩
    intro added hadded
    rwa [List.mem_singleton.mp hadded]
  · exact .of_events_eq ⟨rfl, rfl, rfl⟩ rfl

/-- The record has the key and the type of the label. -/
def HasLabel (label : ChunkLabel) (event : KernelEvent) : Prop :=
  event.connectionKey = label.connectionKey ∧ event.eventType = label.eventType

variable (label : ChunkLabel)

theorem writes_submitChunkLimited (buffer : ℕ) (actual : ℤ) (limit : ℕ) (m : Maps) :
    Writes (HasLabel label) m (submitChunkLimited ctx place buffer actual label limit m) := by
  simp only [submitChunkLimited]
  split
  · exact .refl m
  · split
    · split
      · exact .refl m
      · refine ⟨⟨rfl, rfl, rfl⟩, [_], rfl, ?_⟩
        intro event hevent
        rw [List.mem_singleton.mp hevent]
        exact ⟨rfl, rfl⟩
    · exact .of_events_eq ⟨rfl, rfl, rfl⟩ rfl

/-- A call that moved no bytes submits nothing. -/
theorem submitChunk_of_nonpos {rodata : Rodata} {buffer : ℕ} {actual : ℤ} {m : Maps}
    (hactual : actual ≤ 0) : submitChunk rodata ctx buffer actual label m = m := by
  rw [submitChunk, submitChunkLimited, if_pos (.inl hactual)]

private theorem writes_vectorLoop (array count : ℕ) :
    ∀ (slots index remaining budget : ℕ) (m : Maps),
      Writes (HasLabel label) m (vectorLoop ctx label array count slots index remaining budget m)
  | 0, _, _, _, m => .refl m
  | slots + 1, index, remaining, budget, m => by
    rw [vectorLoop]
    split
    · exact .refl m
    · split
      · exact .refl m
      · next iov _ =>
        dsimp only
        generalize (if remaining < iov.iovLen then remaining else iov.iovLen) = segment
        generalize (if segment < budget then segment else budget) = copied
        by_cases hempty : segment = 0
        · rw [if_pos hempty]
          exact writes_vectorLoop array count slots _ _ _ m
        · rw [if_neg hempty]
          have hsubmit := writes_submitChunkLimited ctx index label iov.iovBase
            (reportedSegment index segment copied (remaining - segment) (budget - copied)) copied m
          split
          · exact hsubmit
          · exact hsubmit.trans (writes_vectorLoop array count slots _ _ _ _)

theorem writes_submitVectorChunks (rodata : Rodata) (pointer countHint : ℕ) (isMsghdr : Bool)
    (actual : ℤ) (m : Maps) :
    Writes (HasLabel label) m
      (submitVectorChunks rodata ctx pointer countHint isMsghdr actual label m) := by
  simp only [submitVectorChunks]
  split
  · exact .refl m
  · split
    · exact .refl m
    · exact writes_vectorLoop ctx label _ _ _ _ _ _ m

end Records

/-- Records that are neither I/O chunks nor connection records. -/
def Unrelated (event : KernelEvent) : Prop :=
  event.eventType ≠ EVENT_IO_CHUNK ∧ event.eventType ≠ EVENT_CONNECTION

theorem Unrelated.of_type {event : KernelEvent} (type : ℕ) (htype : event.eventType = type)
    (hother : type ≠ EVENT_IO_CHUNK ∧ type ≠ EVENT_CONNECTION) : Unrelated event := by
  rw [Unrelated, htype]
  exact hother

section Unrelated

variable (rodata : Rodata) (ctx : Context) (m : Maps)

theorem writes_enterWait (w : Wait) : Writes Unrelated m (w.handleEnter ctx m) := by
  unfold Wait.handleEnter
  split
  · cases w <;> exact .of_events_eq ⟨rfl, rfl, rfl⟩ rfl
  · exact .refl m

theorem writes_exitWait (w : Wait) (rc : ℕ) :
    Writes Unrelated m (w.handleExit rodata ctx rc m) := by
  have hstore (starts : BoundedMap 32768 Thread ℕ) : Writes Unrelated m (w.store starts m) := by
    cases w <;> exact .of_events_eq ⟨rfl, rfl, rfl⟩ rfl
  have hunrelated (started : ℕ) : Unrelated (w.event ctx started rc) := by
    cases w with
    | lock => exact .of_type EVENT_PROFILE rfl (by decide)
    | pageFault => exact .of_type EVENT_SYSCALL_LATENCY rfl (by decide)
  simp only [Wait.handleExit]
  split
  · exact .refl m
  · split
    · exact hstore _
    · exact (hstore _).trans (writes_reserveAndSubmit ctx 0 (hunrelated _) _)

theorem writes_handleSchedSwitch (switch : SchedSwitch) :
    Writes Unrelated m (handleSchedSwitch rodata ctx switch m) := by
  have hprev : Writes Unrelated m
      (if (m.targetThreads.lookup switch.prevPid).isSome then
        { m with offcpuStarts := m.offcpuStarts.update switch.prevPid ctx.now } else m) := by
    split <;> exact .of_events_eq ⟨rfl, rfl, rfl⟩ rfl
  simp only [handleSchedSwitch]
  generalize (if (m.targetThreads.lookup switch.prevPid).isSome then
    { m with offcpuStarts := m.offcpuStarts.update switch.prevPid ctx.now } else m) = m'
    at hprev ⊢
  split
  · refine hprev.trans ?_
    split
    · exact .of_events_eq ⟨rfl, rfl, rfl⟩ rfl
    · refine Writes.trans ?_ (writes_reserveAndSubmit ctx 0
        (Unrelated.of_type EVENT_SYSCALL_LATENCY rfl (by decide)) _)
      exact .of_events_eq ⟨rfl, rfl, rfl⟩ rfl
  · exact hprev

theorem writes_handleProcessExec : Writes Unrelated m (handleProcessExec ctx m) := by
  unfold handleProcessExec
  split
  · refine Writes.trans ?_ (writes_reserveAndSubmit ctx 0
      (Unrelated.of_type EVENT_PROCESS rfl (by decide)) _)
    exact .of_events_eq ⟨rfl, rfl, rfl⟩ rfl
  · exact .refl m

theorem writes_handleProcessExit : Writes Unrelated m (handleProcessExit ctx m) := by
  have hthread : Writes Unrelated m
      { m with targetThreads := m.targetThreads.delete ctx.thread.pid } :=
    .of_events_eq ⟨rfl, rfl, rfl⟩ rfl
  simp only [handleProcessExit]
  split
  · exact hthread
  · exact hthread.trans (.trans
      (writes_reserveAndSubmit ctx 0 (Unrelated.of_type EVENT_PROCESS rfl (by decide)) _)
      (.of_events_eq ⟨rfl, rfl, rfl⟩ rfl))

theorem writes_handleCpuSample (userStack kernelStack : ℤ) :
    Writes Unrelated m (handleCpuSample ctx userStack kernelStack m) := by
  unfold handleCpuSample
  split
  · exact writes_reserveAndSubmit ctx 0 (Unrelated.of_type EVENT_PROFILE rfl (by decide)) m
  · exact .refl m

theorem writes_addTarget (tgid : ℕ) : Writes Unrelated m (addTarget tgid m) :=
  .of_events_eq ⟨rfl, rfl, rfl⟩ rfl

theorem writes_handleSslSetFd (ssl fd : ℕ) : Writes Unrelated m (handleSslSetFd ctx ssl fd m) := by
  unfold handleSslSetFd
  split <;> exact .of_events_eq ⟨rfl, rfl, rfl⟩ rfl

theorem writes_handleSslFree (ssl : ℕ) : Writes Unrelated m (handleSslFree ssl m) :=
  .of_events_eq ⟨rfl, rfl, rfl⟩ rfl

theorem writes_finishLatency (start : SyscallStart) (ret : ℤ) :
    Writes Unrelated m (finishLatency ctx start ret m) :=
  writes_reserveAndSubmit ctx _ (Unrelated.of_type EVENT_SYSCALL_LATENCY rfl (by decide)) m

end Unrelated

/-- A connection record with the key of an owner. -/
def OfOwner (owner : Option SocketOwner) (event : KernelEvent) : Prop :=
  event.eventType = EVENT_CONNECTION ∧ ∃ o ∈ owner, event.connectionKey = o.connectionKey

section Sockets

variable (rodata : Rodata) (ctx : Context) (sk : Sock)

/-- A connection record takes its key from the tracked socket. -/
theorem writes_submitConnection (place operation durationNs : ℕ) (m : Maps) :
    Writes (OfOwner (m.trackedSockets.lookup sk.handle)) m
      (submitConnection ctx place sk operation durationNs m) := by
  unfold submitConnection
  split
  · exact .refl m
  · split
    · exact .refl m
    · next owner howner =>
      exact writes_reserveAndSubmit ctx place ⟨rfl, owner, howner, rfl⟩ m

/-- A handler that only reports on a socket. -/
abbrev Reports (m m' : Maps) : Prop :=
  Writes (OfOwner (m.trackedSockets.lookup sk.handle)) m m'

variable {sk} in
private theorem Reports.trans {m m' m'' : Maps} (hfirst : Reports sk m m')
    (hsecond : Reports sk m' m'') : Reports sk m m'' := by
  have htracked := hfirst.same.trackedSockets
  rw [Reports, htracked] at hsecond
  exact Writes.trans hfirst hsecond

private theorem establishedState_reports (m : Maps) : Reports sk m (establishedState ctx sk m) := by
  have hsubmit := fun durationNs =>
    writes_submitConnection ctx sk 0 OP_TCP_HANDSHAKE durationNs m
  simp only [establishedState]
  split
  · split
    · exact Writes.trans (hsubmit _) (.of_events_eq ⟨rfl, rfl, rfl⟩ rfl)
    · exact .of_events_eq ⟨rfl, rfl, rfl⟩ rfl
  · split
    · exact hsubmit _
    · exact .of_events_eq ⟨rfl, rfl, rfl⟩ rfl

private theorem reports_ite {m : Maps} {c : Prop} [Decidable c] (place operation durationNs : ℕ) :
    Reports sk m (if c then submitConnection ctx place sk operation durationNs m else m) := by
  split
  · exact writes_submitConnection ctx sk place operation durationNs m
  · exact .refl m

private theorem closedState_reports (m : Maps) : Reports sk m (closedState ctx sk m) := by
  simp only [closedState]
  exact (reports_ite ctx sk 0 OP_TCP_RESET_RECEIVED 0).trans
    (.trans (reports_ite ctx sk 1 OP_TCP_TIMEOUT _) (.of_events_eq ⟨rfl, rfl, rfl⟩ rfl))

theorem handleTcpState_reports (newstate : ℤ) (m : Maps) :
    Reports sk m (handleTcpState rodata ctx sk newstate m) := by
  unfold handleTcpState
  split
  · exact .refl m
  · split
    · exact .of_events_eq ⟨rfl, rfl, rfl⟩ rfl
    · split
      · exact establishedState_reports ctx sk m
      · split
        · exact closedState_reports ctx sk m
        · exact .refl m

theorem handleTcpRtt_reports (m : Maps) : Reports sk m (handleTcpRtt rodata ctx sk m) := by
  simp only [handleTcpRtt]
  split
  · have hupdate : Reports sk m
        { m with rttLastEmit := m.rttLastEmit.update sk.handle ctx.now } :=
      .of_events_eq ⟨rfl, rfl, rfl⟩ rfl
    have hsample := hupdate.trans (writes_submitConnection ctx sk 0 OP_TCP_RTT
      (sk.srttUs / 8 * 1000) _)
    split
    · exact hsample.trans (writes_submitConnection ctx sk 1 OP_TCP_ZERO_WINDOW 0 _)
    · exact hsample
  · exact .refl m

theorem handleTcpRetransmit_reports (m : Maps) : Reports sk m (handleTcpRetransmit ctx sk m) :=
  reports_ite ctx sk 0 OP_TCP_RETRANSMIT 0

theorem handleTcpReset_reports (m : Maps) : Reports sk m (handleTcpReset ctx sk m) := by
  simp only [handleTcpReset]
  split
  · exact Writes.trans (writes_submitConnection ctx sk 0 OP_TCP_RESET_RECEIVED 0 m)
      (.of_events_eq ⟨rfl, rfl, rfl⟩ rfl)
  · exact .refl m

theorem handleTcpActiveReset_reports (m : Maps) : Reports sk m (handleTcpActiveReset ctx sk m) :=
  reports_ite ctx sk 0 OP_TCP_RESET_SENT 0

/-- A connection attempt tracks the socket and reports on it. -/
theorem handleTcpConnect_reports {m : Maps} (htarget : m.isTargetTgid ctx.thread.tgid = true) :
    Reports sk (trackSocket ctx sk m) (handleTcpConnect ctx sk m) := by
  have hstart : Reports sk (trackSocket ctx sk m)
      { trackSocket ctx sk m with
        handshakeStarts := (trackSocket ctx sk m).handshakeStarts.update sk.handle ctx.now } :=
    .of_events_eq ⟨rfl, rfl, rfl⟩ rfl
  rw [handleTcpConnect, if_pos htarget]
  exact hstart.trans (writes_submitConnection ctx sk 0 OP_TCP_CONNECT 0 _)

/-- An accepted connection is tracked and reported. -/
theorem handleTcpAccept_reports {m : Maps} (htarget : m.isTargetTgid ctx.thread.tgid = true) :
    Reports sk (trackSocket ctx sk m) (handleTcpAccept ctx (some sk) m) := by
  have haccept := writes_submitConnection ctx sk 0 OP_TCP_ACCEPT 0 (trackSocket ctx sk m)
  simp only [handleTcpAccept, if_pos htarget]
  split
  · next duration _ =>
    refine Reports.trans haccept (Writes.trans
      (writes_submitConnection ctx sk 1 OP_TCP_HANDSHAKE duration _) ?_)
    exact .of_events_eq ⟨rfl, rfl, rfl⟩ rfl
  · exact Reports.trans haccept (writes_submitConnection ctx sk 1 OP_TCP_HANDSHAKE 0 _)

/-- Closing a socket reports on it and then forgets it. -/
theorem handleTcpClose_spec (m : Maps) :
    (handleTcpClose ctx sk m).pendingReads = m.pendingReads ∧
      (handleTcpClose ctx sk m).tlsDepth = m.tlsDepth ∧
      (handleTcpClose ctx sk m).trackedSockets.lookup sk.handle = none ∧
      (∀ handle, handle ≠ sk.handle → (handleTcpClose ctx sk m).trackedSockets.lookup handle =
        m.trackedSockets.lookup handle) ∧
      Adds (OfOwner (m.trackedSockets.lookup sk.handle)) m (handleTcpClose ctx sk m) := by
  let swept := { m with
    handshakeStarts := m.handshakeStarts.delete sk.handle
    completedHandshakes := m.completedHandshakes.delete sk.handle }
  have hswept : Reports sk m swept := .of_events_eq ⟨rfl, rfl, rfl⟩ rfl
  have hreport : Reports sk m (submitConnection ctx 0 sk OP_TCP_CLOSE 0 swept) :=
    hswept.trans (writes_submitConnection ctx sk 0 OP_TCP_CLOSE 0 swept)
  simp only [handleTcpClose]
  by_cases howned : (m.trackedSockets.lookup sk.handle).isSome
  · rw [if_pos howned]
    refine ⟨hreport.same.pendingReads, hreport.same.tlsDepth, BoundedMap.lookup_delete_self _ _,
      ?_, hreport.adds⟩
    intro handle hother
    rw [BoundedMap.lookup_delete_of_ne _ hother]
    exact congrArg (·.lookup handle) hreport.same.trackedSockets
  · rw [if_neg howned]
    refine ⟨rfl, rfl, ?_, fun _ _ => rfl, .of_events_eq rfl⟩
    simpa using howned

end Sockets

section Tasks

variable {arch : TargetArch} {rodata : Rodata} {ctx : Context} {sk : Sock} {m : Maps}

variable (ctx sk m) in
/-- Tracking a socket writes no record and leaves the other threads and sockets alone. -/
theorem trackSocket_frame :
    (trackSocket ctx sk m).tlsDepth = m.tlsDepth ∧ (trackSocket ctx sk m).events = m.events ∧
      (∀ thread, thread ≠ ctx.thread → (trackSocket ctx sk m).pendingReads.lookup thread =
        m.pendingReads.lookup thread) ∧
      (∀ handle, handle ≠ sk.handle → (trackSocket ctx sk m).trackedSockets.lookup handle =
        m.trackedSockets.lookup handle) := by
  unfold trackSocket
  by_cases htarget : m.isTargetTgid ctx.thread.tgid = true
  · rw [if_pos htarget]
    refine ⟨rfl, rfl, fun thread hother => BoundedMap.lookup_modify_of_ne _ _ hother, ?_⟩
    intro handle hother
    by_cases hhandle : sk.handle ≠ 0
    · simp only [if_pos hhandle]
      exact BoundedMap.lookup_update_of_ne _ _ hother
    · simp only [if_neg hhandle]
  · rw [if_neg htarget]
    exact ⟨rfl, rfl, fun _ _ => rfl, fun _ _ => rfl⟩

/-- A tracked socket keeps its key. -/
theorem trackedOwner_connectionKey {owner : SocketOwner}
    (howner : m.trackedSockets.lookup sk.handle = some owner) :
    (trackedOwner ctx sk m).connectionKey = owner.connectionKey := by
  simp only [trackedOwner, howner]

/-- The owner is stored, and the call of the thread gets its key. -/
theorem trackSocket_of_target (htarget : m.isTargetTgid ctx.thread.tgid = true)
    (hhandle : sk.handle ≠ 0) :
    (m.trackedSockets.accepts sk.handle = true →
      (trackSocket ctx sk m).trackedSockets.lookup sk.handle = some (trackedOwner ctx sk m)) ∧
    ∀ pending, (trackSocket ctx sk m).pendingReads.lookup ctx.thread = some pending →
      pending.connectionKey = (trackedOwner ctx sk m).connectionKey := by
  rw [trackSocket, if_pos htarget]
  simp only [if_pos hhandle]
  refine ⟨fun haccepts => BoundedMap.lookup_update_self haccepts _, ?_⟩
  intro pending hpending
  rw [BoundedMap.lookup_modify_self] at hpending
  obtain ⟨before, _, rfl⟩ := Option.map_eq_some_iff.mp hpending
  rfl

/-- Outside the target processes nothing is tracked. -/
theorem trackSocket_of_not_target (htarget : m.isTargetTgid ctx.thread.tgid = false) :
    trackSocket ctx sk m = m := by
  rw [trackSocket, if_neg (by simp [htarget])]

/-- What a handler of one thread can do to the calls and the depths of the others: nothing. -/
structure OwnThread (ctx : Context) (m m' : Maps) : Prop where
  pendingReads : ∀ thread, thread ≠ ctx.thread →
    m'.pendingReads.lookup thread = m.pendingReads.lookup thread
  tlsDepth : ∀ thread, thread ≠ ctx.thread →
    m'.tlsDepth.lookup thread = m.tlsDepth.lookup thread
  trackedSockets : m'.trackedSockets = m.trackedSockets

theorem SameKeys.ownThread {m' : Maps} (hsame : SameKeys m m') : OwnThread ctx m m' where
  pendingReads _ _ := by rw [hsame.pendingReads]
  tlsDepth _ _ := by rw [hsame.tlsDepth]
  trackedSockets := hsame.trackedSockets

theorem OwnThread.trans {m' m'' : Maps} (hfirst : OwnThread ctx m m')
    (hsecond : OwnThread ctx m' m'') : OwnThread ctx m m'' where
  pendingReads thread hother :=
    (hsecond.pendingReads thread hother).trans (hfirst.pendingReads thread hother)
  tlsDepth thread hother := (hsecond.tlsDepth thread hother).trans (hfirst.tlsDepth thread hother)
  trackedSockets := hsecond.trackedSockets.trans hfirst.trackedSockets

theorem markDnsSocket_ownThread : OwnThread ctx m (markDnsSocket ctx sk m) := by
  unfold markDnsSocket
  split
  · exact ⟨fun _ hother => BoundedMap.lookup_modify_of_ne _ _ hother, fun _ _ => rfl, rfl⟩
  · exact ⟨fun _ _ => rfl, fun _ _ => rfl, rfl⟩

theorem markDnsSocket_events : (markDnsSocket ctx sk m).events = m.events := by
  unfold markDnsSocket
  split <;> rfl

theorem rememberRead_ownThread (pending : PendingRead) :
    OwnThread ctx m (rememberRead ctx pending m) where
  pendingReads _ hother := BoundedMap.lookup_update_of_ne _ _ hother
  tlsDepth _ _ := rfl
  trackedSockets := rfl

/-- Entering a system call that moves no bytes starts the clock. -/
private theorem enterSyscall_of_not_movesBytes (ctx : Context) {call : Syscall}
    (hmoves : call.movesBytes = false) (fd : ℤ) (args1 args2 : ℕ) (m : Maps) :
    ∃ (descriptor : ℤ) (requested operation : ℕ),
      enterSyscall ctx fd args1 args2 call m =
        startLatency ctx descriptor requested operation m := by
  cases call with
  | pread64 | pwrite64 | fsync | fdatasync | openat => exact ⟨_, _, _, rfl⟩
  | read | write | readv | writev | sendto | recvfrom | sendmsg | recvmsg => cases hmoves

/-- Entering a system call that moves bytes remembers it, not yet as one of the network. -/
private theorem enterSyscall_of_movesBytes (ctx : Context) {call : Syscall}
    (hmoves : call.movesBytes = true) (fd : ℤ) (args1 args2 : ℕ) (m : Maps) :
    ∃ pending : PendingRead, pending.isNetwork = false ∧
      enterSyscall ctx fd args1 args2 call m = rememberRead ctx pending m := by
  cases call with
  | pread64 | pwrite64 | fsync | fdatasync | openat => cases hmoves
  | read | write | readv | writev | sendto | recvfrom | sendmsg | recvmsg =>
    exact ⟨syscallPending args1 args2 fd _ _, rfl, rfl⟩

/-- The system call of a number moves bytes. -/
def TargetArch.movesBytes (arch : TargetArch) (id : ℤ) : Bool :=
  (arch.syscall id).any Syscall.movesBytes

variable (arch ctx m) in
/-- Entering a system call keeps the pending call, unless it is a call of its own that moves
bytes, outside the TLS library. -/
theorem handleSysEnter_cases (id : ℤ) (args0 args1 args2 : ℕ) : ∃ m', SameKeys m m' ∧
    m'.events = m.events ∧
      (((m.isTargetTgid ctx.thread.tgid = false ∨ (m.tlsDepth.lookup ctx.thread).isSome ∨
          arch.movesBytes id = false) ∧ handleSysEnter arch ctx id args0 args1 args2 m = m') ∨
        (m.tlsDepth.lookup ctx.thread = none ∧ arch.movesBytes id = true ∧
          ∃ pending : PendingRead, pending.isNetwork = false ∧
            handleSysEnter arch ctx id args0 args1 args2 m = rememberRead ctx pending m')) := by
  by_cases htarget : m.isTargetTgid ctx.thread.tgid = true
  swap
  · exact ⟨m, .refl m, rfl, .inl ⟨.inl (by simpa using htarget), by
      rw [handleSysEnter, if_neg htarget]⟩⟩
  let m₁ := { m with targetThreads := m.targetThreads.update ctx.thread.pid ctx.thread.tgid }
  have hsame : SameKeys m m₁ := ⟨rfl, rfl, rfl⟩
  rw [handleSysEnter, if_pos htarget]
  by_cases hdepth : (m.tlsDepth.lookup ctx.thread).isSome
  · exact ⟨m₁, hsame, rfl, .inl ⟨.inr (.inl hdepth), if_pos hdepth⟩⟩
  have hopen : m.tlsDepth.lookup ctx.thread = none := by simpa using hdepth
  simp only [if_neg hdepth]
  cases hcall : arch.syscall id with
  | none =>
    exact ⟨m₁, hsame, rfl, .inl ⟨.inr (.inr (by simp [TargetArch.movesBytes, hcall])), rfl⟩⟩
  | some call =>
    have hmoves : arch.movesBytes id = call.movesBytes := by simp [TargetArch.movesBytes, hcall]
    cases hcallMoves : call.movesBytes with
    | false =>
      obtain ⟨fd, requested, operation, henter⟩ := enterSyscall_of_not_movesBytes
        ctx hcallMoves (signed32 (args0 % 2 ^ 32)) args1 args2 m₁
      exact ⟨startLatency ctx fd requested operation m₁, ⟨rfl, rfl, rfl⟩, rfl,
        .inl ⟨.inr (.inr (hmoves.trans hcallMoves)), henter⟩⟩
    | true =>
      obtain ⟨pending, hnetwork, henter⟩ := enterSyscall_of_movesBytes
        ctx hcallMoves (signed32 (args0 % 2 ^ 32)) args1 args2 m₁
      exact ⟨m₁, hsame, rfl, .inr ⟨hopen, hmoves.trans hcallMoves, pending, hnetwork, henter⟩⟩

/-- A record a system call may submit on its return: one of its own bytes, with the key of the
pending call, or a latency. -/
def OfPending (pending : Option PendingRead) (event : KernelEvent) : Prop :=
  event.eventType ≠ EVENT_CONNECTION ∧ (event.eventType = EVENT_IO_CHUNK →
    ∃ p ∈ pending, p.isNetwork = true ∧ event.connectionKey = p.connectionKey)

variable (rodata ctx) in
private theorem writes_finishPending (pending : PendingRead) (ret : ℤ) (m : Maps) :
    Writes (OfPending (some pending)) m (finishPending rodata ctx pending ret m) := by
  have hlabel : ∀ event, pending.isNetwork = true →
      HasLabel (pending.label
        (if pending.protocol ≠ 0 then EVENT_DNS_CHUNK else EVENT_IO_CHUNK)) event →
      OfPending (some pending) event := by
    rintro event hnetwork ⟨hkey, htype⟩
    refine ⟨?_, fun _ => ⟨pending, rfl, hnetwork, hkey⟩⟩
    rw [htype, PendingRead.label]
    dsimp only
    split <;> decide
  simp only [finishPending]
  split
  · split
    · next hnetwork =>
      exact (writes_submitVectorChunks ctx _ rodata _ _ _ _ m).imp fun event =>
        hlabel event hnetwork
    · exact .refl m
  · split
    · next hnetwork =>
      exact (writes_submitChunkLimited ctx 0 _ _ _ _ m).imp fun event => hlabel event hnetwork
    · exact .refl m

variable (arch ctx) in
/-- The latency of a call touches no key. -/
private theorem writes_exitTimed (id ret : ℤ) (m : Maps) :
    Writes Unrelated m (exitTimed arch ctx id ret m) := by
  simp only [exitTimed]
  split
  · split
    · refine Writes.trans ?_ (writes_finishLatency ctx _ _ ret)
      exact .of_events_eq ⟨rfl, rfl, rfl⟩ rfl
    · exact .refl m
  · exact .refl m

variable (rodata ctx) in
/-- A system call that moves bytes takes its pending call with it. -/
private theorem exitPending_of_movesBytes {id : ℤ} (hmoves : arch.movesBytes id = true) (ret : ℤ)
    (m : Maps) :
    OwnThread ctx m (exitPending arch rodata ctx id ret m) ∧
      (exitPending arch rodata ctx id ret m).tlsDepth = m.tlsDepth ∧
      (exitPending arch rodata ctx id ret m).pendingReads.lookup ctx.thread = none ∧
      Adds (OfPending (m.pendingReads.lookup ctx.thread)) m
        (exitPending arch rodata ctx id ret m) := by
  unfold exitPending
  cases hpending : m.pendingReads.lookup ctx.thread with
  | none => exact ⟨(SameKeys.refl m).ownThread, rfl, hpending, .of_events_eq rfl⟩
  | some pending =>
    have hwrites := writes_finishPending rodata ctx pending ret
      { m with pendingReads := m.pendingReads.delete ctx.thread }
    simp only [if_pos (show (arch.syscall id).any Syscall.movesBytes = true from hmoves)]
    refine ⟨?_, hwrites.same.tlsDepth, ?_, .trans (.of_events_eq rfl) hwrites.adds⟩
    · refine OwnThread.trans ?_ hwrites.same.ownThread
      exact ⟨fun _ hother => BoundedMap.lookup_delete_of_ne _ hother, fun _ _ => rfl, rfl⟩
    · rw [hwrites.same.pendingReads]
      exact BoundedMap.lookup_delete_self _ _

variable (arch rodata ctx m) in
/-- Leaving a system call keeps the pending call and submits no bytes, unless it moves bytes
outside the TLS library: then the pending call goes, and the bytes are those of that call. -/
theorem handleSysExit_cases (id ret : ℤ) :
    ((m.isTargetTgid ctx.thread.tgid = false ∨ (m.tlsDepth.lookup ctx.thread).isSome ∨
        arch.movesBytes id = false) ∧
      Writes Unrelated m (handleSysExit arch rodata ctx id ret m)) ∨
    (m.tlsDepth.lookup ctx.thread = none ∧ arch.movesBytes id = true ∧
      OwnThread ctx m (handleSysExit arch rodata ctx id ret m) ∧
      (handleSysExit arch rodata ctx id ret m).tlsDepth = m.tlsDepth ∧
      (handleSysExit arch rodata ctx id ret m).pendingReads.lookup ctx.thread = none ∧
      Adds (OfPending (m.pendingReads.lookup ctx.thread)) m
        (handleSysExit arch rodata ctx id ret m)) := by
  by_cases htarget : m.isTargetTgid ctx.thread.tgid = false
  · rw [handleSysExit, if_pos htarget]
    exact .inl ⟨.inl htarget, .refl m⟩
  by_cases hdepth : (m.tlsDepth.lookup ctx.thread).isSome
  · rw [handleSysExit, if_neg htarget, if_pos hdepth]
    exact .inl ⟨.inr (.inl hdepth), .refl m⟩
  rw [handleSysExit, if_neg htarget, if_neg hdepth]
  cases hmoves : arch.movesBytes id with
  | false =>
    have hkept : exitPending arch rodata ctx id ret m = m := by
      unfold exitPending
      split
      · exact if_neg (by simpa [TargetArch.movesBytes] using hmoves)
      · rfl
    rw [hkept]
    exact .inl ⟨.inr (.inr rfl), writes_exitTimed arch ctx id ret m⟩
  | true =>
    obtain ⟨hown, htls, hgone, hadds⟩ := exitPending_of_movesBytes rodata ctx hmoves ret m
    have htimed := writes_exitTimed arch ctx id ret
      (exitPending arch rodata ctx id ret m)
    refine .inr ⟨by simpa using hdepth, rfl, hown.trans htimed.same.ownThread,
      htimed.same.tlsDepth.trans htls, ?_, hadds.trans (htimed.adds.imp ?_)⟩
    · rw [htimed.same.pendingReads]
      exact hgone
    · exact fun event hevent => ⟨hevent.2, fun htype => absurd htype hevent.1⟩

variable (ctx m) in
/-- Entering the TLS library remembers the call with a key guessed from the descriptor or the
object. -/
theorem sslEnter_spec (args : SslArguments) (direction : ℕ) (isEx : Bool) :
    (sslEnter ctx args direction isEx m).events = m.events ∧
      OwnThread ctx m (sslEnter ctx args direction isEx m) ∧
      (m.isTargetTgid ctx.thread.tgid = true →
        ∀ pending, (sslEnter ctx args direction isEx m).pendingReads.lookup ctx.thread =
            some pending →
          pending.isEx = isEx ∧
            pending.lengthPointer = if isEx then args.lengthPointer else 0) := by
  unfold sslEnter
  by_cases htarget : m.isTargetTgid ctx.thread.tgid = true
  · rw [if_pos htarget]
    refine ⟨rfl, ⟨fun _ hother => BoundedMap.lookup_update_of_ne _ _ hother,
      fun _ hother => BoundedMap.lookup_update_of_ne _ _ hother, rfl⟩, ?_⟩
    intro _ pending hpending
    rw [BoundedMap.eq_of_lookup_update hpending]
    exact ⟨rfl, rfl⟩
  · rw [if_neg htarget]
    exact ⟨rfl, (SameKeys.refl m).ownThread, fun h => absurd h htarget⟩

variable (rodata ctx m) in
/-- Leaving the TLS library submits the bytes of the pending call, with its key. -/
theorem sslExit_spec (direction rc : ℕ) :
    OwnThread ctx m (sslExit rodata ctx direction rc m) ∧
      Adds (fun event => event.eventType = EVENT_IO_CHUNK ∧
        ∃ p ∈ m.pendingReads.lookup ctx.thread, event.connectionKey = p.connectionKey ∧
          0 < sslActual ctx p.isEx p.lengthPointer rc) m
        (sslExit rodata ctx direction rc m) := by
  have hdepth : OwnThread ctx m { m with tlsDepth := m.tlsDepth.delete ctx.thread } :=
    ⟨fun _ _ => rfl, fun _ hother => BoundedMap.lookup_delete_of_ne _ hother, rfl⟩
  unfold sslExit
  cases hpending : m.pendingReads.lookup ctx.thread with
  | none => exact ⟨hdepth, .of_events_eq rfl⟩
  | some pending =>
    simp only
    have hdelete : OwnThread ctx m { m with
        tlsDepth := m.tlsDepth.delete ctx.thread
        pendingReads := m.pendingReads.delete ctx.thread } :=
      ⟨fun _ hother => BoundedMap.lookup_delete_of_ne _ hother,
        fun _ hother => BoundedMap.lookup_delete_of_ne _ hother, rfl⟩
    by_cases hmoved : sslActual ctx pending.isEx pending.lengthPointer rc ≤ 0
    · rw [submitChunk_of_nonpos ctx _ hmoved]
      exact ⟨hdelete, .of_events_eq rfl⟩
    · have hwrites := writes_submitChunkLimited ctx 0
        ⟨pending.fd, direction, SOURCE_OPENSSL, pending.connectionKey, EVENT_IO_CHUNK⟩
        pending.buffer (sslActual ctx pending.isEx pending.lengthPointer rc) rodata.captureBytes
        { m with
          tlsDepth := m.tlsDepth.delete ctx.thread
          pendingReads := m.pendingReads.delete ctx.thread }
      refine ⟨hdelete.trans hwrites.same.ownThread, .trans (.of_events_eq rfl)
        (hwrites.adds.imp ?_)⟩
      rintro event ⟨hkey, htype⟩
      exact ⟨htype, pending, rfl, hkey, by omega⟩

variable (arch ctx m) in
/-- Entering a system call concerns its own thread and writes no record. -/
theorem handleSysEnter_ownThread (id : ℤ) (args0 args1 args2 : ℕ) :
    OwnThread ctx m (handleSysEnter arch ctx id args0 args1 args2 m) ∧
      (handleSysEnter arch ctx id args0 args1 args2 m).events = m.events := by
  obtain ⟨m', hsame, hevents, ⟨_, heq⟩ | ⟨_, _, pending, _, heq⟩⟩ :=
    handleSysEnter_cases arch ctx m id args0 args1 args2
  · rw [heq]
    exact ⟨hsame.ownThread, hevents⟩
  · rw [heq]
    exact ⟨hsame.ownThread.trans (rememberRead_ownThread pending), hevents⟩

variable (arch rodata ctx m) in
/-- Leaving a system call concerns its own thread and writes no connection record. -/
theorem handleSysExit_ownThread (id ret : ℤ) :
    OwnThread ctx m (handleSysExit arch rodata ctx id ret m) ∧
      Adds (fun event => event.eventType ≠ EVENT_CONNECTION) m
        (handleSysExit arch rodata ctx id ret m) := by
  rcases handleSysExit_cases arch rodata ctx m id ret with
    ⟨_, hwrites⟩ | ⟨_, _, hown, _, _, hadds⟩
  · exact ⟨hwrites.same.ownThread, hwrites.adds.imp fun _ hevent => hevent.2⟩
  · exact ⟨hown, hadds.imp fun _ hevent => hevent.1⟩

end Tasks

end MongoDam.Bpf
