import MongoDam.Bpf.ConnectionKeys
import MongoDam.Bpf.Tables

/-!
# Every record a probe can submit

What the ring buffer gets at a firing is listed once, with everything the record
takes from the maps, from the surroundings of the firing and from the arguments of the
probe. The results on the records of whole runs start from this list.
-/

namespace MongoDam.Bpf

open Lib Observer

/-- The latency record of a system call. -/
def latencyEvent (ctx : Context) (start : SyscallStart) (ret : ℤ) : KernelEvent :=
  { reservedEvent ctx [] with
    eventType := EVENT_SYSCALL_LATENCY
    source := SOURCE_KERNEL
    operation := start.operation
    fd := start.fd
    durationNs := sub64 ctx.now start.startedNs
    bytes := start.requested
    result := ret }

/-- The record of a thread that was off the processor. -/
def offCpuEvent (ctx : Context) (switch : SchedSwitch) (started tgid : ℕ) : KernelEvent :=
  { reservedEvent ctx [] with
    eventType := EVENT_SYSCALL_LATENCY
    source := SOURCE_KERNEL
    operation := OP_OFFCPU
    pid := switch.nextPid
    tgid
    durationNs := sub64 ctx.now started
    comm := switch.nextComm }

/-- A processor sample. -/
def cpuSampleEvent (ctx : Context) (userStack kernelStack : ℤ) : KernelEvent :=
  { reservedEvent ctx [] with
    eventType := EVENT_PROFILE
    source := SOURCE_PERF
    operation := OP_CPU_SAMPLE
    result := userStack
    fd := kernelStack }

/-- A record of bytes read from a buffer, at most `limit` of them. -/
def ChunkRecord (ctx : Context) (label : ChunkLabel) (buffer : ℕ) (actual : ℤ) (limit : ℕ)
    (event : KernelEvent) : Prop :=
  0 < actual ∧ ∃ found,
    ctx.memory.probeRead buffer (capturedCount actual.toNat limit) = some found ∧
      event = chunkEvent ctx label actual (capturedCount actual.toNat limit) found

/-- A record of bytes of a slot of an array of buffers, no more than the slot holds, in a call
that moved `total` bytes. -/
def SlotRecord (ctx : Context) (label : ChunkLabel) (array count : ℕ) (total : ℤ)
    (event : KernelEvent) : Prop :=
  ∃ index iov actual limit, index < count ∧ readIovec ctx.memory array index = some iov ∧
    limit ≤ iov.iovLen ∧ actual ≤ total ∧ ChunkRecord ctx label iov.iovBase actual limit event

/-- A record of bytes of a pending system call. -/
def PendingRead.Chunk (rodata : Rodata) (ctx : Context) (pending : PendingRead) (ret : ℤ)
    (label : ChunkLabel) (event : KernelEvent) : Prop :=
  if pending.vectorKind ≠ 0 then
    ∃ array count, locateIovecs ctx.memory pending.buffer pending.requested
        (decide (pending.vectorKind = 2)) = some (array, count) ∧
      SlotRecord ctx label array count ret event
  else
    ∃ actual, actual ≤ ret ∧ actual ≤ pending.requested ∧
      ChunkRecord ctx label pending.buffer actual rodata.captureBytes event

/-- A record of bytes has the fields of its label. -/
theorem ChunkRecord.exists_chunkEvent {ctx : Context} {label : ChunkLabel} {buffer limit : ℕ}
    {actual : ℤ} {event : KernelEvent} (h : ChunkRecord ctx label buffer actual limit event) :
    ∃ actual captured found, event = chunkEvent ctx label actual captured found := by
  obtain ⟨_, found, _, rfl⟩ := h
  exact ⟨_, _, found, rfl⟩

theorem PendingRead.Chunk.exists_chunkEvent {rodata : Rodata} {ctx : Context}
    {pending : PendingRead} {ret : ℤ} {label : ChunkLabel} {event : KernelEvent}
    (h : pending.Chunk rodata ctx ret label event) :
    ∃ actual captured found, event = chunkEvent ctx label actual captured found := by
  unfold PendingRead.Chunk at h
  split at h
  · obtain ⟨_, _, _, _, _, _, _, _, _, _, _, hchunk⟩ := h
    exact hchunk.exists_chunkEvent
  · obtain ⟨_, _, _, hchunk⟩ := h
    exact hchunk.exists_chunkEvent

/-- What a probe of a socket reports, with its duration. -/
inductive Report (setup : Setup) (m : Maps) (f : Firing) : Sock → ℕ → ℕ → Prop
  | connect {sk} (hprobe : f.probe = .tcpConnect sk) : Report setup m f sk OP_TCP_CONNECT 0
  | established {sk} (hprobe : f.probe = .tcpSetState sk TCP_ESTABLISHED_STATE) :
      Report setup m f sk OP_TCP_HANDSHAKE
        (match m.handshakeStarts.lookup sk.handle with
          | some start => sub64 f.ctx.now start
          | none => 0)
  | resetByState {sk} (hprobe : f.probe = .tcpSetState sk TCP_CLOSE_STATE)
      (hcode : sk.skErr = ECONNRESET_CODE)
      (hunseen : m.peerResetsSeen.lookup sk.handle = none) :
      Report setup m f sk OP_TCP_RESET_RECEIVED 0
  | timeout {sk} (hprobe : f.probe = .tcpSetState sk TCP_CLOSE_STATE)
      (hcode : sk.skErr = ETIMEDOUT_CODE) :
      Report setup m f sk OP_TCP_TIMEOUT
        (match m.handshakeStarts.lookup sk.handle with
          | some start => sub64 f.ctx.now start
          | none => 0)
  | accept {sk} (hprobe : f.probe = .tcpAccept (some sk)) : Report setup m f sk OP_TCP_ACCEPT 0
  | acceptHandshake {sk} (hprobe : f.probe = .tcpAccept (some sk)) :
      Report setup m f sk OP_TCP_HANDSHAKE ((m.completedHandshakes.lookup sk.handle).getD 0)
  | close {sk} (hprobe : f.probe = .tcpClose sk) : Report setup m f sk OP_TCP_CLOSE 0
  | rtt {sk} (hprobe : f.probe = .tcpRcvEstablished sk)
      (hdue : rttDue setup.rodata f.ctx sk m = true) :
      Report setup m f sk OP_TCP_RTT (sk.srttUs / 8 * 1000)
  | zeroWindow {sk} (hprobe : f.probe = .tcpRcvEstablished sk)
      (hdue : rttDue setup.rodata f.ctx sk m = true) (hwindow : sk.sndWnd = 0) :
      Report setup m f sk OP_TCP_ZERO_WINDOW 0
  | retransmit {sk} (hprobe : f.probe = .tcpRetransmitSkb sk) :
      Report setup m f sk OP_TCP_RETRANSMIT 0
  | resetReceived {sk} (hprobe : f.probe = .tcpReset sk) :
      Report setup m f sk OP_TCP_RESET_RECEIVED 0
  | resetSent {sk} (hprobe : f.probe = .tcpSendActiveReset sk) :
      Report setup m f sk OP_TCP_RESET_SENT 0

/-- The owner a record of a socket names: a probe that tracks the socket settles it first. -/
def OwnerAt (m : Maps) (f : Firing) (sk : Sock) (owner : SocketOwner) : Prop :=
  sk.handle ≠ 0 ∧
    (f.probe.tracks = none ∧ m.trackedSockets.lookup sk.handle = some owner ∨
      f.probe.tracks = some sk ∧ m.isTargetTgid f.ctx.thread.tgid = true ∧
        owner = trackedOwner f.ctx sk m)

/-- The records a firing can submit. -/
inductive Submission (setup : Setup) (m : Maps) (f : Firing) : KernelEvent → Prop
  | syscallBytes {id ret pending event} (hprobe : f.probe = .sysExit id ret)
      (htarget : m.isTargetTgid f.ctx.thread.tgid = true)
      (htls : m.tlsDepth.lookup f.ctx.thread = none)
      (hmoves : setup.arch.movesBytes id = true)
      (hpending : m.pendingReads.lookup f.ctx.thread = some pending)
      (hnetwork : pending.isNetwork = true)
      (hchunk : pending.Chunk setup.rodata f.ctx ret
        (pending.label (if pending.protocol ≠ 0 then EVENT_DNS_CHUNK else EVENT_IO_CHUNK))
        event) : Submission setup m f event
  | tlsBytes {call rc pending event} (hprobe : f.probe = .sslExit call rc)
      (hpending : m.pendingReads.lookup f.ctx.thread = some pending)
      (hchunk : ChunkRecord f.ctx
        ⟨pending.fd, call.direction, SOURCE_OPENSSL, pending.connectionKey, EVENT_IO_CHUNK⟩
        pending.buffer (sslActual f.ctx pending.isEx pending.lengthPointer rc)
        setup.rodata.captureBytes event) : Submission setup m f event
  | latency {id ret start} (hprobe : f.probe = .sysExit id ret)
      (htarget : m.isTargetTgid f.ctx.thread.tgid = true)
      (htls : m.tlsDepth.lookup f.ctx.thread = none)
      (htimed : (setup.arch.syscall id).any Syscall.isTimed = true)
      (hstart : m.syscallStarts.lookup f.ctx.thread = some start) :
      Submission setup m f (latencyEvent f.ctx start ret)
  | lockWait {rc started} (hprobe : f.probe = .mutexLockExit rc)
      (hstart : m.lockStarts.lookup f.ctx.thread = some started)
      (hlong : setup.rodata.lockWaitThresholdNs ≤ sub64 f.ctx.now started) :
      Submission setup m f (lockWaitEvent f.ctx started rc)
  | pageFault {rc started} (hprobe : f.probe = .pageFaultExit rc)
      (hstart : m.faultStarts.lookup f.ctx.thread = some started)
      (hlong : setup.rodata.pageFaultThresholdNs ≤ sub64 f.ctx.now started) :
      Submission setup m f (pageFaultEvent f.ctx started rc)
  | offCpu {switch started tgid} (hprobe : f.probe = .schedSwitch switch)
      (hthread : m.targetThreads.lookup switch.nextPid = some tgid)
      (hstart : m.offcpuStarts.lookup switch.nextPid = some started ∨
        switch.nextPid = switch.prevPid ∧ started = f.ctx.now)
      (hlong : setup.rodata.offcpuThresholdNs ≤ sub64 f.ctx.now started) :
      Submission setup m f (offCpuEvent f.ctx switch started tgid)
  | connection {sk owner operation durationNs} (hreport : Report setup m f sk operation durationNs)
      (howner : OwnerAt m f sk owner) :
      Submission setup m f (connectionEvent f.ctx owner operation durationNs)
  | exec (hprobe : f.probe = .processExec) (hcomm : isMongodbComm f.ctx.comm = true) :
      Submission setup m f (processEvent f.ctx OP_PROCESS_EXEC)
  | exit (hprobe : f.probe = .processExit) (htarget : m.isTargetTgid f.ctx.thread.tgid = true)
      (hmain : f.ctx.thread.pid = f.ctx.thread.tgid) :
      Submission setup m f (processEvent f.ctx OP_PROCESS_EXIT)
  | cpuSample {userStack kernelStack} (hprobe : f.probe = .cpuSample userStack kernelStack)
      (htarget : m.isTargetTgid f.ctx.thread.tgid = true) :
      Submission setup m f (cpuSampleEvent f.ctx userStack kernelStack)

/-- A wait that was long enough is one of the records. -/
theorem submission_of_wait {setup : Setup} {m : Maps} {f : Firing} (w : Wait) {rc started : ℕ}
    (hprobe : f.probe = w.exit rc) (hstart : (w.starts m).lookup f.ctx.thread = some started)
    (hlong : w.thresholdNs setup.rodata ≤ sub64 f.ctx.now started) :
    Submission setup m f (w.event f.ctx started rc) := by
  cases w with
  | lock => exact .lockWait hprobe hstart hlong
  | pageFault => exact .pageFault hprobe hstart hlong

section Ring

variable (ctx : Context)

private theorem adds_submitChunkLimited (place buffer : ℕ) (actual : ℤ) (label : ChunkLabel)
    (limit : ℕ) (m : Maps) :
    Adds (ChunkRecord ctx label buffer actual limit) m
      (submitChunkLimited ctx place buffer actual label limit m) := by
  simp only [submitChunkLimited]
  split
  · exact .of_events_eq rfl
  · next hactual =>
    split
    · split
      · exact .of_events_eq rfl
      · next found hfound =>
        refine ⟨[_], rfl, fun event hevent => ?_⟩
        rw [List.mem_singleton.mp hevent]
        exact ⟨by omega, found, hfound, rfl⟩
    · exact .of_events_eq rfl

private theorem adds_vectorLoop (label : ChunkLabel) (array count : ℕ) {total : ℤ} :
    ∀ (slots index remaining budget : ℕ) (m : Maps), remaining ≤ total →
      Adds (SlotRecord ctx label array count total) m
        (vectorLoop ctx label array count slots index remaining budget m)
  | 0, _, _, _, m, _ => .of_events_eq rfl
  | slots + 1, index, remaining, budget, m, htotal => by
    rw [vectorLoop]
    split
    · exact .of_events_eq rfl
    · next hmore =>
      split
      · exact .of_events_eq rfl
      · next iov hiov =>
        dsimp only
        have hsegment : (if remaining < iov.iovLen then remaining else iov.iovLen) ≤ iov.iovLen ∧
            (if remaining < iov.iovLen then remaining else iov.iovLen) ≤ remaining := by
          split <;> omega
        generalize (if remaining < iov.iovLen then remaining else iov.iovLen) = segment
          at hsegment ⊢
        have hcopied : (if segment < budget then segment else budget) ≤ segment := by
          split <;> omega
        generalize (if segment < budget then segment else budget) = copied at hcopied ⊢
        by_cases hempty : segment = 0
        · rw [if_pos hempty]
          exact adds_vectorLoop label array count slots _ _ _ m htotal
        · rw [if_neg hempty]
          have hreported : reportedSegment index segment copied (remaining - segment)
              (budget - copied) ≤ remaining := by
            unfold reportedSegment
            split <;> omega
          have hsubmit : Adds (SlotRecord ctx label array count total) m _ :=
            (adds_submitChunkLimited ctx index iov.iovBase
              (reportedSegment index segment copied (remaining - segment) (budget - copied)) label
              copied m).imp fun event hevent =>
                ⟨index, iov, _, copied, by omega, hiov, by omega, by omega, hevent⟩
          split
          · exact hsubmit
          · exact hsubmit.trans (adds_vectorLoop label array count slots _ _ _ _ (by omega))

private theorem adds_submitVectorChunks (rodata : Rodata) (pointer countHint : ℕ)
    (isMsghdr : Bool) (actual : ℤ) (label : ChunkLabel) (m : Maps) :
    Adds (fun event => ∃ array count,
        locateIovecs ctx.memory pointer countHint isMsghdr = some (array, count) ∧
          SlotRecord ctx label array count actual event) m
      (submitVectorChunks rodata ctx pointer countHint isMsghdr actual label m) := by
  simp only [submitVectorChunks]
  split
  · exact .of_events_eq rfl
  · split
    · exact .of_events_eq rfl
    · next array count hlocate =>
      exact (adds_vectorLoop ctx label array count _ _ _ _ m (by omega)).imp fun event hevent =>
        ⟨array, count, hlocate, hevent⟩

/-- The byte count reported for a plain call is within what was asked for and what moved. -/
private theorem clamped_le (requested : ℕ) (ret : ℤ)
    (hpositive : 0 < if 0 < ret ∧ (requested : ℤ) < ret then signed64 requested else ret) :
    (if 0 < ret ∧ (requested : ℤ) < ret then signed64 requested else ret) ≤ ret ∧
      (if 0 < ret ∧ (requested : ℤ) < ret then signed64 requested else ret) ≤ requested := by
  have hsigned : signed64 requested ≤ requested := by
    unfold signed64
    split <;> omega
  split at hpositive <;> rename_i hclamp
  · rw [if_pos hclamp]
    omega
  · rw [if_neg hclamp]
    omega

private theorem adds_finishPending (rodata : Rodata) (pending : PendingRead) (ret : ℤ) (m : Maps) :
    Adds (fun event => pending.isNetwork = true ∧ pending.Chunk rodata ctx ret
        (pending.label (if pending.protocol ≠ 0 then EVENT_DNS_CHUNK else EVENT_IO_CHUNK)) event)
      m (finishPending rodata ctx pending ret m) := by
  simp only [finishPending, PendingRead.Chunk]
  generalize (pending.label (if pending.protocol ≠ 0 then EVENT_DNS_CHUNK else EVENT_IO_CHUNK)) =
    label
  cases hnetwork : pending.isNetwork with
  | false => split <;> exact .of_events_eq rfl
  | true =>
    by_cases hvector : pending.vectorKind ≠ 0
    · simp only [if_pos hvector, true_and]
      exact adds_submitVectorChunks ctx rodata _ _ _ _ _ m
    · simp only [if_neg hvector, true_and]
      refine (adds_submitChunkLimited ctx 0 pending.buffer _ label rodata.captureBytes m).imp ?_
      intro event hevent
      obtain ⟨hret, hrequested⟩ := clamped_le pending.requested ret hevent.1
      exact ⟨_, hret, hrequested, hevent⟩

/-- The record of a socket is one of its owner. -/
private theorem adds_submitConnection {P : KernelEvent → Prop} (place : ℕ) (sk : Sock)
    (operation durationNs : ℕ) (m : Maps)
    (howner : ∀ owner, sk.handle ≠ 0 → m.trackedSockets.lookup sk.handle = some owner →
      P (connectionEvent ctx owner operation durationNs)) :
    Adds P m (submitConnection ctx place sk operation durationNs m) := by
  unfold submitConnection
  split
  · exact .of_events_eq rfl
  · next hhandle =>
    split
    · exact .of_events_eq rfl
    · next owner hfound =>
      exact (writes_reserveAndSubmit ctx place (howner owner hhandle hfound) m).adds

end Ring

section Handlers

variable {setup : Setup} {m : Maps} {f : Firing}

private theorem adds_handleSysExit {id ret : ℤ} (hprobe : f.probe = .sysExit id ret) :
    Adds (Submission setup m f) m
      (handleSysExit setup.arch setup.rodata f.ctx id ret m) := by
  unfold handleSysExit
  split
  · exact .of_events_eq rfl
  next htarget =>
  split
  · exact .of_events_eq rfl
  next htls =>
  replace htarget : m.isTargetTgid f.ctx.thread.tgid = true := by simpa using htarget
  replace htls : m.tlsDepth.lookup f.ctx.thread = none := by simpa using htls
  have hbytes : Adds (Submission setup m f) m
      (exitPending setup.arch setup.rodata f.ctx id ret m) := by
    unfold exitPending
    split
    · next pending hpending =>
      split
      · next hmoves =>
        refine .trans (.of_events_eq rfl) ((adds_finishPending f.ctx setup.rodata pending ret
          { m with pendingReads := m.pendingReads.delete f.ctx.thread }).imp ?_)
        rintro event ⟨hnetwork, hchunk⟩
        exact .syscallBytes hprobe htarget htls hmoves hpending hnetwork hchunk
      · exact .of_events_eq rfl
    · exact .of_events_eq rfl
  refine hbytes.trans ?_
  have hkept : (exitPending setup.arch setup.rodata f.ctx id ret m).syscallStarts =
      m.syscallStarts :=
    sameOff_exitPending f.ctx m setup.arch setup.rodata id ret .syscallStarts (by simp)
  unfold exitTimed
  rw [hkept]
  split
  · next start hstart =>
    split
    · next htimed =>
      exact .trans (.of_events_eq rfl) (writes_reserveAndSubmit f.ctx _
        (Submission.latency hprobe htarget htls htimed hstart) _).adds
    · exact .of_events_eq rfl
  · exact .of_events_eq rfl

private theorem adds_sslExit {call : SslCall} {rc : ℕ} (hprobe : f.probe = .sslExit call rc) :
    Adds (Submission setup m f) m (sslExit setup.rodata f.ctx call.direction rc m) := by
  simp only [sslExit]
  split
  · exact .of_events_eq rfl
  · next pending hpending =>
    refine .trans (.of_events_eq rfl) ((adds_submitChunkLimited f.ctx 0 _ _ _ _ _).imp ?_)
    exact fun event hevent => .tlsBytes hprobe hpending hevent

private theorem adds_exitWait (w : Wait) {rc : ℕ} (hprobe : f.probe = w.exit rc) :
    Adds (Submission setup m f) m (w.handleExit setup.rodata f.ctx rc m) := by
  simp only [Wait.handleExit]
  split
  · exact .of_events_eq rfl
  · next started hstart =>
    have hstore := w.events_store ((w.starts m).delete f.ctx.thread) m
    split
    · exact .of_events_eq hstore
    · next hlong =>
      exact .trans (.of_events_eq hstore) (writes_reserveAndSubmit f.ctx 0
        (submission_of_wait w hprobe hstart (by omega)) _).adds

/-- When a thread is switched to, its clock was started earlier or at this very switch. -/
private theorem offcpuStart_cases (m : Maps) (ctx : Context) (switch : SchedSwitch) {started : ℕ}
    (hstart : (if (m.targetThreads.lookup switch.prevPid).isSome then
        { m with offcpuStarts := m.offcpuStarts.update switch.prevPid ctx.now }
      else m).offcpuStarts.lookup switch.nextPid = some started) :
    m.offcpuStarts.lookup switch.nextPid = some started ∨
      switch.nextPid = switch.prevPid ∧ started = ctx.now := by
  split at hstart
  · by_cases hsame : switch.nextPid = switch.prevPid
    · dsimp only at hstart
      rw [hsame] at hstart
      exact .inr ⟨hsame, BoundedMap.eq_of_lookup_update hstart⟩
    · rw [BoundedMap.lookup_update_of_ne _ _ hsame] at hstart
      exact .inl hstart
  · exact .inl hstart

private theorem adds_handleSchedSwitch {switch : SchedSwitch}
    (hprobe : f.probe = .schedSwitch switch) :
    Adds (Submission setup m f) m (handleSchedSwitch setup.rodata f.ctx switch m) := by
  have hthreads : (if (m.targetThreads.lookup switch.prevPid).isSome then
      { m with offcpuStarts := m.offcpuStarts.update switch.prevPid f.ctx.now }
    else m).targetThreads = m.targetThreads := by split <;> rfl
  have hprev : Adds (Submission setup m f) m (if (m.targetThreads.lookup switch.prevPid).isSome then
      { m with offcpuStarts := m.offcpuStarts.update switch.prevPid f.ctx.now } else m) := by
    split <;> exact .of_events_eq rfl
  have hcases := @offcpuStart_cases m f.ctx switch
  simp only [handleSchedSwitch]
  generalize (if (m.targetThreads.lookup switch.prevPid).isSome then
    { m with offcpuStarts := m.offcpuStarts.update switch.prevPid f.ctx.now } else m) = m'
    at hthreads hprev hcases ⊢
  refine hprev.trans ?_
  split
  · next started tgid hstart hthread =>
    split
    · exact .of_events_eq rfl
    · next hlong =>
      rw [hthreads] at hthread
      exact .trans (.of_events_eq rfl) (writes_reserveAndSubmit f.ctx 0
        (Submission.offCpu hprobe hthread (hcases hstart) (by omega)) _).adds
  · exact .of_events_eq rfl

/-- A probe that only reports on a socket names the owner in the map. -/
private theorem adds_report {m' : Maps} (place : ℕ) {sk : Sock} {operation durationNs : ℕ}
    (htracks : f.probe.tracks = none) (htracked : m'.trackedSockets = m.trackedSockets)
    (hreport : Report setup m f sk operation durationNs) :
    Adds (Submission setup m f) m' (submitConnection f.ctx place sk operation durationNs m') := by
  apply adds_submitConnection
  intro owner hhandle howner
  rw [htracked] at howner
  exact .connection hreport ⟨hhandle, .inl ⟨htracks, howner⟩⟩

/-- The owner found after tracking is the one just settled. -/
private theorem eq_trackedOwner {ctx : Context} {sk : Sock} {owner : SocketOwner}
    (htarget : m.isTargetTgid ctx.thread.tgid = true) (hhandle : sk.handle ≠ 0)
    (howner : (trackSocket ctx sk m).trackedSockets.lookup sk.handle = some owner) :
    owner = trackedOwner ctx sk m := by
  rw [trackSocket, if_pos htarget] at howner
  simp only [if_pos hhandle] at howner
  exact BoundedMap.eq_of_lookup_update howner

/-- A probe that tracks the socket names the owner it settled. -/
private theorem adds_trackedReport {m' : Maps} (place : ℕ) {sk : Sock}
    {operation durationNs : ℕ} (htracks : f.probe.tracks = some sk)
    (htarget : m.isTargetTgid f.ctx.thread.tgid = true)
    (htracked : m'.trackedSockets = (trackSocket f.ctx sk m).trackedSockets)
    (hreport : Report setup m f sk operation durationNs) :
    Adds (Submission setup m f) m' (submitConnection f.ctx place sk operation durationNs m') := by
  apply adds_submitConnection
  intro owner hhandle howner
  rw [htracked] at howner
  have hsettled := eq_trackedOwner htarget hhandle howner
  exact .connection hreport ⟨hhandle, .inr ⟨htracks, htarget, hsettled⟩⟩

private theorem trackedSockets_submitConnection (ctx : Context) (place : ℕ) (sk : Sock)
    (operation durationNs : ℕ) (m : Maps) :
    (submitConnection ctx place sk operation durationNs m).trackedSockets = m.trackedSockets :=
  (writes_submitConnection ctx sk place operation durationNs m).same.trackedSockets

private theorem adds_handleTcpConnect {sk : Sock} (hprobe : f.probe = .tcpConnect sk) :
    Adds (Submission setup m f) m (handleTcpConnect f.ctx sk m) := by
  unfold handleTcpConnect
  split
  · next htarget =>
    have htrack : Adds (Submission setup m f) m (trackSocket f.ctx sk m) :=
      .of_events_eq (trackSocket_frame f.ctx sk m).2.1
    exact htrack.trans (.trans (.of_events_eq rfl)
      (adds_trackedReport 0 (by rw [hprobe]; rfl) htarget rfl (.connect hprobe)))
  · exact .of_events_eq rfl

private theorem adds_handleTcpAccept {sk : Sock} (hprobe : f.probe = .tcpAccept (some sk)) :
    Adds (Submission setup m f) m (handleTcpAccept f.ctx (some sk) m) := by
  have htracks : f.probe.tracks = some sk := by rw [hprobe]; rfl
  simp only [handleTcpAccept]
  split
  · next htarget =>
    have htrack : Adds (Submission setup m f) m (trackSocket f.ctx sk m) :=
      .of_events_eq (trackSocket_frame f.ctx sk m).2.1
    have haccept := htrack.trans
      (adds_trackedReport 0 htracks htarget rfl (.accept hprobe))
    have htracked := trackedSockets_submitConnection f.ctx 0 sk OP_TCP_ACCEPT 0
      (trackSocket f.ctx sk m)
    have hcompleted : (submitConnection f.ctx 0 sk OP_TCP_ACCEPT 0
        (trackSocket f.ctx sk m)).completedHandshakes = m.completedHandshakes :=
      (sameOff_trackSocket f.ctx m sk).trans (sameOff_submitConnection f.ctx 0 sk _ _ _)
        .completedHandshakes (by simp)
    have hreport : Report setup m f sk OP_TCP_HANDSHAKE
        ((m.completedHandshakes.lookup sk.handle).getD 0) := .acceptHandshake hprobe
    rw [hcompleted]
    refine haccept.trans ?_
    split
    · next duration hduration =>
      rw [hduration] at hreport
      exact (adds_trackedReport 1 htracks htarget htracked hreport).trans (.of_events_eq rfl)
    · next hnone =>
      rw [hnone] at hreport
      exact adds_trackedReport 1 htracks htarget htracked hreport
  · exact .of_events_eq rfl

private theorem adds_establishedState {sk : Sock}
    (hprobe : f.probe = .tcpSetState sk TCP_ESTABLISHED_STATE) :
    Adds (Submission setup m f) m (establishedState f.ctx sk m) := by
  have hsubmit : Adds (Submission setup m f) m (submitConnection f.ctx 0 sk _ _ m) :=
    adds_report 0 (by rw [hprobe]; rfl) rfl (.established hprobe)
  simp only [establishedState]
  split
  · split
    · exact hsubmit.trans (.of_events_eq rfl)
    · exact .of_events_eq rfl
  · split
    · exact hsubmit
    · exact .of_events_eq rfl

private theorem adds_closedState {sk : Sock}
    (hprobe : f.probe = .tcpSetState sk TCP_CLOSE_STATE) :
    Adds (Submission setup m f) m (closedState f.ctx sk m) := by
  have htracks : f.probe.tracks = none := by rw [hprobe]; rfl
  have hreset : Adds (Submission setup m f) m
      (if (m.trackedSockets.lookup sk.handle).isSome ∧
          (m.peerResetsSeen.lookup sk.handle).isSome = false ∧ sk.skErr = ECONNRESET_CODE then
        submitConnection f.ctx 0 sk OP_TCP_RESET_RECEIVED 0 m else m) := by
    split
    · next hseen =>
      exact adds_report 0 htracks rfl (.resetByState hprobe hseen.2.2 (by simpa using hseen.2.1))
    · exact .of_events_eq rfl
  have htracked : (if (m.trackedSockets.lookup sk.handle).isSome ∧
        (m.peerResetsSeen.lookup sk.handle).isSome = false ∧ sk.skErr = ECONNRESET_CODE then
      submitConnection f.ctx 0 sk OP_TCP_RESET_RECEIVED 0 m else m).trackedSockets =
        m.trackedSockets := by
    split
    · exact trackedSockets_submitConnection f.ctx 0 sk _ _ m
    · rfl
  simp only [closedState]
  refine hreset.trans ?_
  generalize (if (m.trackedSockets.lookup sk.handle).isSome ∧
      (m.peerResetsSeen.lookup sk.handle).isSome = false ∧ sk.skErr = ECONNRESET_CODE then
    submitConnection f.ctx 0 sk OP_TCP_RESET_RECEIVED 0 m else m) = m' at htracked ⊢
  refine .trans ?_ (.of_events_eq rfl)
  split
  · next htimeout =>
    exact adds_report 1 htracks htracked (.timeout hprobe htimeout.2)
  · exact .of_events_eq rfl

private theorem adds_handleTcpState {sk : Sock} {newstate : ℤ}
    (hprobe : f.probe = .tcpSetState sk newstate) :
    Adds (Submission setup m f) m (handleTcpState setup.rodata f.ctx sk newstate m) := by
  unfold handleTcpState
  split
  · exact .of_events_eq rfl
  split
  · exact .of_events_eq rfl
  split
  · next hstate =>
    subst hstate
    exact adds_establishedState hprobe
  split
  · next hstate =>
    subst hstate
    exact adds_closedState hprobe
  · exact .of_events_eq rfl

private theorem adds_handleTcpClose {sk : Sock} (hprobe : f.probe = .tcpClose sk) :
    Adds (Submission setup m f) m (handleTcpClose f.ctx sk m) := by
  let swept := { m with
    handshakeStarts := m.handshakeStarts.delete sk.handle
    completedHandshakes := m.completedHandshakes.delete sk.handle }
  have hreport : Adds (Submission setup m f) m
      (submitConnection f.ctx 0 sk OP_TCP_CLOSE 0 swept) :=
    .trans (.of_events_eq rfl) (adds_report 0 (by rw [hprobe]; rfl) rfl (.close hprobe))
  simp only [handleTcpClose]
  split
  · exact hreport.trans (.of_events_eq rfl)
  · exact .of_events_eq rfl

private theorem adds_handleTcpRtt {sk : Sock} (hprobe : f.probe = .tcpRcvEstablished sk) :
    Adds (Submission setup m f) m (handleTcpRtt setup.rodata f.ctx sk m) := by
  have htracks : f.probe.tracks = none := by rw [hprobe]; rfl
  let sampled := { m with rttLastEmit := m.rttLastEmit.update sk.handle f.ctx.now }
  simp only [handleTcpRtt]
  split
  · next hdue =>
    have hsample : Adds (Submission setup m f) m
        (submitConnection f.ctx 0 sk OP_TCP_RTT (sk.srttUs / 8 * 1000) sampled) :=
      .trans (.of_events_eq rfl) (adds_report 0 htracks rfl (.rtt hprobe hdue.2))
    refine hsample.trans ?_
    split
    · next hwindow =>
      exact adds_report 1 htracks (trackedSockets_submitConnection f.ctx 0 sk _ _ _)
        (.zeroWindow hprobe hdue.2 hwindow)
    · exact .of_events_eq rfl
  · exact .of_events_eq rfl

private theorem adds_ite {m' : Maps} {P : KernelEvent → Prop} {c : Prop} [Decidable c]
    (h : Adds P m m') : Adds P m (if c then m' else m) := by
  split
  · exact h
  · exact .of_events_eq rfl

private theorem adds_handleTcpReset {sk : Sock} (hprobe : f.probe = .tcpReset sk) :
    Adds (Submission setup m f) m (handleTcpReset f.ctx sk m) := by
  simp only [handleTcpReset]
  exact adds_ite (.trans (adds_report 0 (by rw [hprobe]; rfl) rfl (.resetReceived hprobe))
    (.of_events_eq rfl))

private theorem adds_handleProcessExec (hprobe : f.probe = .processExec) :
    Adds (Submission setup m f) m (handleProcessExec f.ctx m) := by
  simp only [handleProcessExec]
  split
  · next hcomm =>
    exact .trans (.of_events_eq rfl)
      (writes_reserveAndSubmit f.ctx 0 (Submission.exec hprobe hcomm) _).adds
  · exact .of_events_eq rfl

private theorem adds_handleProcessExit (hprobe : f.probe = .processExit) :
    Adds (Submission setup m f) m (handleProcessExit f.ctx m) := by
  let left := { m with targetThreads := m.targetThreads.delete f.ctx.thread.pid }
  simp only [handleProcessExit]
  split
  · exact .of_events_eq rfl
  · next hmain =>
    rw [not_or, not_not, Bool.not_eq_false] at hmain
    have hexit : Adds (Submission setup m f) m
        (reserveAndSubmit f.ctx 0 (processEvent f.ctx OP_PROCESS_EXIT) left) :=
      .trans (.of_events_eq rfl)
        (writes_reserveAndSubmit f.ctx 0 (.exit hprobe hmain.2 hmain.1) left).adds
    exact hexit.trans (.of_events_eq rfl)

end Handlers

/-- Every record of a firing is one of those listed. -/
theorem fire_adds (setup : Setup) (m : Maps) (f : Firing) :
    Adds (Submission setup m f) m (fire setup m f) := by
  unfold fire
  cases hprobe : f.probe with
  | sysEnter id args0 args1 args2 =>
    exact .of_events_eq (handleSysEnter_ownThread setup.arch f.ctx m id args0 args1 args2).2
  | sysExit id ret => exact adds_handleSysExit hprobe
  | sslEnter call args => exact .of_events_eq (sslEnter_spec f.ctx m args _ _).1
  | sslExit call rc => exact adds_sslExit hprobe
  | sslSetFd ssl fd =>
    simp only [handleSslSetFd]
    exact adds_ite (.of_events_eq rfl)
  | sslFree ssl => exact .of_events_eq rfl
  | mutexLockEnter =>
    simp only [handleMutexLockEnter]
    exact adds_ite (.of_events_eq rfl)
  | mutexLockExit rc => exact adds_exitWait .lock hprobe
  | udpSendmsg sk | udpRecvmsg sk | udpv6Sendmsg sk | udpv6Recvmsg sk =>
    exact .of_events_eq markDnsSocket_events
  | tcpSendmsg sk | tcpRecvmsg sk => exact .of_events_eq (trackSocket_frame f.ctx sk m).2.1
  | tcpConnect sk => exact adds_handleTcpConnect hprobe
  | tcpSetState sk newstate => exact adds_handleTcpState hprobe
  | tcpAccept sk =>
    cases sk with
    | none => exact .of_events_eq rfl
    | some sk => exact adds_handleTcpAccept hprobe
  | tcpClose sk => exact adds_handleTcpClose hprobe
  | tcpRcvEstablished sk => exact adds_handleTcpRtt hprobe
  | tcpRetransmitSkb sk =>
    exact adds_ite (adds_report 0 (by rw [hprobe]; rfl) rfl (.retransmit hprobe))
  | tcpReset sk => exact adds_handleTcpReset hprobe
  | tcpSendActiveReset sk =>
    exact adds_ite (adds_report 0 (by rw [hprobe]; rfl) rfl (.resetSent hprobe))
  | schedSwitch switch => exact adds_handleSchedSwitch hprobe
  | processExec => exact adds_handleProcessExec hprobe
  | processExit => exact adds_handleProcessExit hprobe
  | pageFaultEnter =>
    simp only [handlePageFaultEnter]
    exact adds_ite (.of_events_eq rfl)
  | pageFaultExit rc => exact adds_exitWait .pageFault hprobe
  | cpuSample userStack kernelStack =>
    simp only [handleCpuSample]
    split
    · next htarget =>
      exact (writes_reserveAndSubmit f.ctx 0 (Submission.cpuSample hprobe htarget) m).adds
    · exact .of_events_eq rfl
  | addTarget tgid => exact .of_events_eq rfl

/-- A record submitted by a firing is one of those listed. -/
theorem submission_of_mem {setup : Setup} {m : Maps} {f : Firing} {event : KernelEvent}
    (h : event ∈ submitted m (fire setup m f)) : Submission setup m f event :=
  (fire_adds setup m f).of_mem_submitted h

end MongoDam.Bpf
