import MongoDam.Bpf.Effects

/-!
# The maps a probe touches

Each handler writes to a few of the shared maps and leaves the others alone. Writing
a record changes none of them, whether the ring buffer had room or not.
-/

namespace MongoDam.Bpf

open Lib Observer

/-- The shared maps, without the ring buffer. -/
inductive SharedMap where
  | targetTgids | targetThreads | pendingReads | syscallStarts | lockStarts | faultStarts
  | offcpuStarts | trackedSockets | rttLastEmit | handshakeStarts | completedHandshakes
  | peerResetsSeen | tlsDepth | sslFds
  deriving DecidableEq

/-- The map of the starts of a wait. -/
def Wait.table : Wait → SharedMap
  | .lock => .lockStarts
  | .pageFault => .faultStarts

/-- A map is the same in two states. -/
def SharedMap.Same (m m' : Maps) : SharedMap → Prop
  | .targetTgids => m'.targetTgids = m.targetTgids
  | .targetThreads => m'.targetThreads = m.targetThreads
  | .pendingReads => m'.pendingReads = m.pendingReads
  | .syscallStarts => m'.syscallStarts = m.syscallStarts
  | .lockStarts => m'.lockStarts = m.lockStarts
  | .faultStarts => m'.faultStarts = m.faultStarts
  | .offcpuStarts => m'.offcpuStarts = m.offcpuStarts
  | .trackedSockets => m'.trackedSockets = m.trackedSockets
  | .rttLastEmit => m'.rttLastEmit = m.rttLastEmit
  | .handshakeStarts => m'.handshakeStarts = m.handshakeStarts
  | .completedHandshakes => m'.completedHandshakes = m.completedHandshakes
  | .peerResetsSeen => m'.peerResetsSeen = m.peerResetsSeen
  | .tlsDepth => m'.tlsDepth = m.tlsDepth
  | .sslFds => m'.sslFds = m.sslFds

theorem Wait.starts_eq_of_same {w : Wait} {m m' : Maps} (h : w.table.Same m m') :
    w.starts m' = w.starts m := by
  cases w <;> exact h

/-- At most the named maps differ. -/
def SameOff (touched : List SharedMap) (m m' : Maps) : Prop :=
  ∀ t, t ∉ touched → t.Same m m'

namespace SameOff

variable {touched more : List SharedMap} {m m' m'' : Maps}

theorem refl (m : Maps) : SameOff touched m m := by
  intro t _
  cases t <;> rfl

theorem trans (hfirst : SameOff touched m m') (hsecond : SameOff touched m' m'') :
    SameOff touched m m'' := by
  intro t ht
  have h := hfirst t ht
  have h' := hsecond t ht
  cases t <;> exact Eq.trans h' h

theorem mono (h : SameOff touched m m') (hsubset : touched ⊆ more) : SameOff more m m' :=
  fun t ht => h t fun hmem => ht (hsubset hmem)

/-- A change of the ring buffer alone. -/
theorem of_ring (events : List KernelEvent) (droppedEvents : ℕ) :
    SameOff touched m { m with events, droppedEvents } := by
  intro t _
  cases t <;> rfl

/-- A step that is taken or not. -/
theorem ite {c : Prop} [Decidable c] (h : SameOff touched m m') :
    SameOff touched m (if c then m' else m) := by
  split
  · exact h
  · exact .refl m

end SameOff

section Ring

variable (ctx : Context) {touched : List SharedMap}

theorem sameOff_reserveAndSubmit (place : ℕ) (event : KernelEvent) (m : Maps) :
    SameOff touched m (reserveAndSubmit ctx place event m) := by
  unfold reserveAndSubmit
  split <;> exact .of_ring _ _

theorem sameOff_submitChunkLimited (place buffer : ℕ) (actual : ℤ) (label : ChunkLabel)
    (limit : ℕ) (m : Maps) :
    SameOff touched m (submitChunkLimited ctx place buffer actual label limit m) := by
  simp only [submitChunkLimited]
  split
  · exact .refl m
  · split
    · split
      · exact .refl m
      · exact .of_ring _ _
    · exact .of_ring _ _

private theorem sameOff_vectorLoop (label : ChunkLabel) (array count : ℕ) :
    ∀ (slots index remaining budget : ℕ) (m : Maps),
      SameOff touched m (vectorLoop ctx label array count slots index remaining budget m)
  | 0, _, _, _, m => .refl m
  | slots + 1, index, remaining, budget, m => by
    rw [vectorLoop]
    split
    · exact .refl m
    · split
      · exact .refl m
      · next iov _ =>
        dsimp only
        generalize (if remaining < iov.iovLen then remaining else iov.iovLen) = segment
        generalize (if segment < budget then segment else budget) = copied
        by_cases hempty : segment = 0
        · rw [if_pos hempty]
          exact sameOff_vectorLoop label array count slots _ _ _ m
        · rw [if_neg hempty]
          have hsubmit : SameOff touched m _ := sameOff_submitChunkLimited ctx index iov.iovBase
            (reportedSegment index segment copied (remaining - segment) (budget - copied)) label
            copied m
          split
          · exact hsubmit
          · exact hsubmit.trans (sameOff_vectorLoop label array count slots _ _ _ _)

theorem sameOff_submitVectorChunks (rodata : Rodata) (pointer countHint : ℕ) (isMsghdr : Bool)
    (actual : ℤ) (label : ChunkLabel) (m : Maps) :
    SameOff touched m
      (submitVectorChunks rodata ctx pointer countHint isMsghdr actual label m) := by
  simp only [submitVectorChunks]
  split
  · exact .refl m
  · split
    · exact .refl m
    · exact sameOff_vectorLoop ctx label _ _ _ _ _ _ m

theorem sameOff_finishPending (rodata : Rodata) (pending : PendingRead) (ret : ℤ) (m : Maps) :
    SameOff touched m (finishPending rodata ctx pending ret m) := by
  simp only [finishPending]
  split
  · exact .ite (sameOff_submitVectorChunks ctx rodata _ _ _ _ _ m)
  · exact .ite (sameOff_submitChunkLimited ctx 0 _ _ _ _ m)

theorem sameOff_submitConnection (place : ℕ) (sk : Sock) (operation durationNs : ℕ) (m : Maps) :
    SameOff touched m (submitConnection ctx place sk operation durationNs m) := by
  unfold submitConnection
  split
  · exact .refl m
  · split
    · exact .refl m
    · exact sameOff_reserveAndSubmit ctx place _ m

end Ring

/-- The maps a probe writes to. -/
def Probe.touched : Probe → List SharedMap
  | .sysEnter _ _ _ _ => [.targetThreads, .pendingReads, .syscallStarts]
  | .sysExit _ _ => [.pendingReads, .syscallStarts]
  | .sslEnter _ _ | .sslExit _ _ => [.pendingReads, .tlsDepth]
  | .sslSetFd _ _ | .sslFree _ => [.sslFds]
  | .mutexLockEnter | .mutexLockExit _ => [.lockStarts]
  | .udpSendmsg _ | .udpRecvmsg _ | .udpv6Sendmsg _ | .udpv6Recvmsg _ => [.pendingReads]
  | .tcpSendmsg _ | .tcpRecvmsg _ => [.pendingReads, .trackedSockets]
  | .tcpConnect _ => [.pendingReads, .trackedSockets, .handshakeStarts]
  | .tcpSetState _ _ => [.handshakeStarts, .completedHandshakes, .peerResetsSeen]
  | .tcpAccept _ => [.pendingReads, .trackedSockets, .completedHandshakes]
  | .tcpClose _ =>
    [.trackedSockets, .rttLastEmit, .handshakeStarts, .completedHandshakes, .peerResetsSeen]
  | .tcpRcvEstablished _ => [.rttLastEmit]
  | .tcpReset _ => [.peerResetsSeen]
  | .tcpRetransmitSkb _ | .tcpSendActiveReset _ | .cpuSample _ _ => []
  | .schedSwitch _ => [.offcpuStarts]
  | .processExec | .processExit => [.targetTgids, .targetThreads]
  | .pageFaultEnter | .pageFaultExit _ => [.faultStarts]
  | .addTarget _ => [.targetTgids]

section Handlers

variable (ctx : Context) (m : Maps)

private theorem sameOff_handleSysEnter (arch : TargetArch) (id : ℤ) (args0 args1 args2 : ℕ) :
    SameOff [.targetThreads, .pendingReads, .syscallStarts] m
      (handleSysEnter arch ctx id args0 args1 args2 m) := by
  unfold handleSysEnter
  refine .ite ?_
  dsimp only
  intro t ht
  split
  · cases t <;> first | rfl | simp at ht
  · split
    · next call _ => cases call <;> cases t <;> first | rfl | simp at ht
    · cases t <;> first | rfl | simp at ht

theorem sameOff_exitPending (arch : TargetArch) (rodata : Rodata) (id ret : ℤ) :
    SameOff [.pendingReads] m (exitPending arch rodata ctx id ret m) := by
  unfold exitPending
  split
  · refine .ite (.trans ?_ (sameOff_finishPending ctx rodata _ ret _))
    intro t ht
    cases t <;> first | rfl | simp at ht
  · exact .refl m

private theorem sameOff_exitTimed (arch : TargetArch) (id ret : ℤ) :
    SameOff [.syscallStarts] m (exitTimed arch ctx id ret m) := by
  unfold exitTimed
  split
  · refine .ite (.trans ?_ (sameOff_reserveAndSubmit ctx _ _ _))
    intro t ht
    cases t <;> first | rfl | simp at ht
  · exact .refl m

private theorem sameOff_handleSysExit (arch : TargetArch) (rodata : Rodata) (id ret : ℤ) :
    SameOff [.pendingReads, .syscallStarts] m (handleSysExit arch rodata ctx id ret m) := by
  unfold handleSysExit
  split
  · exact .refl m
  · split
    · exact .refl m
    · exact ((sameOff_exitPending ctx m arch rodata id ret).mono (by simp)).trans
        ((sameOff_exitTimed ctx _ arch id ret).mono (by simp))

private theorem sameOff_sslEnter (args : SslArguments) (direction : ℕ) (isEx : Bool) :
    SameOff [.pendingReads, .tlsDepth] m (sslEnter ctx args direction isEx m) := by
  unfold sslEnter
  refine .ite fun t ht => ?_
  cases t <;> first | rfl | simp at ht

private theorem sameOff_sslExit (rodata : Rodata) (direction rc : ℕ) :
    SameOff [.pendingReads, .tlsDepth] m (sslExit rodata ctx direction rc m) := by
  simp only [sslExit]
  split
  · intro t ht
    cases t <;> first | rfl | simp at ht
  · refine .trans ?_ (sameOff_submitChunkLimited ctx 0 _ _ _ _ _)
    intro t ht
    cases t <;> first | rfl | simp at ht

private theorem sameOff_handleSslSetFd (ssl fd : ℕ) :
    SameOff [.sslFds] m (handleSslSetFd ctx ssl fd m) := by
  unfold handleSslSetFd
  refine .ite fun t ht => ?_
  cases t <;> first | rfl | simp at ht

private theorem sameOff_store (w : Wait) (starts : BoundedMap 32768 Thread ℕ) :
    SameOff [w.table] m (w.store starts m) := by
  intro t ht
  cases w <;> cases t <;> first | rfl | simp [Wait.table] at ht

private theorem sameOff_enterWait (w : Wait) : SameOff [w.table] m (w.handleEnter ctx m) :=
  .ite (sameOff_store m w _)

private theorem sameOff_exitWait (w : Wait) (rodata : Rodata) (rc : ℕ) :
    SameOff [w.table] m (w.handleExit rodata ctx rc m) := by
  simp only [Wait.handleExit]
  split
  · exact .refl m
  · split
    · exact sameOff_store m w _
    · exact (sameOff_store m w _).trans (sameOff_reserveAndSubmit ctx 0 _ _)

private theorem sameOff_markDnsSocket (sk : Sock) :
    SameOff [.pendingReads] m (markDnsSocket ctx sk m) := by
  unfold markDnsSocket
  refine .ite fun t ht => ?_
  cases t <;> first | rfl | simp at ht

theorem sameOff_trackSocket (sk : Sock) :
    SameOff [.pendingReads, .trackedSockets] m (trackSocket ctx sk m) := by
  unfold trackSocket
  refine .ite fun t ht => ?_
  cases t <;> first | rfl | simp at ht

private theorem sameOff_handleTcpConnect (sk : Sock) :
    SameOff [.pendingReads, .trackedSockets, .handshakeStarts] m (handleTcpConnect ctx sk m) := by
  have hstart (m : Maps) : SameOff [.pendingReads, .trackedSockets, .handshakeStarts] m
      { m with handshakeStarts := m.handshakeStarts.update sk.handle ctx.now } := by
    intro t ht
    cases t <;> first | rfl | simp at ht
  unfold handleTcpConnect
  exact .ite (((sameOff_trackSocket ctx m sk).mono (by simp)).trans
    ((hstart _).trans (sameOff_submitConnection ctx 0 sk _ _ _)))

private theorem sameOff_handleTcpState (rodata : Rodata) (sk : Sock) (newstate : ℤ) :
    SameOff [.handshakeStarts, .completedHandshakes, .peerResetsSeen] m
      (handleTcpState rodata ctx sk newstate m) := by
  have hestablished : SameOff [.handshakeStarts, .completedHandshakes, .peerResetsSeen] m
      (establishedState ctx sk m) := by
    have hend (m : Maps) : SameOff [.handshakeStarts, .completedHandshakes, .peerResetsSeen] m
        { m with handshakeStarts := m.handshakeStarts.delete sk.handle } := by
      intro t ht
      cases t <;> first | rfl | simp at ht
    have hcompleted (durationNs : ℕ) :
        SameOff [.handshakeStarts, .completedHandshakes, .peerResetsSeen] m
          (if (m.trackedSockets.lookup sk.handle).isSome then
            submitConnection ctx 0 sk OP_TCP_HANDSHAKE durationNs m
          else
            { m with
              completedHandshakes := m.completedHandshakes.update sk.handle durationNs }) := by
      split
      · exact sameOff_submitConnection ctx 0 sk _ _ m
      · intro t ht
        cases t <;> first | rfl | simp at ht
    simp only [establishedState]
    exact (hcompleted _).trans (.ite (hend _))
  have hclosed : SameOff [.handshakeStarts, .completedHandshakes, .peerResetsSeen] m
      (closedState ctx sk m) := by
    have hend (m : Maps) (starts completed resets : BoundedMap 65536 ℕ ℕ) :
        SameOff [.handshakeStarts, .completedHandshakes, .peerResetsSeen] m
          { m with
            handshakeStarts := starts
            completedHandshakes := completed
            peerResetsSeen := resets } := by
      intro t ht
      cases t <;> first | rfl | simp at ht
    simp only [closedState]
    exact .trans (.ite (sameOff_submitConnection ctx 0 sk _ _ _))
      (.trans (.ite (sameOff_submitConnection ctx 1 sk _ _ _)) (hend _ _ _ _))
  unfold handleTcpState
  split
  · exact .refl m
  · split
    · intro t ht
      cases t <;> first | rfl | simp at ht
    · split
      · exact hestablished
      · exact .ite hclosed

private theorem sameOff_handleTcpAccept (sk : Option Sock) :
    SameOff [.pendingReads, .trackedSockets, .completedHandshakes] m
      (handleTcpAccept ctx sk m) := by
  cases sk with
  | none => exact .refl m
  | some sk =>
    have htrack : SameOff [.pendingReads, .trackedSockets, .completedHandshakes] m
        (submitConnection ctx 0 sk OP_TCP_ACCEPT 0 (trackSocket ctx sk m)) :=
      .trans ((sameOff_trackSocket ctx m sk).mono (by simp))
        (sameOff_submitConnection ctx 0 sk OP_TCP_ACCEPT 0 _)
    simp only [handleTcpAccept]
    split
    · refine htrack.trans ?_
      split
      · next duration _ =>
        refine .trans (sameOff_submitConnection ctx 1 sk OP_TCP_HANDSHAKE duration _) ?_
        intro t ht
        cases t <;> first | rfl | simp at ht
      · exact sameOff_submitConnection ctx 1 sk _ _ _
    · exact .refl m

private theorem sameOff_handleTcpClose (sk : Sock) :
    SameOff [.trackedSockets, .rttLastEmit, .handshakeStarts, .completedHandshakes,
      .peerResetsSeen] m (handleTcpClose ctx sk m) := by
  unfold handleTcpClose
  refine .trans ?_ (.ite (.trans (sameOff_submitConnection ctx 0 sk OP_TCP_CLOSE 0 _) ?_))
  · intro t ht
    cases t <;> first | rfl | simp at ht
  · intro t ht
    cases t <;> first | rfl | simp at ht

private theorem sameOff_handleTcpRtt (rodata : Rodata) (sk : Sock) :
    SameOff [.rttLastEmit] m (handleTcpRtt rodata ctx sk m) := by
  unfold handleTcpRtt
  refine .ite (.trans ?_ (.trans (sameOff_submitConnection ctx 0 sk OP_TCP_RTT _ _)
    (.ite (sameOff_submitConnection ctx 1 sk _ _ _))))
  intro t ht
  cases t <;> first | rfl | simp at ht

private theorem sameOff_handleTcpReset (sk : Sock) :
    SameOff [.peerResetsSeen] m (handleTcpReset ctx sk m) := by
  unfold handleTcpReset
  refine .ite (.trans (sameOff_submitConnection ctx 0 sk OP_TCP_RESET_RECEIVED 0 _) ?_)
  intro t ht
  cases t <;> first | rfl | simp at ht

private theorem sameOff_handleSchedSwitch (rodata : Rodata) (switch : SchedSwitch) :
    SameOff [.offcpuStarts] m (handleSchedSwitch rodata ctx switch m) := by
  have hprev : SameOff [.offcpuStarts] m
      (if (m.targetThreads.lookup switch.prevPid).isSome then
        { m with offcpuStarts := m.offcpuStarts.update switch.prevPid ctx.now } else m) := by
    refine .ite fun t ht => ?_
    cases t <;> first | rfl | simp at ht
  simp only [handleSchedSwitch]
  generalize (if (m.targetThreads.lookup switch.prevPid).isSome then
    { m with offcpuStarts := m.offcpuStarts.update switch.prevPid ctx.now } else m) = m'
    at hprev ⊢
  have hdelete : SameOff [.offcpuStarts] m'
      { m' with offcpuStarts := m'.offcpuStarts.delete switch.nextPid } := by
    intro t ht
    cases t <;> first | rfl | simp at ht
  refine hprev.trans ?_
  split
  · split
    · exact hdelete
    · exact hdelete.trans (sameOff_reserveAndSubmit ctx 0 _ _)
  · exact .refl m'

private theorem sameOff_handleProcessExec :
    SameOff [.targetTgids, .targetThreads] m (handleProcessExec ctx m) := by
  unfold handleProcessExec
  refine .ite (.trans ?_ (sameOff_reserveAndSubmit ctx 0 _ _))
  intro t ht
  cases t <;> first | rfl | simp at ht

private theorem sameOff_handleProcessExit :
    SameOff [.targetTgids, .targetThreads] m (handleProcessExit ctx m) := by
  have hthread : SameOff [.targetTgids, .targetThreads] m
      { m with targetThreads := m.targetThreads.delete ctx.thread.pid } := by
    intro t ht
    cases t <;> first | rfl | simp at ht
  simp only [handleProcessExit]
  split
  · exact hthread
  · refine .trans (hthread.trans
      (sameOff_reserveAndSubmit ctx 0 (processEvent ctx OP_PROCESS_EXIT) _)) ?_
    intro t ht
    cases t <;> first | rfl | simp at ht

end Handlers

/-- A firing leaves alone the maps its probe does not touch. -/
theorem fire_sameOff (setup : Setup) (m : Maps) (f : Firing) :
    SameOff f.probe.touched m (fire setup m f) := by
  unfold fire
  cases f.probe with
  | sysEnter id args0 args1 args2 => exact sameOff_handleSysEnter f.ctx m _ _ _ _ _
  | sysExit id ret => exact sameOff_handleSysExit f.ctx m _ _ _ _
  | sslEnter call args => exact sameOff_sslEnter f.ctx m _ _ _
  | sslExit call rc => exact sameOff_sslExit f.ctx m _ _ _
  | sslSetFd ssl fd => exact sameOff_handleSslSetFd f.ctx m _ _
  | sslFree ssl =>
    intro t ht
    cases t <;> first | rfl | simp [Probe.touched] at ht
  | mutexLockEnter => exact sameOff_enterWait f.ctx m .lock
  | mutexLockExit rc => exact sameOff_exitWait f.ctx m .lock _ _
  | udpSendmsg sk | udpRecvmsg sk | udpv6Sendmsg sk | udpv6Recvmsg sk =>
    exact sameOff_markDnsSocket f.ctx m sk
  | tcpSendmsg sk | tcpRecvmsg sk => exact sameOff_trackSocket f.ctx m sk
  | tcpConnect sk => exact sameOff_handleTcpConnect f.ctx m sk
  | tcpSetState sk newstate => exact sameOff_handleTcpState f.ctx m _ sk newstate
  | tcpAccept sk => exact sameOff_handleTcpAccept f.ctx m sk
  | tcpClose sk => exact sameOff_handleTcpClose f.ctx m sk
  | tcpRcvEstablished sk => exact sameOff_handleTcpRtt f.ctx m _ sk
  | tcpRetransmitSkb sk => exact .ite (sameOff_submitConnection f.ctx 0 sk _ _ m)
  | tcpReset sk => exact sameOff_handleTcpReset f.ctx m sk
  | tcpSendActiveReset sk => exact .ite (sameOff_submitConnection f.ctx 0 sk _ _ m)
  | schedSwitch switch => exact sameOff_handleSchedSwitch f.ctx m _ switch
  | processExec => exact sameOff_handleProcessExec f.ctx m
  | processExit => exact sameOff_handleProcessExit f.ctx m
  | pageFaultEnter => exact sameOff_enterWait f.ctx m .pageFault
  | pageFaultExit rc => exact sameOff_exitWait f.ctx m .pageFault _ _
  | cpuSample userStack kernelStack => exact .ite (sameOff_reserveAndSubmit f.ctx 0 _ m)
  | addTarget tgid =>
    intro t ht
    cases t <;> first | rfl | simp [Probe.touched] at ht

end MongoDam.Bpf
