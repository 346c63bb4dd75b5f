import MongoDam.Bpf.Submissions
import MongoDam.Lib.LastWrite

/-!
# Where an entry of a map comes from

For each map that later records take something from: an entry that is there after a
firing was written by that firing, or was there before and the firing did not touch it.
Along a run from empty maps an entry is therefore the work of one firing, the last one
that wrote to it.
-/

namespace MongoDam.Bpf

open Lib Observer

/-- The maps after a run of firings from empty maps. -/
abbrev ran (setup : Setup) (fs : List Firing) : Maps := after (fire setup) {} fs

/-- The records submitted by a firing after a run. -/
abbrev submittedAfter (setup : Setup) (older : List Firing) (f : Firing) : List KernelEvent :=
  submitted (ran setup older) (fire setup (ran setup older) f)

/-- There is a place for the key among at most `limit` entries, its own or a free one. -/
def HasPlace {capacity : ℕ} {κ ν : Type} [DecidableEq κ] (limit : ℕ)
    (entries : BoundedMap capacity κ ν) (key : κ) : Prop :=
  (entries.lookup key).isSome = true ∨ entries.table.size < limit

/-- The socket a probe of DNS gives the call of its thread to. -/
def Probe.dnsSocket : Probe → Option Sock
  | .udpSendmsg sk | .udpRecvmsg sk | .udpv6Sendmsg sk | .udpv6Recvmsg sk => some sk
  | _ => none

namespace Firing

variable (setup : Setup) (m : Maps) (f : Firing)

/-- The firing names a process a target: the scan found it, or it started as one. -/
def Names (tgid : ℕ) : Prop :=
  f.probe = .addTarget tgid ∨
    f.probe = .processExec ∧ isMongodbComm f.ctx.comm = true ∧ f.ctx.thread.tgid = tgid

/-- The process ends. -/
def Ends (tgid : ℕ) : Prop :=
  f.probe = .processExit ∧ f.ctx.thread.pid = tgid ∧ f.ctx.thread.tgid = tgid

/-- A system call of a target outside the TLS library. -/
def OfPlainTarget : Prop :=
  m.isTargetTgid f.ctx.thread.tgid = true ∧ m.tlsDepth.lookup f.ctx.thread = none

/-- The firing begins or ends a call of the thread whose bytes are captured. -/
def Moves (thread : Thread) : Prop :=
  f.ctx.thread = thread ∧
    match f.probe with
    | .sysEnter id _ _ _ | .sysExit id _ =>
      f.OfPlainTarget m ∧ setup.arch.movesBytes id = true
    | .sslEnter _ _ => m.isTargetTgid thread.tgid = true
    | .sslExit _ _ => True
    | _ => False

/-- The firing begins or ends a call of the thread whose latency is reported. -/
def Times (thread : Thread) : Prop :=
  f.ctx.thread = thread ∧
    match f.probe with
    | .sysEnter id _ _ _ | .sysExit id _ =>
      f.OfPlainTarget m ∧ (setup.arch.syscall id).any Syscall.isTimed = true
    | _ => False

/-- The firing begins a wait of the thread. -/
def BeginsWait (w : Wait) (thread : Thread) : Prop :=
  f.ctx.thread = thread ∧ f.probe = w.enter ∧ m.isTargetTgid thread.tgid = true

/-- The firing begins or ends a wait of the thread. -/
def Waits (w : Wait) (thread : Thread) : Prop :=
  f.BeginsWait m w thread ∨ f.ctx.thread = thread ∧ ∃ rc, f.probe = w.exit rc

/-- The firing destroys the socket. -/
def Closes (handle : ℕ) : Prop :=
  match f.probe with
  | .tcpClose sk => sk.handle = handle
  | _ => False

/-- Changes of state of the socket are followed: it is tracked, or of the server's port. -/
def Minds (sk : Sock) : Prop :=
  (m.trackedSockets.lookup sk.handle).isSome = true ∨ sk.skcNum = setup.rodata.mongodbPort

/-- The firing begins a handshake of the socket. -/
def Begins (handle : ℕ) : Prop :=
  match f.probe with
  | .tcpConnect sk => sk.handle = handle ∧ m.isTargetTgid f.ctx.thread.tgid = true
  | .tcpSetState sk newstate => sk.handle = handle ∧ Minds setup m sk ∧
      (newstate = TCP_SYN_SENT_STATE ∨ newstate = TCP_SYN_RECV_STATE)
  | _ => False

/-- The firing begins a handshake of the socket or ends it, well or not. -/
def Settles (handle : ℕ) : Prop :=
  f.Begins setup m handle ∨ f.Closes handle ∨
    match f.probe with
    | .tcpSetState sk newstate => sk.handle = handle ∧ Minds setup m sk ∧
        (newstate = TCP_ESTABLISHED_STATE ∨ newstate = TCP_CLOSE_STATE)
    | _ => False

/-- The firing completes the handshake of a socket that no process has yet. -/
def Completes (handle : ℕ) : Prop :=
  match f.probe with
  | .tcpSetState sk newstate => sk.handle = handle ∧ Minds setup m sk ∧
      newstate = TCP_ESTABLISHED_STATE ∧ m.trackedSockets.lookup handle = none
  | _ => False

/-- The firing completes a handshake of the socket, hands a completed one over, or closes. -/
def Clears (handle : ℕ) : Prop :=
  f.Completes setup m handle ∨ f.Closes handle ∨
    match f.probe with
    | .tcpSetState sk newstate => sk.handle = handle ∧ Minds setup m sk ∧
        newstate = TCP_CLOSE_STATE
    | .tcpAccept (some sk) => sk.handle = handle ∧ m.isTargetTgid f.ctx.thread.tgid = true
    | _ => False

/-- What a firing makes of a pending call of the thread: a socket the call is taken to, of a
connection or of DNS, gives it its key. -/
def taken (thread : Thread) (pending : PendingRead) : PendingRead :=
  if f.ctx.thread = thread ∧ m.isTargetTgid thread.tgid = true then
    match f.probe.tracks, f.probe.dnsSocket with
    | some sk, _ =>
      { pending with
        connectionKey :=
          if sk.handle ≠ 0 then (trackedOwner f.ctx sk m).connectionKey else pending.connectionKey
        isNetwork := true }
    | none, some sk =>
      { pending with connectionKey := socketConnectionKey sk, isNetwork := true, protocol := 1 }
    | none, none => pending
  else pending

end Firing

/-- The time since the handshake of a socket began, or zero. -/
def handshakeDuration (ctx : Context) (m : Maps) (handle : ℕ) : ℕ :=
  match m.handshakeStarts.lookup handle with
  | some start => sub64 ctx.now start
  | none => 0

/-- How the buffers of a captured system call are given. -/
def Syscall.vectorKind : Syscall → ℕ
  | .readv | .writev => 1
  | .recvmsg | .sendmsg => 2
  | _ => 0

/-- The direction of a captured system call. -/
def Syscall.direction : Syscall → ℕ
  | .write | .sendto | .writev | .sendmsg => DIRECTION_OUTBOUND
  | _ => DIRECTION_INBOUND

/-- What a timed system call leaves behind until it returns. -/
def Syscall.started (ctx : Context) (fd : ℤ) (args2 : ℕ) : Syscall → SyscallStart
  | .pread64 => ⟨ctx.now, args2, fd, OP_PREAD⟩
  | .pwrite64 => ⟨ctx.now, args2, fd, OP_PWRITE⟩
  | .fsync => ⟨ctx.now, 0, fd, OP_FSYNC⟩
  | .fdatasync => ⟨ctx.now, 0, fd, OP_FDATASYNC⟩
  | _ => ⟨ctx.now, 0, -1, OP_OPENAT⟩

/-- The descriptor of a system call, from its first argument. -/
def descriptor (args0 : ℕ) : ℤ := signed32 (args0 % 2 ^ 32)

/-- The call a firing leaves pending for its thread. -/
inductive Firing.Enters (setup : Setup) (m : Maps) (f : Firing) : PendingRead → Prop
  | syscall {id args0 args1 args2 call} (hprobe : f.probe = .sysEnter id args0 args1 args2)
      (hplain : f.OfPlainTarget m) (hcall : setup.arch.syscall id = some call)
      (hmoves : call.movesBytes = true) :
      Firing.Enters setup m f
        (syscallPending args1 args2 (descriptor args0) call.vectorKind call.direction)
  | ssl {call args} (hprobe : f.probe = .sslEnter call args)
      (htarget : m.isTargetTgid f.ctx.thread.tgid = true) :
      Firing.Enters setup m f
        { buffer := args.buffer
          lengthPointer := if call.isEx then args.lengthPointer else 0
          requested := args.requested
          connectionKey :=
            if 0 ≤ (m.sslFds.lookup args.ssl).getD (-1) then
              unsignedFd ((m.sslFds.lookup args.ssl).getD (-1))
            else args.ssl
          fd := (m.sslFds.lookup args.ssl).getD (-1)
          source := SOURCE_OPENSSL
          vectorKind := 0
          isEx := call.isEx
          direction := call.direction
          isNetwork := true }

/-- The latency a firing starts to measure for its thread. -/
def Firing.Starts (setup : Setup) (m : Maps) (f : Firing) (start : SyscallStart) : Prop :=
  ∃ id args0 args1 args2 call, f.probe = .sysEnter id args0 args1 args2 ∧ f.OfPlainTarget m ∧
    setup.arch.syscall id = some call ∧ call.isTimed = true ∧
      start = call.started f.ctx (descriptor args0) args2

/-- The call has been taken to a socket, or is still as it was entered. -/
structure PendingRead.SameCall (p q : PendingRead) : Prop where
  buffer : p.buffer = q.buffer
  lengthPointer : p.lengthPointer = q.lengthPointer
  requested : p.requested = q.requested
  fd : p.fd = q.fd
  source : p.source = q.source
  vectorKind : p.vectorKind = q.vectorKind
  isEx : p.isEx = q.isEx
  direction : p.direction = q.direction

theorem PendingRead.SameCall.refl (p : PendingRead) : p.SameCall p :=
  ⟨rfl, rfl, rfl, rfl, rfl, rfl, rfl, rfl⟩

theorem PendingRead.SameCall.trans {p q r : PendingRead} (hpq : p.SameCall q)
    (hqr : q.SameCall r) : p.SameCall r :=
  ⟨hpq.buffer.trans hqr.buffer, hpq.lengthPointer.trans hqr.lengthPointer,
    hpq.requested.trans hqr.requested, hpq.fd.trans hqr.fd, hpq.source.trans hqr.source,
    hpq.vectorKind.trans hqr.vectorKind, hpq.isEx.trans hqr.isEx,
    hpq.direction.trans hqr.direction⟩

section Targets

variable {setup : Setup} {m : Maps} {f : Firing}

/-- A target was named one by the firing, or was one before and did not end. -/
theorem targetTgids_written {tgid mark : ℕ}
    (h : (fire setup m f).targetTgids.lookup tgid = some mark) :
    f.Names tgid ∨ ¬ f.Ends tgid ∧ m.targetTgids.lookup tgid = some mark := by
  cases hprobe : f.probe with
  | addTarget found =>
    simp only [fire, hprobe, addTarget] at h
    rcases BoundedMap.of_lookup_update h with ⟨rfl, -⟩ | ⟨_, hbefore⟩
    · exact .inl (.inl hprobe)
    · exact .inr ⟨by simp [Firing.Ends, hprobe], hbefore⟩
  | processExec =>
    have hends : ¬ f.Ends tgid := by simp [Firing.Ends, hprobe]
    simp only [fire, hprobe, handleProcessExec] at h
    split at h
    · next hcomm =>
      have hring : SameOff [] _ _ := sameOff_reserveAndSubmit f.ctx 0
        (processEvent f.ctx OP_PROCESS_EXEC) { m with
          targetTgids := m.targetTgids.update f.ctx.thread.tgid 1
          targetThreads := m.targetThreads.update f.ctx.thread.pid f.ctx.thread.tgid }
      rw [show _ = _ from hring .targetTgids (by simp)] at h
      rcases BoundedMap.of_lookup_update h with ⟨hsame, -⟩ | ⟨_, hbefore⟩
      · exact .inl (.inr ⟨hprobe, hcomm, hsame.symm⟩)
      · exact .inr ⟨hends, hbefore⟩
    · exact .inr ⟨hends, h⟩
  | processExit =>
    simp only [fire, hprobe, handleProcessExit] at h
    split at h
    · next hother =>
      refine .inr ⟨?_, h⟩
      rintro ⟨_, hpid, htgid⟩
      rcases hother with hthread | htarget
      · exact hthread (hpid.trans htgid.symm)
      · rw [Maps.isTargetTgid, htgid] at htarget
        rw [h] at htarget
        cases htarget
    · have hring : SameOff [] _ _ := sameOff_reserveAndSubmit f.ctx 0
        (processEvent f.ctx OP_PROCESS_EXIT)
        { m with targetThreads := m.targetThreads.delete f.ctx.thread.pid }
      rw [show _ = _ from hring .targetTgids (by simp)] at h
      obtain ⟨hother, hbefore⟩ := BoundedMap.of_lookup_delete h
      exact .inr ⟨fun hends => hother hends.2.2.symm, hbefore⟩
  | _ =>
    have hsame : (fire setup m f).targetTgids = m.targetTgids :=
      fire_sameOff setup m f .targetTgids (by simp [hprobe, Probe.touched])
    rw [hsame] at h
    exact .inr ⟨by simp [Firing.Ends, hprobe], h⟩

/-- Entering a system call as part of a target has the thread watched. -/
private theorem targetThreads_handleSysEnter (arch : TargetArch) (ctx : Context) (id : ℤ)
    (args0 args1 args2 : ℕ) (htarget : m.isTargetTgid ctx.thread.tgid = true) :
    (handleSysEnter arch ctx id args0 args1 args2 m).targetThreads =
      m.targetThreads.update ctx.thread.pid ctx.thread.tgid := by
  rw [handleSysEnter, if_pos htarget]
  dsimp only
  split
  · rfl
  · split
    · next call _ => cases call <;> rfl
    · rfl

/-- A watched thread is of the process that last showed it at work, and did not end. -/
theorem targetThreads_written {pid tgid : ℕ}
    (h : (fire setup m f).targetThreads.lookup pid = some tgid) :
    f.ctx.thread = ⟨tgid, pid⟩ ∧ (f.Names tgid ∨ m.isTargetTgid tgid = true) ∨
      ¬ (f.probe = .processExit ∧ f.ctx.thread.pid = pid) ∧
        m.targetThreads.lookup pid = some tgid := by
  cases hprobe : f.probe with
  | sysEnter id args0 args1 args2 =>
    simp only [fire, hprobe] at h
    by_cases htarget : m.isTargetTgid f.ctx.thread.tgid = true
    · rw [targetThreads_handleSysEnter _ _ _ _ _ _ htarget] at h
      rcases BoundedMap.of_lookup_update h with ⟨hpid, htgid⟩ | ⟨_, hbefore⟩
      · rw [hpid, htgid]
        exact .inl ⟨rfl, .inr htarget⟩
      · exact .inr ⟨by simp, hbefore⟩
    · rw [handleSysEnter, if_neg htarget] at h
      exact .inr ⟨by simp, h⟩
  | processExec =>
    simp only [fire, hprobe, handleProcessExec] at h
    split at h
    · next hcomm =>
      have hring : SameOff [] _ _ := sameOff_reserveAndSubmit f.ctx 0
        (processEvent f.ctx OP_PROCESS_EXEC) { m with
          targetTgids := m.targetTgids.update f.ctx.thread.tgid 1
          targetThreads := m.targetThreads.update f.ctx.thread.pid f.ctx.thread.tgid }
      rw [show _ = _ from hring .targetThreads (by simp)] at h
      rcases BoundedMap.of_lookup_update h with ⟨hpid, htgid⟩ | ⟨_, hbefore⟩
      · rw [hpid, htgid]
        exact .inl ⟨rfl, .inl (.inr ⟨hprobe, hcomm, rfl⟩)⟩
      · exact .inr ⟨by simp, hbefore⟩
    · exact .inr ⟨by simp, h⟩
  | processExit =>
    have hkept : (fire setup m f).targetThreads = m.targetThreads.delete f.ctx.thread.pid := by
      simp only [fire, hprobe, handleProcessExit]
      split
      · rfl
      · exact (show SameOff [] _ _ from sameOff_reserveAndSubmit f.ctx 0 _ _)
          .targetThreads (by simp)
    rw [hkept] at h
    obtain ⟨hne, hbefore⟩ := BoundedMap.of_lookup_delete h
    exact .inr ⟨fun hexit => hne hexit.2.symm, hbefore⟩
  | _ =>
    have hsame : (fire setup m f).targetThreads = m.targetThreads :=
      fire_sameOff setup m f .targetThreads (by simp [hprobe, Probe.touched])
    rw [hsame] at h
    exact .inr ⟨by simp, h⟩

end Targets

section Calls

variable {setup : Setup} {m : Maps} {f : Firing}

/-- A system call that moves bytes is remembered. -/
private theorem enterSyscall_moves (ctx : Context) {call : Syscall}
    (hmoves : call.movesBytes = true) (fd : ℤ) (args1 args2 : ℕ) (m : Maps) :
    enterSyscall ctx fd args1 args2 call m =
      rememberRead ctx (syscallPending args1 args2 fd call.vectorKind call.direction) m := by
  cases call with
  | pread64 | pwrite64 | fsync | fdatasync | openat => cases hmoves
  | read | write | readv | writev | sendto | recvfrom | sendmsg | recvmsg => rfl

/-- Every other system call is timed. -/
private theorem enterSyscall_timed (ctx : Context) {call : Syscall}
    (hmoves : call.movesBytes = false) (fd : ℤ) (args1 args2 : ℕ) (m : Maps) :
    call.isTimed = true ∧ enterSyscall ctx fd args1 args2 call m =
      { m with
        syscallStarts := m.syscallStarts.update ctx.thread (call.started ctx fd args2) } := by
  cases call with
  | pread64 | pwrite64 | fsync | fdatasync | openat => exact ⟨rfl, rfl⟩
  | read | write | readv | writev | sendto | recvfrom | sendmsg | recvmsg => cases hmoves

private theorem movesBytes_of_syscall {arch : TargetArch} {id : ℤ} {call : Syscall}
    (hcall : arch.syscall id = some call) : arch.movesBytes id = call.movesBytes := by
  simp [TargetArch.movesBytes, hcall]

/-- Inside the TLS library and outside the targets a system call is at most seen. -/
private theorem handleSysEnter_of_not_plain (hplain : ¬ f.OfPlainTarget m) (arch : TargetArch)
    (id : ℤ) (args0 args1 args2 : ℕ) :
    ∃ threads, handleSysEnter arch f.ctx id args0 args1 args2 m =
      { m with targetThreads := threads } := by
  by_cases htarget : m.isTargetTgid f.ctx.thread.tgid = true
  · have htls : (m.tlsDepth.lookup f.ctx.thread).isSome = true := by
      rw [Option.isSome_iff_ne_none]
      exact fun hnone => hplain ⟨htarget, hnone⟩
    rw [handleSysEnter, if_pos htarget]
    exact ⟨_, if_pos htls⟩
  · rw [handleSysEnter, if_neg htarget]
    exact ⟨m.targetThreads, rfl⟩

/-- A system call of a target outside the TLS library is remembered or timed. -/
private theorem handleSysEnter_of_plain (hplain : f.OfPlainTarget m) (arch : TargetArch)
    (id : ℤ) (args0 args1 args2 : ℕ) :
    ∃ threads, handleSysEnter arch f.ctx id args0 args1 args2 m =
      match arch.syscall id with
      | some call =>
        enterSyscall f.ctx (descriptor args0) args1 args2 call { m with targetThreads := threads }
      | none => { m with targetThreads := threads } := by
  have htls : ¬ (m.tlsDepth.lookup f.ctx.thread).isSome = true := by simp [hplain.2]
  rw [handleSysEnter, if_pos hplain.1]
  exact ⟨_, if_neg htls⟩

/-- A call that is taken to a socket is the same call. -/
theorem Firing.sameCall_taken (m : Maps) (f : Firing) (thread : Thread) (pending : PendingRead) :
    (f.taken m thread pending).SameCall pending := by
  unfold Firing.taken
  split
  · split <;> exact ⟨rfl, rfl, rfl, rfl, rfl, rfl, rfl, rfl⟩
  · exact .refl pending

/-- What a change of a target's own call leaves of a pending call. -/
private theorem of_modified_call {ctx : Context} {change : PendingRead → PendingRead}
    {thread : Thread} {pending : PendingRead}
    (h : (if m.isTargetTgid ctx.thread.tgid then m.pendingReads.modify ctx.thread change
      else m.pendingReads).lookup thread = some pending) :
    ∃ before, m.pendingReads.lookup thread = some before ∧
      pending = if ctx.thread = thread ∧ m.isTargetTgid thread.tgid = true then change before
        else before := by
  by_cases htarget : m.isTargetTgid ctx.thread.tgid = true
  · rw [if_pos htarget] at h
    rcases BoundedMap.of_lookup_modify h with ⟨rfl, before, hbefore, rfl⟩ | ⟨hother, hbefore⟩
    · exact ⟨before, hbefore, by rw [if_pos ⟨rfl, htarget⟩]⟩
    · exact ⟨pending, hbefore, by rw [if_neg fun hown => hother hown.1.symm]⟩
  · rw [if_neg htarget] at h
    refine ⟨pending, h, ?_⟩
    rw [if_neg]
    rintro ⟨rfl, hyes⟩
    exact htarget hyes

/-- What a handler that tracks a socket leaves of a pending call. -/
private theorem tracked_written {sk : Sock} {thread : Thread} {pending : PendingRead}
    (htracks : f.probe.tracks = some sk)
    (h : (trackSocket f.ctx sk m).pendingReads.lookup thread = some pending) :
    ∃ before, m.pendingReads.lookup thread = some before ∧ pending = f.taken m thread before := by
  have hkept : (trackSocket f.ctx sk m).pendingReads =
      if m.isTargetTgid f.ctx.thread.tgid then m.pendingReads.modify f.ctx.thread _
      else m.pendingReads := apply_ite Maps.pendingReads ..
  rw [hkept] at h
  obtain ⟨before, hbefore, hpending⟩ := of_modified_call h
  exact ⟨before, hbefore, by rw [hpending, Firing.taken, htracks]⟩

/-- What a handler of DNS leaves of a pending call. -/
private theorem marked_written {sk : Sock} {thread : Thread} {pending : PendingRead}
    (htracks : f.probe.tracks = none) (hdns : f.probe.dnsSocket = some sk)
    (h : (markDnsSocket f.ctx sk m).pendingReads.lookup thread = some pending) :
    ∃ before, m.pendingReads.lookup thread = some before ∧ pending = f.taken m thread before := by
  have hkept : (markDnsSocket f.ctx sk m).pendingReads =
      if m.isTargetTgid f.ctx.thread.tgid then m.pendingReads.modify f.ctx.thread _
      else m.pendingReads := apply_ite Maps.pendingReads ..
  rw [hkept] at h
  obtain ⟨before, hbefore, hpending⟩ := of_modified_call h
  exact ⟨before, hbefore, by rw [hpending, Firing.taken, htracks, hdns]⟩

/-- A firing that reaches no socket leaves a pending call as it is. -/
private theorem Firing.taken_eq_self (htracks : f.probe.tracks = none)
    (hdns : f.probe.dnsSocket = none) (thread : Thread) (pending : PendingRead) :
    f.taken m thread pending = pending := by
  simp [Firing.taken, htracks, hdns]

/-- Leaving the TLS library leaves no call pending. -/
private theorem sslExit_written {rodata : Rodata} {ctx : Context} {direction rc : ℕ}
    {thread : Thread} {pending : PendingRead}
    (h : (sslExit rodata ctx direction rc m).pendingReads.lookup thread = some pending) :
    thread ≠ ctx.thread ∧ m.pendingReads.lookup thread = some pending := by
  cases hown : m.pendingReads.lookup ctx.thread with
  | none =>
    simp only [sslExit, hown] at h
    refine ⟨?_, h⟩
    rintro rfl
    rw [hown] at h
    cases h
  | some left =>
    have hkept : (sslExit rodata ctx direction rc m).pendingReads =
        m.pendingReads.delete ctx.thread := by
      simp only [sslExit, hown]
      exact (show SameOff [] _ _ from sameOff_submitChunkLimited ctx 0 _ _ _ _ _)
        .pendingReads (by simp)
    rw [hkept] at h
    exact BoundedMap.of_lookup_delete h

/-- Leaving a system call leaves none of the thread pending, when it is one that moves bytes. -/
private theorem sysExit_written {arch : TargetArch} {rodata : Rodata} {ctx : Context}
    {id ret : ℤ} {thread : Thread} {pending : PendingRead}
    (h : (handleSysExit arch rodata ctx id ret m).pendingReads.lookup thread = some pending) :
    m.pendingReads.lookup thread = some pending ∧
      (thread = ctx.thread → m.isTargetTgid ctx.thread.tgid = true →
        m.tlsDepth.lookup ctx.thread = none → arch.movesBytes id = false) := by
  rcases handleSysExit_cases arch rodata ctx m id ret with
    ⟨hout, hwrites⟩ | ⟨_, _, hown, _, hgone, _⟩
  · rw [hwrites.same.pendingReads] at h
    refine ⟨h, fun _ htarget htls => ?_⟩
    rcases hout with hout | hout | hout
    · rw [htarget] at hout
      cases hout
    · rw [htls] at hout
      cases hout
    · exact hout
  · have hother : thread ≠ ctx.thread := by
      rintro rfl
      rw [hgone] at h
      cases h
    rw [hown.pendingReads thread hother] at h
    exact ⟨h, fun hsame => absurd hsame hother⟩

/-- A pending call is the one the thread just entered, or one it entered before and is still
in, which the firing may take to a socket. -/
theorem pendingReads_written {thread : Thread} {pending : PendingRead}
    (h : (fire setup m f).pendingReads.lookup thread = some pending) :
    f.ctx.thread = thread ∧ f.Enters setup m pending ∨
      ¬ f.Moves setup m thread ∧ ∃ before, m.pendingReads.lookup thread = some before ∧
        pending = f.taken m thread before := by
  -- most firings reach no socket
  have kept (htracks : f.probe.tracks = none) (hdns : f.probe.dnsSocket = none)
      (hbefore : m.pendingReads.lookup thread = some pending) :
      ∃ before, m.pendingReads.lookup thread = some before ∧ pending = f.taken m thread before :=
    ⟨pending, hbefore, (Firing.taken_eq_self htracks hdns thread pending).symm⟩
  cases hprobe : f.probe with
  | sysEnter id args0 args1 args2 =>
    replace kept := kept (by rw [hprobe]; rfl) (by rw [hprobe]; rfl)
    simp only [fire, hprobe] at h
    by_cases hplain : f.OfPlainTarget m
    · obtain ⟨threads, henter⟩ :=
        handleSysEnter_of_plain hplain setup.arch id args0 args1 args2
      cases hcall : setup.arch.syscall id with
      | none =>
        simp only [henter, hcall] at h
        refine .inr ⟨?_, kept h⟩
        simp [Firing.Moves, hprobe, TargetArch.movesBytes, hcall]
      | some call =>
        simp only [henter, hcall] at h
        cases hmoves : call.movesBytes with
        | true =>
          rw [enterSyscall_moves f.ctx hmoves] at h
          rcases BoundedMap.of_lookup_update h with ⟨rfl, rfl⟩ | ⟨hother, hbefore⟩
          · exact .inl ⟨rfl, .syscall hprobe hplain hcall hmoves⟩
          · exact .inr ⟨fun hown => hother hown.1.symm, kept hbefore⟩
        | false =>
          rw [(enterSyscall_timed f.ctx hmoves _ _ _ _).2] at h
          refine .inr ⟨?_, kept h⟩
          simp [Firing.Moves, hprobe, movesBytes_of_syscall hcall, hmoves]
    · obtain ⟨threads, henter⟩ :=
        handleSysEnter_of_not_plain hplain setup.arch id args0 args1 args2
      rw [henter] at h
      exact .inr ⟨by simp [Firing.Moves, hprobe, hplain], kept h⟩
  | sysExit id ret =>
    simp only [fire, hprobe] at h
    obtain ⟨hbefore, hkept⟩ := sysExit_written h
    refine .inr ⟨?_, kept (by rw [hprobe]; rfl) (by rw [hprobe]; rfl) hbefore⟩
    rintro ⟨hthread, hmoves⟩
    rw [hprobe] at hmoves
    obtain ⟨⟨htarget, htls⟩, hmoves⟩ := hmoves
    rw [hkept hthread.symm htarget htls] at hmoves
    cases hmoves
  | sslEnter call args =>
    replace kept := kept (by rw [hprobe]; rfl) (by rw [hprobe]; rfl)
    simp only [fire, hprobe] at h
    by_cases htarget : m.isTargetTgid f.ctx.thread.tgid = true
    · rw [sslEnter, if_pos htarget] at h
      rcases BoundedMap.of_lookup_update h with ⟨rfl, rfl⟩ | ⟨hother, hbefore⟩
      · exact .inl ⟨rfl, .ssl hprobe htarget⟩
      · exact .inr ⟨fun hmoves => hother hmoves.1.symm, kept hbefore⟩
    · rw [sslEnter, if_neg htarget] at h
      refine .inr ⟨?_, kept h⟩
      rintro ⟨rfl, hmoves⟩
      rw [hprobe] at hmoves
      exact htarget hmoves
  | sslExit call rc =>
    simp only [fire, hprobe] at h
    obtain ⟨hother, hbefore⟩ := sslExit_written h
    exact .inr ⟨fun hmoves => hother hmoves.1.symm,
      kept (by rw [hprobe]; rfl) (by rw [hprobe]; rfl) hbefore⟩
  | udpSendmsg sk | udpRecvmsg sk | udpv6Sendmsg sk | udpv6Recvmsg sk =>
    simp only [fire, hprobe] at h
    exact .inr ⟨by simp [Firing.Moves, hprobe],
      marked_written (by rw [hprobe]; rfl) (by rw [hprobe]; rfl) h⟩
  | tcpSendmsg sk | tcpRecvmsg sk =>
    simp only [fire, hprobe] at h
    exact .inr ⟨by simp [Firing.Moves, hprobe], tracked_written (by rw [hprobe]; rfl) h⟩
  | tcpConnect sk =>
    refine .inr ⟨by simp [Firing.Moves, hprobe], tracked_written (by rw [hprobe]; rfl) ?_⟩
    simp only [fire, hprobe] at h
    by_cases htarget : m.isTargetTgid f.ctx.thread.tgid = true
    · rwa [(handleTcpConnect_reports f.ctx sk htarget).same.pendingReads] at h
    · rw [handleTcpConnect, if_neg htarget] at h
      rwa [trackSocket_of_not_target (by simpa using htarget)]
  | tcpAccept sk =>
    simp only [fire, hprobe] at h
    have hmoves : ¬ f.Moves setup m thread := by simp [Firing.Moves, hprobe]
    cases sk with
    | none => exact .inr ⟨hmoves, kept (by rw [hprobe]; rfl) (by rw [hprobe]; rfl) h⟩
    | some sk =>
      refine .inr ⟨hmoves, tracked_written (by rw [hprobe]; rfl) ?_⟩
      by_cases htarget : m.isTargetTgid f.ctx.thread.tgid = true
      · rwa [(handleTcpAccept_reports f.ctx sk htarget).same.pendingReads] at h
      · rw [handleTcpAccept, if_neg htarget] at h
        rwa [trackSocket_of_not_target (by simpa using htarget)]
  | _ =>
    have hsame : (fire setup m f).pendingReads = m.pendingReads :=
      fire_sameOff setup m f .pendingReads (by simp [hprobe, Probe.touched])
    rw [hsame] at h
    exact .inr ⟨by simp [Firing.Moves, hprobe], kept (by rw [hprobe]; rfl) (by rw [hprobe]; rfl) h⟩

/-- Leaving a timed system call stops its clock. -/
private theorem exitTimed_lookup {arch : TargetArch} {ctx : Context} {id ret : ℤ}
    {thread : Thread} {start : SyscallStart} :
    (exitTimed arch ctx id ret m).syscallStarts.lookup thread = some start ↔
      m.syscallStarts.lookup thread = some start ∧
        (thread = ctx.thread → (arch.syscall id).any Syscall.isTimed = false) := by
  unfold exitTimed
  split
  · next found hfound =>
    split
    · next htimed =>
      have hkept : (finishLatency ctx found ret { m with
            syscallStarts := m.syscallStarts.delete ctx.thread }).syscallStarts =
          m.syscallStarts.delete ctx.thread :=
        (show SameOff [] _ _ from sameOff_reserveAndSubmit ctx _ _ _) .syscallStarts (by simp)
      rw [hkept, BoundedMap.lookup_delete_eq_some_iff, htimed]
      simp [and_comm]
    · next htimed => simp [htimed]
  · next hnone =>
    refine ⟨fun h => ⟨h, ?_⟩, And.left⟩
    rintro rfl
    rw [hnone] at h
    cases h

private theorem sysExit_lookup {arch : TargetArch} {rodata : Rodata} {ctx : Context}
    {id ret : ℤ} {thread : Thread} {start : SyscallStart} :
    (handleSysExit arch rodata ctx id ret m).syscallStarts.lookup thread = some start ↔
      m.syscallStarts.lookup thread = some start ∧
        (thread = ctx.thread → m.isTargetTgid ctx.thread.tgid = true →
          m.tlsDepth.lookup ctx.thread = none →
            (arch.syscall id).any Syscall.isTimed = false) := by
  unfold handleSysExit
  split
  · next htarget => simp [htarget]
  split
  · next htls =>
    have hinside : m.tlsDepth.lookup ctx.thread ≠ none := Option.isSome_iff_ne_none.mp htls
    simp [hinside]
  next htarget htls =>
  have hpending : (exitPending arch rodata ctx id ret m).syscallStarts = m.syscallStarts :=
    sameOff_exitPending ctx m arch rodata id ret .syscallStarts (by simp)
  rw [exitTimed_lookup, hpending]
  have hplain : m.isTargetTgid ctx.thread.tgid = true ∧ m.tlsDepth.lookup ctx.thread = none :=
    ⟨by simpa using htarget, by simpa using htls⟩
  simp [hplain]

/-- A running clock was started by the call the thread just entered, if there was a place for
it, or runs on. -/
theorem syscallStarts_iff {thread : Thread} {start : SyscallStart} :
    (fire setup m f).syscallStarts.lookup thread = some start ↔
      (f.ctx.thread = thread ∧ f.Starts setup m start ∧
        HasPlace 32768 m.syscallStarts thread) ∨
      ¬ f.Times setup m thread ∧ m.syscallStarts.lookup thread = some start := by
  -- a firing that neither starts nor stops a clock
  have kept (hstarts : ¬ f.Starts setup m start) (htimes : ¬ f.Times setup m thread)
      (hsame : (fire setup m f).syscallStarts = m.syscallStarts) :
      (fire setup m f).syscallStarts.lookup thread = some start ↔
        (f.ctx.thread = thread ∧ f.Starts setup m start ∧
          HasPlace 32768 m.syscallStarts thread) ∨
        ¬ f.Times setup m thread ∧ m.syscallStarts.lookup thread = some start := by
    rw [hsame]
    simp [hstarts, htimes]
  cases hprobe : f.probe with
  | sysEnter id args0 args1 args2 =>
    by_cases hplain : f.OfPlainTarget m
    · obtain ⟨threads, henter⟩ :=
        handleSysEnter_of_plain hplain setup.arch id args0 args1 args2
      cases hcall : setup.arch.syscall id with
      | none =>
        refine kept ?_ (by simp [Firing.Times, hprobe, hcall]) ?_
        · rintro ⟨_, _, _, _, call, hsame, _, hsome, _⟩
          rw [hprobe] at hsame
          cases hsame
          rw [hcall] at hsome
          cases hsome
        · simp only [fire, hprobe, henter, hcall]
      | some call =>
        have hstarts : f.Starts setup m start ↔
            call.isTimed = true ∧ start = call.started f.ctx (descriptor args0) args2 := by
          constructor
          · rintro ⟨_, _, _, _, _, hsame, _, hsome, htimed, rfl⟩
            rw [hprobe] at hsame
            cases hsame
            rw [hcall] at hsome
            cases hsome
            exact ⟨htimed, rfl⟩
          · rintro ⟨htimed, rfl⟩
            exact ⟨id, args0, args1, args2, call, hprobe, hplain, hcall, htimed, rfl⟩
        cases hmoves : call.movesBytes with
        | true =>
          have htimed : call.isTimed = false := by cases call <;> first | rfl | cases hmoves
          refine kept (by simp [hstarts, htimed]) (by simp [Firing.Times, hprobe, hcall, htimed]) ?_
          simp only [fire, hprobe, henter, hcall, enterSyscall_moves f.ctx hmoves, rememberRead]
        | false =>
          obtain ⟨htimed, hupdate⟩ := enterSyscall_timed f.ctx hmoves (descriptor args0) args1
            args2 { m with targetThreads := threads }
          have htimes : f.Times setup m thread ↔ f.ctx.thread = thread := by
            simp [Firing.Times, hprobe, hcall, htimed, hplain]
          simp only [fire, hprobe, henter, hcall, hupdate]
          rw [BoundedMap.lookup_update_eq_some_iff, BoundedMap.accepts_iff, hstarts, htimes]
          by_cases hown : f.ctx.thread = thread
          · subst hown
            simp [htimed, HasPlace, and_comm]
          · simp [hown, Ne.symm hown]
    · obtain ⟨threads, henter⟩ :=
        handleSysEnter_of_not_plain hplain setup.arch id args0 args1 args2
      refine kept ?_ (by simp [Firing.Times, hprobe, hplain]) (by simp only [fire, hprobe, henter])
      rintro ⟨_, _, _, _, _, _, hyes, _⟩
      exact hplain hyes
  | sysExit id ret =>
    have hstarts : ¬ f.Starts setup m start := by simp [Firing.Starts, hprobe]
    have htimes : f.Times setup m thread ↔ f.ctx.thread = thread ∧ f.OfPlainTarget m ∧
        (setup.arch.syscall id).any Syscall.isTimed = true := by
      simp [Firing.Times, hprobe]
    simp only [fire, hprobe]
    rw [sysExit_lookup, htimes]
    simp only [hstarts, false_and, and_false, false_or, Firing.OfPlainTarget, not_and,
      Bool.not_eq_true, and_imp]
    rw [and_comm, eq_comm]
  | _ =>
    refine kept (by simp [Firing.Starts, hprobe]) (by simp [Firing.Times, hprobe])
      (fire_sameOff setup m f .syscallStarts (by simp [hprobe, Probe.touched]))

end Calls

section Waits

variable {setup : Setup} {m : Maps} {f : Firing}

/-- A wait of the thread began just now, if there was a place for its start, or goes on. -/
theorem starts_iff (w : Wait) {thread : Thread} {started : ℕ} :
    (w.starts (fire setup m f)).lookup thread = some started ↔
      (f.BeginsWait m w thread ∧ HasPlace 32768 (w.starts m) thread ∧ started = f.ctx.now) ∨
      ¬ f.Waits m w thread ∧ (w.starts m).lookup thread = some started := by
  obtain ⟨ctx, probe⟩ := f
  by_cases henter : probe = w.enter
  · subst henter
    have hexit (rc : ℕ) : w.enter ≠ w.exit rc := by cases w <;> simp [Wait.enter, Wait.exit]
    rw [Wait.fire_enter, Wait.handleEnter]
    simp only [Firing.Waits, Firing.BeginsWait, hexit, exists_false, and_false, or_false, true_and]
    by_cases htarget : m.isTargetTgid ctx.thread.tgid = true
    · rw [if_pos htarget, Wait.starts_store, BoundedMap.lookup_update_eq_some_iff,
        BoundedMap.accepts_iff]
      by_cases hown : ctx.thread = thread
      · subst hown
        simp [htarget, HasPlace]
      · simp [hown, Ne.symm hown]
    · have hnot : ¬ (ctx.thread = thread ∧ m.isTargetTgid thread.tgid = true) := by
        rintro ⟨rfl, hyes⟩
        exact htarget hyes
      rw [if_neg htarget]
      simp [hnot]
  by_cases hexit : ∃ rc, probe = w.exit rc
  · obtain ⟨rc, rfl⟩ := hexit
    have hkept : (w.starts (w.handleExit setup.rodata ctx rc m)).lookup thread = some started ↔
        thread ≠ ctx.thread ∧ (w.starts m).lookup thread = some started := by
      simp only [Wait.handleExit]
      split
      · next hnone =>
        refine ⟨fun h => ⟨?_, h⟩, And.right⟩
        rintro rfl
        rw [hnone] at h
        cases h
      · rw [← BoundedMap.lookup_delete_eq_some_iff]
        split
        · rw [Wait.starts_store]
        · rw [Wait.starts_reserveAndSubmit, Wait.starts_store]
    rw [Wait.fire_exit, hkept, ne_comm]
    simp [Firing.Waits, Firing.BeginsWait, henter]
  · have hsame : w.starts (fire setup m ⟨ctx, probe⟩) = w.starts m := by
      refine w.starts_eq_of_same (fire_sameOff setup m ⟨ctx, probe⟩ w.table fun htouched => ?_)
      cases w <;> cases probe <;> simp [Wait.table, Probe.touched, Wait.enter, Wait.exit] at *
    rw [hsame]
    simp [Firing.Waits, Firing.BeginsWait, henter, not_exists.mp hexit]

end Waits

section Sockets

variable {setup : Setup} {m : Maps} {f : Firing}

private theorem trackedSockets_trackSocket {ctx : Context} {sk : Sock} {handle : ℕ}
    {owner : SocketOwner}
    (h : (trackSocket ctx sk m).trackedSockets.lookup handle = some owner) :
    (sk.handle = handle ∧ handle ≠ 0 ∧ m.isTargetTgid ctx.thread.tgid = true ∧
        owner = trackedOwner ctx sk m) ∨ m.trackedSockets.lookup handle = some owner := by
  by_cases htarget : m.isTargetTgid ctx.thread.tgid = true
  · rw [trackSocket, if_pos htarget] at h
    by_cases hhandle : sk.handle ≠ 0
    · simp only [if_pos hhandle] at h
      rcases BoundedMap.of_lookup_update h with ⟨rfl, rfl⟩ | ⟨_, hbefore⟩
      · exact .inl ⟨rfl, hhandle, htarget, rfl⟩
      · exact .inr hbefore
    · simp only [if_neg hhandle] at h
      exact .inr h
  · rw [trackSocket_of_not_target (by simpa using htarget)] at h
    exact .inr h

/-- An owner was settled by the firing, or was there before and its socket was not closed. -/
theorem trackedSockets_written {handle : ℕ} {owner : SocketOwner}
    (h : (fire setup m f).trackedSockets.lookup handle = some owner) :
    (∃ sk, f.probe.tracks = some sk ∧ sk.handle = handle ∧
        m.isTargetTgid f.ctx.thread.tgid = true ∧ owner = trackedOwner f.ctx sk m) ∨
      ¬ f.Closes handle ∧ m.trackedSockets.lookup handle = some owner := by
  cases hprobe : f.probe with
  | tcpSendmsg sk | tcpRecvmsg sk =>
    simp only [fire, hprobe] at h
    rcases trackedSockets_trackSocket h with ⟨hhandle, _, htarget, howner⟩ | hbefore
    · exact .inl ⟨sk, rfl, hhandle, htarget, howner⟩
    · exact .inr ⟨by simp [Firing.Closes, hprobe], hbefore⟩
  | tcpConnect sk =>
    simp only [fire, hprobe] at h
    by_cases htarget : m.isTargetTgid f.ctx.thread.tgid = true
    · rw [(handleTcpConnect_reports f.ctx sk htarget).same.trackedSockets] at h
      rcases trackedSockets_trackSocket h with ⟨hhandle, _, _, howner⟩ | hbefore
      · exact .inl ⟨sk, rfl, hhandle, htarget, howner⟩
      · exact .inr ⟨by simp [Firing.Closes, hprobe], hbefore⟩
    · rw [handleTcpConnect, if_neg htarget] at h
      exact .inr ⟨by simp [Firing.Closes, hprobe], h⟩
  | tcpAccept sk =>
    simp only [fire, hprobe] at h
    cases sk with
    | none => exact .inr ⟨by simp [Firing.Closes, hprobe], h⟩
    | some sk =>
      by_cases htarget : m.isTargetTgid f.ctx.thread.tgid = true
      · rw [(handleTcpAccept_reports f.ctx sk htarget).same.trackedSockets] at h
        rcases trackedSockets_trackSocket h with ⟨hhandle, _, _, howner⟩ | hbefore
        · exact .inl ⟨sk, rfl, hhandle, htarget, howner⟩
        · exact .inr ⟨by simp [Firing.Closes, hprobe], hbefore⟩
      · rw [handleTcpAccept, if_neg htarget] at h
        exact .inr ⟨by simp [Firing.Closes, hprobe], h⟩
  | tcpClose sk =>
    simp only [fire, hprobe] at h
    obtain ⟨_, _, hgone, hothers, _⟩ := handleTcpClose_spec f.ctx sk m
    have hother : handle ≠ sk.handle := by
      rintro rfl
      rw [hgone] at h
      cases h
    rw [hothers handle hother] at h
    exact .inr ⟨by simpa [Firing.Closes, hprobe] using hother.symm, h⟩
  | _ =>
    have hsame : (fire setup m f).trackedSockets = m.trackedSockets :=
      fire_sameOff setup m f .trackedSockets (by simp [hprobe, Probe.touched])
    rw [hsame] at h
    exact .inr ⟨by simp [Firing.Closes, hprobe], h⟩

/-- The three ways a followed socket changes its state. -/
private theorem fire_of_minds {sk : Sock} {newstate : ℤ}
    (hprobe : f.probe = .tcpSetState sk newstate) (hminds : Firing.Minds setup m sk) :
    fire setup m f =
      if newstate = TCP_SYN_SENT_STATE ∨ newstate = TCP_SYN_RECV_STATE then
        { m with handshakeStarts := m.handshakeStarts.update sk.handle f.ctx.now }
      else if newstate = TCP_ESTABLISHED_STATE then establishedState f.ctx sk m
      else if newstate = TCP_CLOSE_STATE then closedState f.ctx sk m
      else m := by
  simp only [fire, hprobe]
  rw [handleTcpState, if_neg]
  rintro ⟨huntracked, hport⟩
  rcases hminds with htracked | hsame
  · rw [huntracked] at htracked
    cases htracked
  · exact hport hsame

private theorem fire_of_not_minds {sk : Sock} {newstate : ℤ}
    (hprobe : f.probe = .tcpSetState sk newstate) (hminds : ¬ Firing.Minds setup m sk) :
    fire setup m f = m := by
  rw [Firing.Minds, not_or] at hminds
  simp only [fire, hprobe]
  rw [handleTcpState, if_pos ⟨by simpa using hminds.1, hminds.2⟩]

/-- An entry that is deleted when it is there is gone. -/
private theorem lookup_delete_if_present {capacity handle key value : ℕ}
    {entries : BoundedMap capacity ℕ ℕ} :
    (if (entries.lookup key).isSome then entries.delete key else entries).lookup handle =
      some value ↔ handle ≠ key ∧ entries.lookup handle = some value := by
  split
  · exact BoundedMap.lookup_delete_eq_some_iff
  · next habsent =>
    refine ⟨fun h => ⟨?_, h⟩, And.right⟩
    rintro rfl
    simp [h] at habsent

/-- An established connection has no handshake running. Its duration is kept for the process
that accepts it. -/
private theorem establishedState_fields (ctx : Context) (sk : Sock) (m : Maps) :
    (establishedState ctx sk m).handshakeStarts =
        (if (m.handshakeStarts.lookup sk.handle).isSome then
          m.handshakeStarts.delete sk.handle else m.handshakeStarts) ∧
      (establishedState ctx sk m).completedHandshakes =
        if (m.trackedSockets.lookup sk.handle).isSome then m.completedHandshakes
        else m.completedHandshakes.update sk.handle (handshakeDuration ctx m sk.handle) := by
  have hring : SameOff [] m (submitConnection ctx 0 sk OP_TCP_HANDSHAKE
      (handshakeDuration ctx m sk.handle) m) := sameOff_submitConnection ctx 0 sk _ _ m
  have hstarts := hring .handshakeStarts (by simp)
  have hcompleted := hring .completedHandshakes (by simp)
  by_cases htracked : (m.trackedSockets.lookup sk.handle).isSome
  · by_cases hstarted : (m.handshakeStarts.lookup sk.handle).isSome
    · simp only [establishedState, if_pos htracked, if_pos hstarted]
      exact ⟨congrArg (·.delete sk.handle) hstarts, hcompleted⟩
    · simp only [establishedState, if_pos htracked, if_neg hstarted]
      exact ⟨hstarts, hcompleted⟩
  · by_cases hstarted : (m.handshakeStarts.lookup sk.handle).isSome
    · simp only [establishedState, if_neg htracked, if_pos hstarted, true_and]
      rfl
    · simp only [establishedState, if_neg htracked, if_neg hstarted, true_and]
      rfl

/-- A closed connection has no handshake, running or completed. -/
private theorem closedState_fields (ctx : Context) (sk : Sock) (m : Maps) :
    (closedState ctx sk m).handshakeStarts =
        (if (m.handshakeStarts.lookup sk.handle).isSome then
          m.handshakeStarts.delete sk.handle else m.handshakeStarts) ∧
      (closedState ctx sk m).completedHandshakes = m.completedHandshakes.delete sk.handle := by
  have hkept (m' : Maps) (hring : SameOff [] m m') :
      (if (m.handshakeStarts.lookup sk.handle).isSome then
          m'.handshakeStarts.delete sk.handle else m'.handshakeStarts) =
        (if (m.handshakeStarts.lookup sk.handle).isSome then
          m.handshakeStarts.delete sk.handle else m.handshakeStarts) ∧
      m'.completedHandshakes.delete sk.handle = m.completedHandshakes.delete sk.handle := by
    have hstarts : m'.handshakeStarts = m.handshakeStarts := hring .handshakeStarts (by simp)
    have hcompleted : m'.completedHandshakes = m.completedHandshakes :=
      hring .completedHandshakes (by simp)
    rw [hstarts, hcompleted]
    exact ⟨rfl, rfl⟩
  simp only [closedState]
  exact hkept _ (.trans (.ite (sameOff_submitConnection ctx 0 sk _ _ _))
    (.ite (sameOff_submitConnection ctx 1 sk _ _ _)))

/-- Destroying a socket forgets its handshakes. -/
private theorem handleTcpClose_fields (ctx : Context) (sk : Sock) (m : Maps) :
    (handleTcpClose ctx sk m).handshakeStarts = m.handshakeStarts.delete sk.handle ∧
      (handleTcpClose ctx sk m).completedHandshakes = m.completedHandshakes.delete sk.handle := by
  have hring : SameOff [] _ _ := sameOff_submitConnection ctx 0 sk OP_TCP_CLOSE 0 { m with
    handshakeStarts := m.handshakeStarts.delete sk.handle
    completedHandshakes := m.completedHandshakes.delete sk.handle }
  simp only [handleTcpClose]
  split
  · exact ⟨hring .handshakeStarts (by simp), hring .completedHandshakes (by simp)⟩
  · exact ⟨rfl, rfl⟩

/-- A handshake began just now, if there was a place for its start, or is still running. -/
theorem handshakeStarts_iff {handle start : ℕ} :
    (fire setup m f).handshakeStarts.lookup handle = some start ↔
      (f.Begins setup m handle ∧ HasPlace 65536 m.handshakeStarts handle ∧
        start = f.ctx.now) ∨
      ¬ f.Settles setup m handle ∧ m.handshakeStarts.lookup handle = some start := by
  -- the two probes that begin a handshake store the clock
  have begun (sk : Sock) (hbegins : f.Begins setup m handle ↔ sk.handle = handle)
      (hsettles : f.Settles setup m handle ↔ sk.handle = handle)
      (hkept : (fire setup m f).handshakeStarts =
        m.handshakeStarts.update sk.handle f.ctx.now) :
      (fire setup m f).handshakeStarts.lookup handle = some start ↔
        (f.Begins setup m handle ∧ HasPlace 65536 m.handshakeStarts handle ∧
          start = f.ctx.now) ∨
        ¬ f.Settles setup m handle ∧ m.handshakeStarts.lookup handle = some start := by
    rw [hkept, BoundedMap.lookup_update_eq_some_iff, BoundedMap.accepts_iff, hbegins, hsettles]
    by_cases hsame : sk.handle = handle
    · subst hsame
      simp [HasPlace]
    · simp [hsame, Ne.symm hsame]
  cases hprobe : f.probe with
  | tcpConnect sk =>
    by_cases htarget : m.isTargetTgid f.ctx.thread.tgid = true
    · refine begun sk (by simp [Firing.Begins, hprobe, htarget])
        (by simp [Firing.Settles, Firing.Begins, Firing.Closes, hprobe, htarget]) ?_
      rw [fire, hprobe]
      dsimp only
      rw [handleTcpConnect, if_pos htarget]
      have hring : SameOff [] _ _ := sameOff_submitConnection f.ctx 0 sk OP_TCP_CONNECT 0
        { trackSocket f.ctx sk m with
          handshakeStarts := (trackSocket f.ctx sk m).handshakeStarts.update sk.handle f.ctx.now }
      have htrack : (trackSocket f.ctx sk m).handshakeStarts = m.handshakeStarts :=
        sameOff_trackSocket f.ctx m sk .handshakeStarts (by simp)
      exact (show _ = _ from hring .handshakeStarts (by simp)).trans
        (congrArg (·.update sk.handle f.ctx.now) htrack)
    · have hsame : fire setup m f = m := by
        simp only [fire, hprobe]
        rw [handleTcpConnect, if_neg htarget]
      rw [hsame]
      simp [Firing.Settles, Firing.Begins, Firing.Closes, hprobe, htarget]
  | tcpSetState sk newstate =>
    by_cases hminds : Firing.Minds setup m sk
    · have hstate := fire_of_minds hprobe hminds
      -- a state that ends the handshake, well or not
      have ended (hbegins : ¬ f.Begins setup m handle)
          (hsettles : f.Settles setup m handle ↔ sk.handle = handle)
          (hkept : (fire setup m f).handshakeStarts =
            if (m.handshakeStarts.lookup sk.handle).isSome then
              m.handshakeStarts.delete sk.handle else m.handshakeStarts) :
          (fire setup m f).handshakeStarts.lookup handle = some start ↔
            (f.Begins setup m handle ∧ HasPlace 65536 m.handshakeStarts handle ∧
              start = f.ctx.now) ∨
            ¬ f.Settles setup m handle ∧ m.handshakeStarts.lookup handle = some start := by
        rw [hkept, lookup_delete_if_present, hsettles]
        simp [hbegins, eq_comm]
      by_cases hsyn : newstate = TCP_SYN_SENT_STATE ∨ newstate = TCP_SYN_RECV_STATE
      · rw [if_pos hsyn] at hstate
        refine begun sk (by simp [Firing.Begins, hprobe, hminds, hsyn]) ?_
          (congrArg Maps.handshakeStarts hstate)
        simp only [Firing.Settles, Firing.Begins, Firing.Closes, hprobe, hminds, hsyn]
        tauto
      rw [if_neg hsyn] at hstate
      have hbegins : ¬ f.Begins setup m handle := by simp [Firing.Begins, hprobe, hsyn]
      by_cases hestablished : newstate = TCP_ESTABLISHED_STATE
      · rw [if_pos hestablished] at hstate
        refine ended hbegins ?_ ?_
        · simp [Firing.Settles, hbegins, Firing.Closes, hprobe, hminds, hestablished]
        · rw [hstate, (establishedState_fields f.ctx sk m).1]
      rw [if_neg hestablished] at hstate
      by_cases hclosed : newstate = TCP_CLOSE_STATE
      · rw [if_pos hclosed] at hstate
        refine ended hbegins ?_ ?_
        · simp [Firing.Settles, hbegins, Firing.Closes, hprobe, hminds, hclosed]
        · rw [hstate, (closedState_fields f.ctx sk m).1]
      · rw [if_neg hclosed] at hstate
        rw [hstate]
        simp [Firing.Settles, hbegins, Firing.Closes, hprobe, hestablished, hclosed]
    · rw [fire_of_not_minds hprobe hminds]
      simp [Firing.Settles, Firing.Begins, Firing.Closes, hprobe, hminds]
  | tcpClose sk =>
    have hkept : (fire setup m f).handshakeStarts = m.handshakeStarts.delete sk.handle := by
      simp only [fire, hprobe]
      exact (handleTcpClose_fields f.ctx sk m).1
    rw [hkept, BoundedMap.lookup_delete_eq_some_iff, ne_comm]
    simp [Firing.Settles, Firing.Begins, Firing.Closes, hprobe]
  | _ =>
    have hsame : (fire setup m f).handshakeStarts = m.handshakeStarts :=
      fire_sameOff setup m f .handshakeStarts (by simp [hprobe, Probe.touched])
    rw [hsame]
    simp [Firing.Settles, Firing.Begins, Firing.Closes, hprobe]

/-- The process that accepts a connection takes its completed handshake. -/
private theorem accept_lookup {ctx : Context} {sk : Sock} {handle duration : ℕ}
    (htarget : m.isTargetTgid ctx.thread.tgid = true) :
    (handleTcpAccept ctx (some sk) m).completedHandshakes.lookup handle = some duration ↔
      handle ≠ sk.handle ∧ m.completedHandshakes.lookup handle = some duration := by
  have hring (place operation durationNs : ℕ) (m : Maps) :
      (submitConnection ctx place sk operation durationNs m).completedHandshakes =
        m.completedHandshakes :=
    (show SameOff [] _ _ from sameOff_submitConnection ctx place sk _ _ m)
      .completedHandshakes (by simp)
  have htrack : (trackSocket ctx sk m).completedHandshakes = m.completedHandshakes :=
    sameOff_trackSocket ctx m sk .completedHandshakes (by simp)
  simp only [handleTcpAccept, if_pos htarget, hring, htrack]
  split
  · exact BoundedMap.lookup_delete_eq_some_iff
  · next hnone =>
    rw [hring, hring, htrack]
    refine ⟨fun h => ⟨?_, h⟩, And.right⟩
    rintro rfl
    rw [hnone] at h
    cases h

/-- A completed handshake was completed just now, if there was a place for its duration, or
waits to be handed over. -/
theorem completedHandshakes_iff {handle duration : ℕ} :
    (fire setup m f).completedHandshakes.lookup handle = some duration ↔
      (f.Completes setup m handle ∧ HasPlace 65536 m.completedHandshakes handle ∧
        duration = handshakeDuration f.ctx m handle) ∨
      ¬ f.Clears setup m handle ∧ m.completedHandshakes.lookup handle = some duration := by
  -- a firing that takes the completed handshake of a socket out
  have cleared (sk : Sock) (hcompletes : ¬ f.Completes setup m handle)
      (hclears : f.Clears setup m handle ↔ sk.handle = handle)
      (hkept : (fire setup m f).completedHandshakes.lookup handle = some duration ↔
        handle ≠ sk.handle ∧ m.completedHandshakes.lookup handle = some duration) :
      (fire setup m f).completedHandshakes.lookup handle = some duration ↔
        (f.Completes setup m handle ∧ HasPlace 65536 m.completedHandshakes handle ∧
          duration = handshakeDuration f.ctx m handle) ∨
        ¬ f.Clears setup m handle ∧ m.completedHandshakes.lookup handle = some duration := by
    rw [hkept, hclears, ne_comm]
    simp [hcompletes]
  cases hprobe : f.probe with
  | tcpSetState sk newstate =>
    by_cases hminds : Firing.Minds setup m sk
    · have hstate := fire_of_minds hprobe hminds
      by_cases hsyn : newstate = TCP_SYN_SENT_STATE ∨ newstate = TCP_SYN_RECV_STATE
      · have hstates : newstate ≠ TCP_ESTABLISHED_STATE ∧ newstate ≠ TCP_CLOSE_STATE := by
          rcases hsyn with rfl | rfl <;> decide
        rw [if_pos hsyn] at hstate
        rw [hstate]
        simp [Firing.Clears, Firing.Completes, Firing.Closes, hprobe, hstates]
      rw [if_neg hsyn] at hstate
      by_cases hestablished : newstate = TCP_ESTABLISHED_STATE
      · rw [if_pos hestablished] at hstate
        have hopen : TCP_ESTABLISHED_STATE ≠ TCP_CLOSE_STATE := by decide
        have hcompletes : f.Completes setup m handle ↔
            sk.handle = handle ∧ m.trackedSockets.lookup handle = none := by
          simp [Firing.Completes, hprobe, hminds, hestablished]
        have hclears : f.Clears setup m handle ↔ f.Completes setup m handle := by
          simp [Firing.Clears, Firing.Closes, hprobe, hestablished, hopen]
        rw [hclears, hcompletes, hstate, (establishedState_fields f.ctx sk m).2]
        by_cases hsame : sk.handle = handle
        · subst hsame
          cases htracked : m.trackedSockets.lookup sk.handle with
          | some owner => simp
          | none =>
            rw [if_neg (by simp), BoundedMap.lookup_update_eq_some_iff, BoundedMap.accepts_iff]
            simp [HasPlace]
        · have hother : ¬ (sk.handle = handle ∧ m.trackedSockets.lookup handle = none) :=
            fun h => hsame h.1
          simp only [hother, false_and, false_or, not_false_eq_true, true_and]
          split
          · rfl
          · rw [BoundedMap.lookup_update_of_ne _ _ (Ne.symm hsame)]
      rw [if_neg hestablished] at hstate
      have hcompletes : ¬ f.Completes setup m handle := by
        simp [Firing.Completes, hprobe, hestablished]
      by_cases hclosed : newstate = TCP_CLOSE_STATE
      · rw [if_pos hclosed] at hstate
        refine cleared sk hcompletes ?_ ?_
        · simp [Firing.Clears, hcompletes, Firing.Closes, hprobe, hminds, hclosed]
        · rw [hstate, (closedState_fields f.ctx sk m).2, BoundedMap.lookup_delete_eq_some_iff]
      · rw [if_neg hclosed] at hstate
        rw [hstate]
        simp [Firing.Clears, hcompletes, Firing.Closes, hprobe, hclosed]
    · rw [fire_of_not_minds hprobe hminds]
      simp [Firing.Clears, Firing.Completes, Firing.Closes, hprobe, hminds]
  | tcpAccept sk =>
    have hcompletes : ¬ f.Completes setup m handle := by simp [Firing.Completes, hprobe]
    have hsame (hnone : fire setup m f = m) (hclears : ¬ f.Clears setup m handle) :
        (fire setup m f).completedHandshakes.lookup handle = some duration ↔
          (f.Completes setup m handle ∧ HasPlace 65536 m.completedHandshakes handle ∧
            duration = handshakeDuration f.ctx m handle) ∨
          ¬ f.Clears setup m handle ∧ m.completedHandshakes.lookup handle = some duration := by
      rw [hnone]
      simp [hcompletes, hclears]
    cases sk with
    | none =>
      exact hsame (by simp only [fire, hprobe, handleTcpAccept])
        (by simp [Firing.Clears, hcompletes, Firing.Closes, hprobe])
    | some sk =>
      by_cases htarget : m.isTargetTgid f.ctx.thread.tgid = true
      · refine cleared sk hcompletes ?_ ?_
        · simp [Firing.Clears, hcompletes, Firing.Closes, hprobe, htarget]
        · simp only [fire, hprobe]
          exact accept_lookup htarget
      · refine hsame ?_ (by simp [Firing.Clears, hcompletes, Firing.Closes, hprobe, htarget])
        simp only [fire, hprobe]
        rw [handleTcpAccept, if_neg htarget]
  | tcpClose sk =>
    have hcompletes : ¬ f.Completes setup m handle := by simp [Firing.Completes, hprobe]
    refine cleared sk hcompletes (by simp [Firing.Clears, hcompletes, Firing.Closes, hprobe]) ?_
    simp only [fire, hprobe]
    rw [(handleTcpClose_fields f.ctx sk m).2, BoundedMap.lookup_delete_eq_some_iff]
  | _ =>
    have hsame : (fire setup m f).completedHandshakes = m.completedHandshakes :=
      fire_sameOff setup m f .completedHandshakes (by simp [hprobe, Probe.touched])
    rw [hsame]
    simp [Firing.Clears, Firing.Completes, Firing.Closes, hprobe]

end Sockets

/-- An entry there after a run was written by one firing, and no later one touched it. -/
theorem since_of_entry {setup : Setup} {ν : Type} (get : Maps → Option ν)
    (writes : ν → Maps → Firing → Prop) (keeps : Maps → Firing → Prop)
    (hstep : ∀ m f x, get (fire setup m f) = some x → writes x m f ∨ keeps m f ∧ get m = some x)
    (hstart : get {} = none) {fs : List Firing} {x : ν} (hfound : get (ran setup fs) = some x) :
    Since (fire setup) (writes x) keeps {} fs :=
  .of_register get writes hstep hstart hfound

end MongoDam.Bpf
