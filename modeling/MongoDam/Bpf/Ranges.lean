import MongoDam.Bpf.Registers
import MongoDam.Observer.Ring

/-!
# What the probes submit is what user space reads

A record crosses the ring buffer as bytes. The probes only put numbers into its fields that
the fields can hold: those of the machine, which are in the range of their types, and those
they compute and keep in the maps between two firings. User space therefore reads back
the very record that was submitted.
-/

namespace MongoDam.Bpf

open Lib Observer

/-- A number of a signed 32-bit field. -/
def IsInt32 (value : ℤ) : Prop := -2 ^ 31 ≤ value ∧ value < 2 ^ 31

/-- A number of a signed 64-bit field. -/
def IsInt64 (value : ℤ) : Prop := -2 ^ 63 ≤ value ∧ value < 2 ^ 63

/-- What the kernel says about the current task is in the range of its types. -/
structure Context.InRange (ctx : Context) : Prop where
  pid : ctx.thread.pid < 2 ^ 32
  tgid : ctx.thread.tgid < 2 ^ 32
  uid : ctx.uid < 2 ^ 32
  gid : ctx.gid < 2 ^ 32
  cgroupId : ctx.cgroupId < 2 ^ 64
  now : ctx.now < 2 ^ 64
  comm : ctx.comm.length = 16

/-- The registers and arguments of a probe that reach a record are in the range of their types. -/
def Probe.InRange : Probe → Prop
  | .sysEnter _ _ _ args2 => args2 < 2 ^ 64
  | .sysExit _ ret => IsInt64 ret
  | .sslEnter _ args => args.ssl < 2 ^ 64
  | .sslExit _ rc | .mutexLockExit rc | .pageFaultExit rc => rc < 2 ^ 64
  | .tcpRcvEstablished sk => sk.srttUs < 2 ^ 32
  | .schedSwitch switch => switch.nextPid < 2 ^ 32 ∧ switch.nextComm.length = 16
  | .cpuSample userStack kernelStack => IsInt64 userStack ∧ IsInt32 kernelStack
  | _ => True

structure Firing.InRange (f : Firing) : Prop where
  ctx : f.ctx.InRange
  probe : f.probe.InRange

/-- A pending call whose fields fit a record. -/
structure PendingRead.InRange (pending : PendingRead) : Prop where
  connectionKey : pending.connectionKey < 2 ^ 64
  fd : IsInt32 pending.fd
  source : pending.source < 2 ^ 8
  direction : pending.direction < 2 ^ 8

structure SyscallStart.InRange (start : SyscallStart) : Prop where
  requested : start.requested < 2 ^ 64
  fd : IsInt32 start.fd
  operation : start.operation < 2 ^ 8

structure SocketOwner.InRange (owner : SocketOwner) : Prop where
  connectionKey : owner.connectionKey < 2 ^ 64
  tgid : owner.tgid < 2 ^ 32
  fd : IsInt32 owner.fd

/-- The entries that go into records fit them. -/
structure Maps.InRange (m : Maps) : Prop where
  targetThreads : ∀ pid tgid, m.targetThreads.lookup pid = some tgid → tgid < 2 ^ 32
  pendingReads : ∀ thread pending, m.pendingReads.lookup thread = some pending → pending.InRange
  syscallStarts : ∀ thread start, m.syscallStarts.lookup thread = some start → start.InRange
  trackedSockets : ∀ handle owner, m.trackedSockets.lookup handle = some owner → owner.InRange
  completedHandshakes : ∀ handle duration,
    m.completedHandshakes.lookup handle = some duration → duration < 2 ^ 64
  sslFds : ∀ ssl fd, m.sslFds.lookup ssl = some fd → IsInt32 fd

/-! ### Numbers the probes compute -/

theorem sub64_lt (a b : ℕ) : sub64 a b < 2 ^ 64 := by
  have hpos : (0 : ℤ) < 2 ^ 64 := by decide
  have hlt : ((a : ℤ) - b).emod (2 ^ 64) < 2 ^ 64 := Int.emod_lt_of_pos _ hpos
  unfold sub64
  omega

theorem unsignedFd_lt (fd : ℤ) : unsignedFd fd < 2 ^ 32 := by
  have hpos : (0 : ℤ) < 2 ^ 32 := by decide
  have hlt : fd.emod (2 ^ 32) < 2 ^ 32 := Int.emod_lt_of_pos _ hpos
  unfold unsignedFd
  omega

theorem isInt32_minus_one : IsInt32 (-1) := by
  unfold IsInt32
  omega

theorem isInt32_signed32 (value : ℕ) : IsInt32 (signed32 (value % 2 ^ 32)) :=
  signed32_range (Nat.mod_lt value (by decide))

theorem isInt64_signed64 {value : ℕ} (h : value < 2 ^ 64) : IsInt64 (signed64 value) :=
  signed64_range h

theorem mixSocketWord_lt (hash value : ℕ) : mixSocketWord hash value < 2 ^ 64 := by
  unfold mixSocketWord
  generalize (hash ^^^ value) * 1099511628211 = mixed
  exact Nat.mod_lt mixed (Nat.two_pow_pos 64)

theorem socketConnectionKey_lt (sk : Sock) : socketConnectionKey sk < 2 ^ 64 := by
  have hscalars : ∀ (words : List ℕ) (hash : ℕ), hash < 2 ^ 64 →
      words.foldl mixSocketWord hash < 2 ^ 64 := by
    intro words
    induction words with
    | nil => exact fun _ hhash => hhash
    | cons word words ih => exact fun _ _ => ih _ (mixSocketWord_lt _ _)
  have hwords : ∀ (words : List (ℕ × ℕ)) (hash : ℕ), hash < 2 ^ 64 → words.foldl
      (fun hash words => mixSocketWord (mixSocketWord hash words.1) words.2) hash < 2 ^ 64 := by
    intro words
    induction words with
    | nil => exact fun _ hhash => hhash
    | cons word words ih => exact fun _ _ => ih _ (mixSocketWord_lt _ _)
  have hnonzero : ∀ hash < 2 ^ 64, (if hash ≠ 0 then hash else 1) < 2 ^ 64 := by
    intro hash hhash
    split <;> omega
  exact hnonzero _ (hwords _ _ (hscalars _ _ (by decide)))

theorem Syscall.direction_lt (call : Syscall) : call.direction < 2 ^ 8 := by
  cases call <;> decide

theorem SslCall.direction_lt (call : SslCall) : call.direction < 2 ^ 8 := by
  cases call <;> decide

/-! ### One firing -/

section Step

variable {setup : Setup} {m : Maps} {f : Firing}

/-- The descriptor of a TLS object, or minus one. -/
private theorem Maps.InRange.sslFd (h : m.InRange) (ssl : ℕ) :
    IsInt32 ((m.sslFds.lookup ssl).getD (-1)) := by
  cases hfound : m.sslFds.lookup ssl with
  | none => exact isInt32_minus_one
  | some fd => exact h.sslFds ssl fd hfound

/-- The owner a socket is tracked with. -/
private theorem trackedOwner_inRange (hm : m.InRange) (hctx : f.ctx.InRange) (sk : Sock) :
    (trackedOwner f.ctx sk m).InRange := by
  have hpending :
      IsInt32 (((m.pendingReads.lookup f.ctx.thread).map PendingRead.fd).getD (-1)) := by
    cases hfound : m.pendingReads.lookup f.ctx.thread with
    | none => exact isInt32_minus_one
    | some pending => exact (hm.pendingReads _ _ hfound).fd
  unfold trackedOwner
  cases hexisting : m.trackedSockets.lookup sk.handle with
  | none => exact ⟨mixSocketWord_lt _ _, hctx.tgid, hpending⟩
  | some owner =>
    have howner := hm.trackedSockets _ _ hexisting
    refine ⟨howner.connectionKey, hctx.tgid, ?_⟩
    dsimp only
    split
    · exact howner.fd
    · exact hpending

/-- A call that is entered fits. -/
private theorem enters_inRange (hm : m.InRange) (hf : f.InRange) {pending : PendingRead}
    (h : f.Enters setup m pending) : pending.InRange := by
  cases h with
  | @syscall id args0 args1 args2 call hprobe hplain hcall hmoves =>
    exact ⟨Nat.lt_trans (unsignedFd_lt _) (by decide), isInt32_signed32 args0,
      (by decide : SOURCE_SYSCALL < 2 ^ 8), call.direction_lt⟩
  | @ssl call args hprobe htarget =>
    have hargs := hf.probe
    rw [hprobe] at hargs
    refine ⟨?_, hm.sslFd args.ssl, (by decide : SOURCE_OPENSSL < 2 ^ 8), call.direction_lt⟩
    dsimp only
    split
    · exact Nat.lt_trans (unsignedFd_lt _) (by decide)
    · exact hargs

private theorem pendingReads_inRange (hm : m.InRange) (hf : f.InRange) {thread : Thread}
    {pending : PendingRead} (h : (fire setup m f).pendingReads.lookup thread = some pending) :
    pending.InRange := by
  rcases pendingReads_written h with ⟨_, henters⟩ | ⟨_, before, hbefore, rfl⟩
  · exact enters_inRange hm hf henters
  · have hwas := hm.pendingReads _ _ hbefore
    have hsame := f.sameCall_taken m thread before
    refine ⟨?_, hsame.fd ▸ hwas.fd, hsame.source ▸ hwas.source, hsame.direction ▸ hwas.direction⟩
    unfold Firing.taken
    split
    · split
      · next sk _ =>
        dsimp only
        split
        · exact (trackedOwner_inRange hm hf.ctx sk).connectionKey
        · exact hwas.connectionKey
      · next sk _ _ => exact socketConnectionKey_lt sk
      · exact hwas.connectionKey
    · exact hwas.connectionKey

private theorem syscallStarts_inRange (hm : m.InRange) (hf : f.InRange) {thread : Thread}
    {start : SyscallStart} (h : (fire setup m f).syscallStarts.lookup thread = some start) :
    start.InRange := by
  rcases syscallStarts_iff.mp h with
    ⟨_, ⟨id, args0, args1, args2, call, hprobe, _, _, _, rfl⟩, _⟩ | ⟨_, hbefore⟩
  · have hargs := hf.probe
    rw [hprobe] at hargs
    have hfd : IsInt32 (descriptor args0) := isInt32_signed32 args0
    have hzero : 0 < 2 ^ 64 := by decide
    cases call with
    | pread64 => exact ⟨hargs, hfd, (by decide : OP_PREAD < 2 ^ 8)⟩
    | pwrite64 => exact ⟨hargs, hfd, (by decide : OP_PWRITE < 2 ^ 8)⟩
    | fsync => exact ⟨hzero, hfd, (by decide : OP_FSYNC < 2 ^ 8)⟩
    | fdatasync => exact ⟨hzero, hfd, (by decide : OP_FDATASYNC < 2 ^ 8)⟩
    | _ => exact ⟨hzero, isInt32_minus_one, (by decide : OP_OPENAT < 2 ^ 8)⟩
  · exact hm.syscallStarts _ _ hbefore

private theorem sslFds_inRange (hm : m.InRange) {ssl : ℕ} {fd : ℤ}
    (h : (fire setup m f).sslFds.lookup ssl = some fd) : IsInt32 fd := by
  cases hprobe : f.probe with
  | sslSetFd found value =>
    simp only [fire, hprobe, handleSslSetFd] at h
    split at h
    · rcases BoundedMap.of_lookup_update h with ⟨_, rfl⟩ | ⟨_, hbefore⟩
      · exact isInt32_signed32 value
      · exact hm.sslFds _ _ hbefore
    · exact hm.sslFds _ _ h
  | sslFree found =>
    simp only [fire, hprobe, handleSslFree] at h
    exact hm.sslFds _ _ (BoundedMap.of_lookup_delete h).2
  | _ =>
    have hsame : (fire setup m f).sslFds = m.sslFds :=
      fire_sameOff setup m f .sslFds (by simp [hprobe, Probe.touched])
    rw [hsame] at h
    exact hm.sslFds _ _ h

private theorem handshakeDuration_lt (ctx : Context) (m : Maps) (handle : ℕ) :
    handshakeDuration ctx m handle < 2 ^ 64 := by
  unfold handshakeDuration
  split
  · exact sub64_lt _ _
  · decide

/-- A firing leaves entries that fit. -/
theorem fire_inRange (hm : m.InRange) (hf : f.InRange) : (fire setup m f).InRange where
  targetThreads pid tgid h := by
    rcases targetThreads_written h with ⟨hthread, _⟩ | ⟨_, hbefore⟩
    · have htgid := hf.ctx.tgid
      rwa [hthread] at htgid
    · exact hm.targetThreads _ _ hbefore
  pendingReads thread pending h := pendingReads_inRange hm hf h
  syscallStarts thread start h := syscallStarts_inRange hm hf h
  trackedSockets handle owner h := by
    rcases trackedSockets_written h with ⟨sk, _, _, _, rfl⟩ | ⟨_, hbefore⟩
    · exact trackedOwner_inRange hm hf.ctx sk
    · exact hm.trackedSockets _ _ hbefore
  completedHandshakes handle duration h := by
    rcases completedHandshakes_iff.mp h with ⟨_, _, rfl⟩ | ⟨_, hbefore⟩
    · exact handshakeDuration_lt _ _ _
    · exact hm.completedHandshakes _ _ hbefore
  sslFds ssl fd h := sslFds_inRange hm h

/-! ### The records of a firing -/

/-- A record with a field or two of its own. -/
private theorem reservedEvent_inRange {ctx : Context} (hctx : ctx.InRange) (written : Bytes) :
    (reservedEvent ctx written).InRange where
  timestampNs := hctx.now
  connectionKey := Nat.two_pow_pos 64
  cgroupId := hctx.cgroupId
  durationNs := Nat.two_pow_pos 64
  bytes := Nat.two_pow_pos 64
  result := (by decide : (-2 ^ 63 : ℤ) ≤ 0 ∧ (0 : ℤ) < 2 ^ 63)
  pid := hctx.pid
  tgid := hctx.tgid
  uid := hctx.uid
  gid := hctx.gid
  fd := isInt32_minus_one
  capturedLen := Nat.two_pow_pos 32
  eventType := Nat.two_pow_pos 8
  direction := Nat.two_pow_pos 8
  source := Nat.two_pow_pos 8
  operation := Nat.two_pow_pos 8
  comm := hctx.comm

private theorem capturedCount_lt (actual limit : ℕ) : capturedCount actual limit < 2 ^ 32 := by
  have hmax : MAX_CAPTURE_BYTES < 2 ^ 32 := by decide
  unfold capturedCount
  dsimp only
  split <;> split at * <;> omega

/-- A record of bytes whose label fits. -/
private theorem chunkRecord_inRange {ctx : Context} {label : ChunkLabel} {buffer limit : ℕ}
    {actual : ℤ} {event : KernelEvent} (hctx : ctx.InRange) (hactual : actual < 2 ^ 63)
    (hkey : label.connectionKey < 2 ^ 64) (hfd : IsInt32 label.fd)
    (hdirection : label.direction < 2 ^ 8) (hsource : label.source < 2 ^ 8)
    (htype : label.eventType < 2 ^ 8)
    (h : ChunkRecord ctx label buffer actual limit event) : event.InRange := by
  obtain ⟨hpositive, found, _, rfl⟩ := h
  exact { reservedEvent_inRange hctx found with
    connectionKey := hkey
    bytes := by
      change actual.toNat < 2 ^ 64
      omega
    result := by
      change -2 ^ 63 ≤ actual ∧ actual < 2 ^ 63
      omega
    fd := hfd
    capturedLen := capturedCount_lt _ _
    eventType := htype
    direction := hdirection
    source := hsource }

/-- What a call into the TLS library returned is a signed word. -/
private theorem sslActual_lt (ctx : Context) (isEx : Bool) (lengthPointer : ℕ) {rc : ℕ}
    (hrc : rc < 2 ^ 64) : sslActual ctx isEx lengthPointer rc < 2 ^ 63 := by
  unfold sslActual
  split
  · split
    · split
      · next reported hread =>
        have hlength : reported.length = 8 := ctx.memory.probeRead_length hread
        have hword := leNat_lt reported
        rw [hlength] at hword
        exact (isInt64_signed64 hword).2
      · decide
    · decide
  · exact (isInt64_signed64 hrc).2

private theorem report_inRange (hm : m.InRange) (hf : f.InRange) {sk : Sock}
    {operation durationNs : ℕ} (h : Report setup m f sk operation durationNs) :
    operation < 2 ^ 8 ∧ durationNs < 2 ^ 64 := by
  have hhandshake := handshakeDuration_lt f.ctx m sk.handle
  cases h with
  | established hprobe => exact ⟨by decide, hhandshake⟩
  | timeout hprobe hcode => exact ⟨by decide, hhandshake⟩
  | acceptHandshake hprobe =>
    refine ⟨by decide, ?_⟩
    cases hfound : m.completedHandshakes.lookup sk.handle with
    | none => decide
    | some duration => exact hm.completedHandshakes _ _ hfound
  | rtt hprobe hdue =>
    have hsrtt := hf.probe
    rw [hprobe] at hsrtt
    change sk.srttUs < 2 ^ 32 at hsrtt
    exact ⟨by decide, by omega⟩
  | connect | resetByState | accept | close | zeroWindow | retransmit | resetReceived
  | resetSent => exact ⟨by decide, by decide⟩

/-- A record that is submitted fits the structure it is submitted in. -/
theorem submission_inRange (hm : m.InRange) (hf : f.InRange) {event : KernelEvent}
    (h : Submission setup m f event) : event.InRange := by
  have hprobe' := hf.probe
  have hreserved := reservedEvent_inRange hf.ctx []
  cases h with
  | @syscallBytes id ret pending event hprobe _ _ _ hpending _ hchunk =>
    rw [hprobe] at hprobe'
    have hret : ret < 2 ^ 63 := hprobe'.2
    have hwas := hm.pendingReads _ _ hpending
    have htype : (if pending.protocol ≠ 0 then EVENT_DNS_CHUNK else EVENT_IO_CHUNK) < 2 ^ 8 := by
      split <;> decide
    unfold PendingRead.Chunk at hchunk
    split at hchunk
    · obtain ⟨_, _, _, _, _, actual, _, _, _, _, htotal, hrecord⟩ := hchunk
      exact chunkRecord_inRange hf.ctx (Int.lt_of_le_of_lt htotal hret) hwas.connectionKey hwas.fd
        hwas.direction hwas.source htype hrecord
    · obtain ⟨actual, htotal, _, hrecord⟩ := hchunk
      exact chunkRecord_inRange hf.ctx (Int.lt_of_le_of_lt htotal hret) hwas.connectionKey hwas.fd
        hwas.direction hwas.source htype hrecord
  | @tlsBytes call rc pending event hprobe hpending hchunk =>
    rw [hprobe] at hprobe'
    have hwas := hm.pendingReads _ _ hpending
    exact chunkRecord_inRange hf.ctx (sslActual_lt _ _ _ hprobe') hwas.connectionKey hwas.fd
      call.direction_lt (by decide : SOURCE_OPENSSL < 2 ^ 8) (by decide : EVENT_IO_CHUNK < 2 ^ 8)
      hchunk
  | @latency id ret start hprobe _ _ _ hstart =>
    rw [hprobe] at hprobe'
    have hwas := hm.syscallStarts _ _ hstart
    exact { hreserved with
      durationNs := sub64_lt _ _
      bytes := hwas.requested
      result := hprobe'
      fd := hwas.fd
      eventType := (by decide : EVENT_SYSCALL_LATENCY < 2 ^ 8)
      source := (by decide : SOURCE_KERNEL < 2 ^ 8)
      operation := hwas.operation }
  | @lockWait rc started hprobe _ _ =>
    rw [hprobe] at hprobe'
    exact { hreserved with
      durationNs := sub64_lt _ _
      result := isInt64_signed64 hprobe'
      eventType := (by decide : EVENT_PROFILE < 2 ^ 8)
      source := (by decide : SOURCE_USER_UPROBE < 2 ^ 8)
      operation := (by decide : OP_LOCK_WAIT < 2 ^ 8) }
  | @pageFault rc started hprobe _ _ =>
    rw [hprobe] at hprobe'
    exact { hreserved with
      durationNs := sub64_lt _ _
      result := isInt64_signed64 hprobe'
      eventType := (by decide : EVENT_SYSCALL_LATENCY < 2 ^ 8)
      source := (by decide : SOURCE_KERNEL < 2 ^ 8)
      operation := (by decide : OP_PAGE_FAULT < 2 ^ 8) }
  | @offCpu switch started tgid hprobe hthread _ _ =>
    rw [hprobe] at hprobe'
    exact { hreserved with
      durationNs := sub64_lt _ _
      pid := hprobe'.1
      tgid := hm.targetThreads _ _ hthread
      eventType := (by decide : EVENT_SYSCALL_LATENCY < 2 ^ 8)
      source := (by decide : SOURCE_KERNEL < 2 ^ 8)
      operation := (by decide : OP_OFFCPU < 2 ^ 8)
      comm := hprobe'.2 }
  | @connection sk owner operation durationNs hreport howner =>
    have hwas : owner.InRange := by
      rcases howner with ⟨_, ⟨_, hfound⟩ | ⟨_, _, rfl⟩⟩
      · exact hm.trackedSockets _ _ hfound
      · exact trackedOwner_inRange hm hf.ctx sk
    obtain ⟨hoperation, hduration⟩ := report_inRange hm hf hreport
    exact { hreserved with
      connectionKey := hwas.connectionKey
      durationNs := hduration
      pid := hwas.tgid
      tgid := hwas.tgid
      fd := hwas.fd
      eventType := (by decide : EVENT_CONNECTION < 2 ^ 8)
      source := (by decide : SOURCE_KERNEL < 2 ^ 8)
      operation := hoperation }
  | exec _ _ =>
    exact { hreserved with
      eventType := (by decide : EVENT_PROCESS < 2 ^ 8)
      source := (by decide : SOURCE_KERNEL < 2 ^ 8)
      operation := (by decide : OP_PROCESS_EXEC < 2 ^ 8) }
  | exit _ _ _ =>
    exact { hreserved with
      eventType := (by decide : EVENT_PROCESS < 2 ^ 8)
      source := (by decide : SOURCE_KERNEL < 2 ^ 8)
      operation := (by decide : OP_PROCESS_EXIT < 2 ^ 8) }
  | @cpuSample userStack kernelStack hprobe _ =>
    rw [hprobe] at hprobe'
    exact { hreserved with
      result := hprobe'.1
      fd := hprobe'.2
      eventType := (by decide : EVENT_PROFILE < 2 ^ 8)
      source := (by decide : SOURCE_PERF < 2 ^ 8)
      operation := (by decide : OP_CPU_SAMPLE < 2 ^ 8) }

end Step

/-! ### Runs -/

variable {setup : Setup} {fs : List Firing}

/-- The entries of the maps fit after every run. -/
theorem ran_inRange (hrange : ∀ f ∈ fs, f.InRange) : (ran setup fs).InRange := by
  induction fs using List.reverseRecOn with
  | nil => constructor <;> intro _ _ hfound <;> cases hfound
  | append_singleton fs f ih =>
    rw [ran, after_concat]
    apply fire_inRange
    · exact ih fun g hg => hrange g (List.mem_append_left [f] hg)
    · exact hrange f (by simp)

/-- The record that a probe submits is the one that user space reads off its bytes. -/
theorem submitted_read_back (setup : Setup) (older : List Firing) (f : Firing)
    (hrange : ∀ g ∈ older ++ [f], g.InRange) {event : KernelEvent}
    (hevent : event ∈ submittedAfter setup older f) :
    ∀ originalLen < 2 ^ 32,
      KernelEvent.fromRingBytes (event.ringBytes originalLen) = some event := by
  intro originalLen hlength
  have hm : (ran setup older).InRange :=
    ran_inRange fun g hg => hrange g (List.mem_append_left [f] hg)
  rw [KernelEvent.fromRingBytes_eq_some_iff]
  exact ⟨submission_inRange hm (hrange f (by simp)) (submission_of_mem hevent), originalLen,
    hlength, rfl⟩

/-- The firing of a probe in a task with a name. -/
def Firing.named (now : ℕ) (probe : Probe) : Firing :=
  { ctx := { (Firing.sample now probe).ctx with comm := List.replicate 16 97 }, probe }

theorem sample_inRange : ∀ g ∈ [Firing.named 1 (.addTarget 7), .named 2 (.cpuSample 3 (-14))],
    g.InRange := by
  have hctx (now : ℕ) (hnow : now < 2 ^ 64) (probe : Probe) :
      (Firing.named now probe).ctx.InRange :=
    ⟨(by decide : 9 < 2 ^ 32), (by decide : 7 < 2 ^ 32), (by decide : 999 < 2 ^ 32),
      (by decide : 999 < 2 ^ 32), (by decide : 1 < 2 ^ 64), hnow, rfl⟩
  intro g hg
  simp only [List.mem_cons, List.not_mem_nil, or_false] at hg
  rcases hg with rfl | rfl
  · exact ⟨hctx 1 (by decide) _, trivial⟩
  · refine ⟨hctx 2 (by decide) _, ?_, ?_⟩
    · unfold IsInt64
      omega
    · unfold IsInt32
      omega

/-- A processor sample of a target. -/
theorem sample_read_back : ∃ event, event ∈ submittedAfter {} [.named 1 (.addTarget 7)]
      (.named 2 (.cpuSample 3 (-14))) ∧
    KernelEvent.fromRingBytes (event.ringBytes 0) = some event := by
  have hsubmits : submittedAfter {} [.named 1 (.addTarget 7)]
      (.named 2 (.cpuSample 3 (-14))) ≠ [] := by
    decide +kernel
  exact ⟨_, List.head_mem hsubmits,
    submitted_read_back {} _ _ sample_inRange (List.head_mem hsubmits) 0 (by decide)⟩

end MongoDam.Bpf
