import MongoDam.Bpf.Effects
import MongoDam.Lib.Trace

/-!
# One key for a TLS session

A TLS session is an object of the library in one process whose data travels over
one socket. While its calls are followed through a run of firings, the records of
its bytes and the connection records of its socket carry keys. The key of a call
is first guessed from the descriptor or the object and becomes that of the socket
when the library reaches it, so the keys agree as long as every call that moves
bytes reaches the socket.
-/

namespace MongoDam.Bpf

open Lib Observer

/-- An object of the TLS library in a process, and the socket its data travels over. -/
structure Session where
  tgid : ℕ
  ssl : ℕ
  socket : ℕ
  /-- A kernel socket has an address. -/
  socket_ne : socket ≠ 0

/-- A call on the session that a thread has entered and not left. -/
structure OpenCall where
  call : SslCall
  lengthPointer : ℕ
  /-- A TCP probe fired in the call. -/
  reached : Bool
  /-- The system call the thread is in. -/
  syscall : Option ℤ
  deriving DecidableEq

/-- The maps, with the calls on the session that are open and whether its socket was closed. -/
structure Watch where
  maps : Maps
  calls : Thread → Option OpenCall
  closed : Bool

/-- The watch before any call on the session. -/
def Watch.start (maps : Maps) : Watch := ⟨maps, fun _ => none, false⟩

/-- The socket a probe gives the call of its thread to. -/
def Probe.tracks : Probe → Option Sock
  | .tcpSendmsg sk | .tcpRecvmsg sk | .tcpConnect sk => some sk
  | .tcpAccept sk => sk
  | _ => none

/-- The socket a probe reports on. -/
def Probe.sock : Probe → Option Sock
  | .tcpSendmsg sk | .tcpRecvmsg sk | .tcpConnect sk | .tcpSetState sk _ | .tcpClose sk
  | .tcpRcvEstablished sk | .tcpRetransmitSkb sk | .tcpReset sk | .tcpSendActiveReset sk => some sk
  | .tcpAccept sk => sk
  | _ => none

namespace Session

variable (setup : Setup) (s : Session)

/-- What a firing does to an open call of its thread. -/
def callAfter (thread : Thread) (probe : Probe) : Option OpenCall → Option OpenCall
  | none =>
    match probe with
    | .sslEnter call args =>
      if thread.tgid = s.tgid ∧ args.ssl = s.ssl then
        some ⟨call, if call.isEx then args.lengthPointer else 0, false, none⟩
      else none
    | _ => none
  | some open_ =>
    match probe with
    | .sslExit _ _ => none
    | .tcpSendmsg _ | .tcpRecvmsg _ => some { open_ with reached := true }
    | .sysEnter id _ _ _ => some { open_ with syscall := some id }
    | .sysExit _ _ => some { open_ with syscall := none }
    | _ => some open_

/-- Whether a firing closes the socket. -/
def closes : Probe → Bool
  | .tcpClose sk => decide (sk.handle = s.socket)
  | _ => false

/-- Follow one firing. -/
def watch (w : Watch) (f : Firing) : Watch where
  maps := fire setup w.maps f
  calls := Function.update w.calls f.ctx.thread
    (s.callAfter f.ctx.thread f.probe (w.calls f.ctx.thread))
  closed := w.closed || s.closes f.probe

/-- What a thread may fire inside a call on the session: the TCP probes of the socket, system
calls that nest, and probes that are not about its own I/O. -/
def insideCall (open_ : OpenCall) : Probe → Bool
  | .sslEnter _ _ | .udpSendmsg _ | .udpRecvmsg _ | .udpv6Sendmsg _ | .udpv6Recvmsg _
  | .tcpConnect _ => false
  | .tcpAccept sk => sk.isNone
  | .tcpSendmsg sk | .tcpRecvmsg sk => decide (sk.handle = s.socket)
  | .sysEnter _ _ _ _ => open_.syscall.isNone
  | .sysExit id _ => decide (open_.syscall = some id)
  | .sslExit call _ => decide (open_.call = call) && open_.syscall.isNone
  | _ => true

/-- The firing belongs to a run in which threads of a target process complete calls on the
session, each reaching no other socket, and in which the socket is not used after its end. -/
def Follows (w : Watch) (f : Firing) : Bool :=
  (match w.calls f.ctx.thread, f.probe with
    | some open_, probe =>
      w.maps.isTargetTgid f.ctx.thread.tgid && s.insideCall open_ probe
    | none, .sslEnter _ args =>
      decide (¬(f.ctx.thread.tgid = s.tgid ∧ args.ssl = s.ssl)) ||
        w.maps.isTargetTgid f.ctx.thread.tgid
    | none, _ => true) &&
  (match f.probe.tracks with
    | some sk => decide (sk.handle ≠ s.socket) || !w.closed
    | none => true)

/-- A call that moved bytes reached the socket, and the socket is tracked when it is reached. -/
def Reached (w : Watch) (f : Firing) : Bool :=
  (match w.calls f.ctx.thread, f.probe with
    | some open_, .sslExit call rc =>
      open_.reached || decide (sslActual f.ctx call.isEx open_.lengthPointer rc ≤ 0)
    | _, _ => true) &&
  (match f.probe.tracks with
    | some sk => decide (sk.handle ≠ s.socket) || !w.maps.isTargetTgid f.ctx.thread.tgid ||
        w.maps.trackedSockets.accepts s.socket
    | none => true)

/-- The record is of bytes of the session, or of its socket. -/
def concerns (w : Watch) (f : Firing) (event : KernelEvent) : Bool :=
  (decide (event.eventType = EVENT_IO_CHUNK) && (w.calls f.ctx.thread).isSome) ||
    (decide (event.eventType = EVENT_CONNECTION) &&
      f.probe.sock.any fun sk => decide (sk.handle = s.socket))

/-- The records of the session and its socket that a firing submits. -/
def records (w : Watch) (f : Firing) : List KernelEvent :=
  (submitted w.maps (fire setup w.maps f)).filter (s.concerns w f)

/-- The pending call of a thread inside the session: it has the key of the socket once it
reached it; before, it is still the call that was entered; and a system call that was
remembered inside the call is of no network. -/
def CallKeyed (m : Maps) (thread : Thread) (open_ : OpenCall) (key : ℕ)
    (pending : PendingRead) : Prop :=
  (open_.reached = true ∧ pending.connectionKey = key) ∨
  (open_.reached = false ∧
    ((m.tlsDepth.lookup thread).isSome ∨
      ∀ id ∈ open_.syscall, setup.arch.movesBytes id = false) ∧
    pending.isEx = open_.call.isEx ∧ pending.lengthPointer = open_.lengthPointer) ∨
  (m.tlsDepth.lookup thread = none ∧
    (∃ id ∈ open_.syscall, setup.arch.movesBytes id = true) ∧ pending.isNetwork = false)

/-- Every record so far has the key, and everything a later record can take its key from. -/
structure Keyed (w : Watch) (past : List KernelEvent) (key : ℕ) : Prop where
  earlier : ∀ event ∈ past, event.connectionKey = key
  tracked : ∀ owner ∈ w.maps.trackedSockets.lookup s.socket, owner.connectionKey = key
  untracked : w.maps.trackedSockets.lookup s.socket = none → w.closed = true ∨
    (past = [] ∧ ∀ thread, ∀ open_ ∈ w.calls thread, open_.reached = false)
  calls : ∀ thread, ∀ open_ ∈ w.calls thread, ∀ pending ∈ w.maps.pendingReads.lookup thread,
    CallKeyed setup w.maps thread open_ key pending

/-- A record that takes its key from the tracked socket or from a call that reached it. -/
def Justified (w : Watch) (thread : Thread) (key : ℕ) (event : KernelEvent) : Prop :=
  (∃ owner ∈ w.maps.trackedSockets.lookup s.socket, event.connectionKey = owner.connectionKey) ∨
    ∃ open_ ∈ w.calls thread, open_.reached = true ∧ event.connectionKey = key

variable {setup s} {w : Watch} {f : Firing} {past : List KernelEvent} {key : ℕ}

@[simp] private theorem watch_maps : (s.watch setup w f).maps = fire setup w.maps f := rfl

private theorem watch_calls_self : (s.watch setup w f).calls f.ctx.thread =
    s.callAfter f.ctx.thread f.probe (w.calls f.ctx.thread) :=
  Function.update_self ..

private theorem watch_calls_of_ne {thread : Thread} (hother : thread ≠ f.ctx.thread) :
    (s.watch setup w f).calls thread = w.calls thread :=
  Function.update_of_ne hother ..

private theorem Justified.key_eq {thread : Thread} {event : KernelEvent}
    (hkeyed : Keyed setup s w past key) (hjust : Justified s w thread key event) :
    event.connectionKey = key := by
  rcases hjust with ⟨owner, howner, heq⟩ | ⟨_, _, _, heq⟩
  · rw [heq, hkeyed.tracked owner howner]
  · exact heq

/-- A pending call of another thread stays keyed when its maps do. -/
private theorem CallKeyed.congr {m m' : Maps} {thread : Thread} {open_ : OpenCall}
    {pending : PendingRead} (htls : m'.tlsDepth.lookup thread = m.tlsDepth.lookup thread)
    (hcall : CallKeyed setup m thread open_ key pending) :
    CallKeyed setup m' thread open_ key pending := by
  rw [CallKeyed, htls]
  exact hcall

/-- A firing that keeps the socket's owner and the other threads keeps the keys, when its
records are justified and the call of its own thread stays keyed. -/
private theorem Keyed.frame (hkeyed : Keyed setup s w past key)
    (hpending : ∀ thread, thread ≠ f.ctx.thread →
      (fire setup w.maps f).pendingReads.lookup thread = w.maps.pendingReads.lookup thread)
    (htls : ∀ thread, thread ≠ f.ctx.thread →
      (fire setup w.maps f).tlsDepth.lookup thread = w.maps.tlsDepth.lookup thread)
    (htracked : (fire setup w.maps f).trackedSockets.lookup s.socket =
      w.maps.trackedSockets.lookup s.socket)
    (hjust : ∀ event ∈ s.records setup w f, Justified s w f.ctx.thread key event)
    (hreached : ∀ open_ ∈ s.callAfter f.ctx.thread f.probe (w.calls f.ctx.thread),
      open_.reached = true → ∃ before ∈ w.calls f.ctx.thread, before.reached = true)
    (hcall : ∀ open_ ∈ s.callAfter f.ctx.thread f.probe (w.calls f.ctx.thread),
      ∀ pending ∈ (fire setup w.maps f).pendingReads.lookup f.ctx.thread,
        CallKeyed setup (fire setup w.maps f) f.ctx.thread open_ key pending) :
    Keyed setup s (s.watch setup w f) (past ++ s.records setup w f) key where
  earlier event hevent := (List.mem_append.mp hevent).elim (hkeyed.earlier event)
    fun hnew => (hjust event hnew).key_eq hkeyed
  tracked owner howner := hkeyed.tracked owner (by rwa [watch_maps, htracked] at howner)
  untracked hnone := by
    have hbefore : w.maps.trackedSockets.lookup s.socket = none := by
      rwa [watch_maps, htracked] at hnone
    rcases hkeyed.untracked hbefore with hclosed | ⟨rfl, hunreached⟩
    · left
      simp [watch, hclosed]
    · right
      refine ⟨?_, ?_⟩
      · rw [List.nil_append, List.eq_nil_iff_forall_not_mem]
        intro event hevent
        rcases hjust event hevent with ⟨owner, howner, _⟩ | ⟨open_, hopen, hyes, _⟩
        · rw [hbefore] at howner
          cases howner
        · rw [hunreached _ open_ hopen] at hyes
          cases hyes
      · intro thread open_ hopen
        by_cases hthread : thread = f.ctx.thread
        · subst hthread
          rw [watch_calls_self] at hopen
          cases hyes : open_.reached with
          | false => rfl
          | true =>
            obtain ⟨before, hbeforeOpen, hbeforeYes⟩ := hreached open_ hopen hyes
            rw [hunreached _ before hbeforeOpen] at hbeforeYes
            cases hbeforeYes
        · rw [watch_calls_of_ne hthread] at hopen
          exact hunreached thread open_ hopen
  calls thread open_ hopen pending hfound := by
    by_cases hthread : thread = f.ctx.thread
    · subst hthread
      rw [watch_calls_self] at hopen
      exact hcall open_ hopen pending hfound
    · rw [watch_calls_of_ne hthread] at hopen
      rw [watch_maps, hpending thread hthread] at hfound
      exact (hkeyed.calls thread open_ hopen pending hfound).congr (htls thread hthread)

/-- The frame rule for a firing that touches no key and leaves the open call as it was. -/
private theorem Keyed.frame_same (hkeyed : Keyed setup s w past key)
    (hsame : SameKeys w.maps (fire setup w.maps f))
    (hafter : s.callAfter f.ctx.thread f.probe (w.calls f.ctx.thread) = w.calls f.ctx.thread)
    (hjust : ∀ event ∈ s.records setup w f, Justified s w f.ctx.thread key event) :
    Keyed setup s (s.watch setup w f) (past ++ s.records setup w f) key := by
  refine hkeyed.frame (fun _ _ => by rw [hsame.pendingReads]) (fun _ _ => by rw [hsame.tlsDepth])
    (by rw [hsame.trackedSockets]) hjust ?_ ?_
  · intro open_ hopen hyes
    rw [hafter] at hopen
    exact ⟨open_, hopen, hyes⟩
  · intro open_ hopen pending hfound
    rw [hafter] at hopen
    rw [hsame.pendingReads] at hfound
    exact (hkeyed.calls _ open_ hopen pending hfound).congr (by rw [hsame.tlsDepth])

private theorem mem_submitted_of_mem_records {event : KernelEvent}
    (hevent : event ∈ s.records setup w f) :
    event ∈ submitted w.maps (fire setup w.maps f) ∧ s.concerns w f event = true :=
  List.mem_filter.mp hevent

/-- A firing without a system call, a socket or the TLS library. -/
private theorem Keyed.of_unrelated (hkeyed : Keyed setup s w past key)
    (hwrites : Writes Unrelated w.maps (fire setup w.maps f))
    (hafter : s.callAfter f.ctx.thread f.probe (w.calls f.ctx.thread) = w.calls f.ctx.thread) :
    Keyed setup s (s.watch setup w f) (past ++ s.records setup w f) key := by
  refine hkeyed.frame_same hwrites.same hafter ?_
  intro event hevent
  obtain ⟨hmem, hconcerns⟩ := mem_submitted_of_mem_records hevent
  obtain ⟨hio, hconnection⟩ := hwrites.adds.of_mem_submitted hmem
  simp [concerns, hio, hconnection] at hconcerns

private theorem records_of_events_eq (hevents : (fire setup w.maps f).events = w.maps.events) :
    s.records setup w f = [] := by
  rw [records, submitted, hevents, List.drop_length, List.filter_nil]

private theorem concerns_iff {event : KernelEvent} : s.concerns w f event = true ↔
    (event.eventType = EVENT_IO_CHUNK ∧ (w.calls f.ctx.thread).isSome = true) ∨
      (event.eventType = EVENT_CONNECTION ∧ ∃ sk ∈ f.probe.sock, sk.handle = s.socket) := by
  cases hsock : f.probe.sock <;> simp [concerns, hsock]

/-- The connection records of the socket are justified by its owner. -/
private theorem justified_of_ofOwner {sk : Sock} {event : KernelEvent}
    (hsock : f.probe.sock = some sk) (hevent : event ∈ s.records setup w f)
    (howner : OfOwner (w.maps.trackedSockets.lookup sk.handle) event) :
    Justified s w f.ctx.thread key event := by
  obtain ⟨_, hconcerns⟩ := mem_submitted_of_mem_records hevent
  obtain ⟨htype, owner, howner, heq⟩ := howner
  rcases concerns_iff.mp hconcerns with ⟨hio, _⟩ | ⟨_, found, hfound, hhandle⟩
  · rw [htype] at hio
    cases hio
  · obtain rfl : sk = found := Option.some.inj (hsock.symm.trans hfound)
    rw [hhandle] at howner
    exact .inl ⟨owner, howner, heq⟩

/-- A firing that reports on a socket. -/
private theorem Keyed.of_reports {sk : Sock} (hkeyed : Keyed setup s w past key)
    (hreports : Reports sk w.maps (fire setup w.maps f)) (hsock : f.probe.sock = some sk)
    (hafter : s.callAfter f.ctx.thread f.probe (w.calls f.ctx.thread) = w.calls f.ctx.thread) :
    Keyed setup s (s.watch setup w f) (past ++ s.records setup w f) key := by
  refine hkeyed.frame_same hreports.same hafter ?_
  intro event hevent
  obtain ⟨hmem, _⟩ := mem_submitted_of_mem_records hevent
  exact justified_of_ofOwner hsock hevent (hreports.adds.of_mem_submitted hmem)

/-- Closing a socket. The owner of the session's socket goes with it, and the session's calls
reach it no more. -/
private theorem Keyed.of_close {sk : Sock} (hkeyed : Keyed setup s w past key)
    (hprobe : f.probe = .tcpClose sk) :
    Keyed setup s (s.watch setup w f) (past ++ s.records setup w f) key := by
  have hfire : fire setup w.maps f = handleTcpClose f.ctx sk w.maps := by rw [fire, hprobe]
  obtain ⟨hpending, htls, hgone, hother, hadds⟩ := handleTcpClose_spec f.ctx sk w.maps
  rw [← hfire] at hpending htls hgone hother hadds
  have hafter : s.callAfter f.ctx.thread f.probe (w.calls f.ctx.thread) =
      w.calls f.ctx.thread := by
    rw [hprobe]
    cases w.calls f.ctx.thread <;> rfl
  have hjust : ∀ event ∈ s.records setup w f, Justified s w f.ctx.thread key event := by
    intro event hevent
    obtain ⟨hmem, _⟩ := mem_submitted_of_mem_records hevent
    exact justified_of_ofOwner (by rw [hprobe]; rfl) hevent (hadds.of_mem_submitted hmem)
  have hcall : ∀ thread, ∀ open_ ∈ w.calls thread,
      ∀ pending ∈ (fire setup w.maps f).pendingReads.lookup thread,
        CallKeyed setup (fire setup w.maps f) thread open_ key pending := by
    intro thread open_ hopen pending hfound
    rw [hpending] at hfound
    exact (hkeyed.calls thread open_ hopen pending hfound).congr (by rw [htls])
  by_cases hsocket : sk.handle = s.socket
  · refine ⟨?_, ?_, ?_, ?_⟩
    · intro event hevent
      exact (List.mem_append.mp hevent).elim (hkeyed.earlier event)
        fun hnew => (hjust event hnew).key_eq hkeyed
    · intro owner howner
      rw [watch_maps, ← hsocket, hgone] at howner
      cases howner
    · intro _
      left
      simp [watch, closes, hprobe, hsocket]
    · intro thread open_ hopen
      have hbefore : open_ ∈ w.calls thread := by
        by_cases hthread : thread = f.ctx.thread
        · subst hthread
          rwa [watch_calls_self, hafter] at hopen
        · rwa [watch_calls_of_ne hthread] at hopen
      exact hcall thread open_ hbefore
  · refine hkeyed.frame (fun _ _ => by rw [hpending]) (fun _ _ => by rw [htls])
      (hother s.socket (Ne.symm hsocket)) hjust ?_ ?_
    · intro open_ hopen hyes
      rw [hafter] at hopen
      exact ⟨open_, hopen, hyes⟩
    · intro open_ hopen
      rw [hafter] at hopen
      exact hcall f.ctx.thread open_ hopen

/-- A firing of a thread outside the session's calls that reaches no socket. -/
private theorem Keyed.of_outside (hkeyed : Keyed setup s w past key)
    (hown : OwnThread f.ctx w.maps (fire setup w.maps f))
    (hout : w.calls f.ctx.thread = none)
    (hafter : s.callAfter f.ctx.thread f.probe (w.calls f.ctx.thread) = none)
    (hadds : Adds (fun event => event.eventType ≠ EVENT_CONNECTION) w.maps
      (fire setup w.maps f)) :
    Keyed setup s (s.watch setup w f) (past ++ s.records setup w f) key := by
  refine hkeyed.frame hown.pendingReads hown.tlsDepth (by rw [hown.trackedSockets]) ?_ ?_ ?_
  · intro event hevent
    obtain ⟨hmem, hconcerns⟩ := mem_submitted_of_mem_records hevent
    have htype := hadds.of_mem_submitted hmem
    simp [concerns, htype, hout] at hconcerns
  · intro open_ hopen
    rw [hafter] at hopen
    cases hopen
  · intro open_ hopen
    rw [hafter] at hopen
    cases hopen

/-- Entering a system call inside the session. -/
private theorem Keyed.of_sysEnter {open_ : OpenCall} {id : ℤ} {args0 args1 args2 : ℕ}
    (hkeyed : Keyed setup s w past key) (hprobe : f.probe = .sysEnter id args0 args1 args2)
    (hopen : w.calls f.ctx.thread = some open_) (hnested : open_.syscall = none)
    (htarget : w.maps.isTargetTgid f.ctx.thread.tgid = true) :
    Keyed setup s (s.watch setup w f) (past ++ s.records setup w f) key := by
  obtain ⟨m', hsame, hevents, hcases⟩ := handleSysEnter_cases setup.arch f.ctx w.maps
    id args0 args1 args2
  have hfire : fire setup w.maps f =
      handleSysEnter setup.arch f.ctx id args0 args1 args2 w.maps := by rw [fire, hprobe]
  have hafter : s.callAfter f.ctx.thread f.probe (w.calls f.ctx.thread) =
      some { open_ with syscall := some id } := by
    rw [hopen, hprobe]
    rfl
  rw [← hfire] at hcases
  have hreached : ∀ after ∈ s.callAfter f.ctx.thread f.probe (w.calls f.ctx.thread),
      after.reached = true → ∃ before ∈ w.calls f.ctx.thread, before.reached = true := by
    intro after hmem hyes
    rw [hafter] at hmem
    obtain rfl := Option.some.inj hmem
    exact ⟨open_, hopen, hyes⟩
  rcases hcases with ⟨hkept, heq⟩ | ⟨hdepth, hmoves, pending', hnetwork, heq⟩
  · rw [← heq] at hsame hevents
    refine hkeyed.frame (fun _ _ => by rw [hsame.pendingReads]) (fun _ _ => by rw [hsame.tlsDepth])
      (by rw [hsame.trackedSockets]) (fun _ h => by simp [records_of_events_eq hevents] at h)
      hreached ?_
    intro after hmem pending hfound
    rw [hafter] at hmem
    obtain rfl := Option.some.inj hmem
    rw [hsame.pendingReads] at hfound
    rcases hkeyed.calls _ open_ hopen pending hfound with ⟨hyes, hkey⟩ | ⟨hno, _, hguess⟩ | h
    · exact .inl ⟨hyes, hkey⟩
    · refine .inr (.inl ⟨hno, ?_, hguess⟩)
      rw [hsame.tlsDepth]
      rcases hkept with hfalse | hdepth | hmoves
      · rw [htarget] at hfalse
        cases hfalse
      · exact .inl hdepth
      · exact .inr fun _ h => Option.some.inj h ▸ hmoves
    · obtain ⟨_, ⟨_, hmem, _⟩, _⟩ := h
      rw [hnested] at hmem
      cases hmem
  · have hown : OwnThread f.ctx w.maps (fire setup w.maps f) := by
      rw [heq]
      exact hsame.ownThread.trans (rememberRead_ownThread pending')
    have hsilent : (fire setup w.maps f).events = w.maps.events := by
      rw [heq]
      exact hevents
    refine hkeyed.frame hown.pendingReads hown.tlsDepth (by rw [hown.trackedSockets])
      (fun _ h => by simp [records_of_events_eq hsilent] at h) hreached ?_
    intro after hmem pending hfound
    rw [hafter] at hmem
    obtain rfl := Option.some.inj hmem
    rw [heq] at hfound ⊢
    obtain rfl := BoundedMap.eq_of_lookup_update hfound
    refine .inr (.inr ⟨?_, ⟨id, rfl, hmoves⟩, hnetwork⟩)
    rw [← hdepth]
    exact congrArg (·.lookup f.ctx.thread) hsame.tlsDepth

/-- Leaving a system call inside the session. -/
private theorem Keyed.of_sysExit {open_ : OpenCall} {id ret : ℤ}
    (hkeyed : Keyed setup s w past key) (hprobe : f.probe = .sysExit id ret)
    (hopen : w.calls f.ctx.thread = some open_) (hnested : open_.syscall = some id)
    (htarget : w.maps.isTargetTgid f.ctx.thread.tgid = true) :
    Keyed setup s (s.watch setup w f) (past ++ s.records setup w f) key := by
  have hfire : fire setup w.maps f =
      handleSysExit setup.arch setup.rodata f.ctx id ret w.maps := by rw [fire, hprobe]
  have hcases := handleSysExit_cases setup.arch setup.rodata f.ctx w.maps id ret
  rw [← hfire] at hcases
  have hafter : s.callAfter f.ctx.thread f.probe (w.calls f.ctx.thread) =
      some { open_ with syscall := none } := by
    rw [hopen, hprobe]
    rfl
  have hreached : ∀ after ∈ s.callAfter f.ctx.thread f.probe (w.calls f.ctx.thread),
      after.reached = true → ∃ before ∈ w.calls f.ctx.thread, before.reached = true := by
    intro after hmem hyes
    rw [hafter] at hmem
    obtain rfl := Option.some.inj hmem
    exact ⟨open_, hopen, hyes⟩
  rcases hcases with ⟨hkept, hwrites⟩ | ⟨hdepth, hmoves, hown, _, hgone, hadds⟩
  · have hsame := hwrites.same
    refine hkeyed.frame (fun _ _ => by rw [hsame.pendingReads]) (fun _ _ => by rw [hsame.tlsDepth])
      (by rw [hsame.trackedSockets]) ?_ hreached ?_
    · intro event hevent
      obtain ⟨hmem, hconcerns⟩ := mem_submitted_of_mem_records hevent
      obtain ⟨hio, hconnection⟩ := hwrites.adds.of_mem_submitted hmem
      rcases concerns_iff.mp hconcerns with h | h
      · exact absurd h.1 hio
      · exact absurd h.1 hconnection
    · intro after hmem pending hfound
      rw [hafter] at hmem
      obtain rfl := Option.some.inj hmem
      rw [hsame.pendingReads] at hfound
      rcases hkeyed.calls _ open_ hopen pending hfound with ⟨hyes, hkey⟩ | ⟨hno, _, hguess⟩ | h
      · exact .inl ⟨hyes, hkey⟩
      · exact .inr (.inl ⟨hno, .inr fun _ h => (by cases h), hguess⟩)
      · obtain ⟨hdepth, ⟨inner, hinner, hmoves⟩, _⟩ := h
        obtain rfl : id = inner := Option.some.inj (hnested.symm.trans hinner)
        rcases hkept with hfalse | hsome | hfalse
        · rw [htarget] at hfalse
          cases hfalse
        · rw [hdepth] at hsome
          cases hsome
        · rw [hmoves] at hfalse
          cases hfalse
  · refine hkeyed.frame hown.pendingReads hown.tlsDepth (by rw [hown.trackedSockets]) ?_ hreached ?_
    · intro event hevent
      obtain ⟨hmem, hconcerns⟩ := mem_submitted_of_mem_records hevent
      obtain ⟨hconnection, hio⟩ := hadds.of_mem_submitted hmem
      rcases concerns_iff.mp hconcerns with h | h
      · obtain ⟨pending, hfound, hnetwork, heq⟩ := hio h.1
        -- The bytes are those of a system call that reached the socket.
        rcases hkeyed.calls _ open_ hopen pending hfound with
          ⟨hyes, hkey⟩ | ⟨_, hsome | hfalse, _⟩ | ⟨_, _, hfalse⟩
        · exact .inr ⟨open_, hopen, hyes, heq.trans hkey⟩
        · rw [hdepth] at hsome
          cases hsome
        · rw [hfalse id hnested] at hmoves
          cases hmoves
        · rw [hnetwork] at hfalse
          cases hfalse
      · exact absurd h.1 hconnection
    · intro _ _ pending hfound
      rw [hgone] at hfound
      cases hfound

/-- Entering a call on the session. -/
private theorem Keyed.of_sslEnter {call : SslCall} {args : SslArguments}
    (hkeyed : Keyed setup s w past key) (hprobe : f.probe = .sslEnter call args)
    (hout : w.calls f.ctx.thread = none)
    (htarget : f.ctx.thread.tgid = s.tgid ∧ args.ssl = s.ssl →
      w.maps.isTargetTgid f.ctx.thread.tgid = true) :
    Keyed setup s (s.watch setup w f) (past ++ s.records setup w f) key := by
  have hfire : fire setup w.maps f = sslEnter f.ctx args call.direction call.isEx w.maps := by
    rw [fire, hprobe]
  obtain ⟨hevents, hown, hpending⟩ := sslEnter_spec f.ctx w.maps args call.direction
    call.isEx
  rw [← hfire] at hevents hown hpending
  by_cases hsession : f.ctx.thread.tgid = s.tgid ∧ args.ssl = s.ssl
  · have hafter : s.callAfter f.ctx.thread f.probe (w.calls f.ctx.thread) =
        some ⟨call, if call.isEx then args.lengthPointer else 0, false, none⟩ := by
      rw [hout, hprobe]
      exact if_pos hsession
    refine hkeyed.frame hown.pendingReads hown.tlsDepth (by rw [hown.trackedSockets])
      (fun _ h => by simp [records_of_events_eq hevents] at h) ?_ ?_
    · intro after hmem hyes
      rw [hafter] at hmem
      obtain rfl := Option.some.inj hmem
      cases hyes
    · intro after hmem pending hfound
      rw [hafter] at hmem
      obtain rfl := Option.some.inj hmem
      exact .inr (.inl ⟨rfl, .inr fun _ h => (by cases h),
        hpending (htarget hsession) pending hfound⟩)
  · refine hkeyed.of_outside hown hout ?_ (.of_events_eq hevents)
    rw [hout, hprobe]
    exact if_neg hsession

/-- Leaving a call on the session that reached its socket, or moved no bytes. -/
private theorem Keyed.of_sslExit {open_ : OpenCall} {call : SslCall} {rc : ℕ}
    (hkeyed : Keyed setup s w past key) (hprobe : f.probe = .sslExit call rc)
    (hopen : w.calls f.ctx.thread = some open_) (hnested : open_.syscall = none)
    (hmoved : open_.reached = true ∨
      sslActual f.ctx open_.call.isEx open_.lengthPointer rc ≤ 0) :
    Keyed setup s (s.watch setup w f) (past ++ s.records setup w f) key := by
  have hfire : fire setup w.maps f =
      sslExit setup.rodata f.ctx call.direction rc w.maps := by rw [fire, hprobe]
  obtain ⟨hown, hadds⟩ := sslExit_spec setup.rodata f.ctx w.maps call.direction rc
  rw [← hfire] at hown hadds
  have hafter : s.callAfter f.ctx.thread f.probe (w.calls f.ctx.thread) = none := by
    rw [hopen, hprobe]
    rfl
  refine hkeyed.frame hown.pendingReads hown.tlsDepth (by rw [hown.trackedSockets]) ?_ ?_ ?_
  · intro event hevent
    obtain ⟨hmem, _⟩ := mem_submitted_of_mem_records hevent
    obtain ⟨_, pending, hfound, heq, hpositive⟩ := hadds.of_mem_submitted hmem
    rcases hkeyed.calls _ open_ hopen pending hfound with
      ⟨hyes, hkey⟩ | ⟨hno, _, hex, hpointer⟩ | ⟨_, ⟨_, hinner, _⟩, _⟩
    · exact .inr ⟨open_, hopen, hyes, heq.trans hkey⟩
    · rcases hmoved with hyes | hnothing
      · rw [hno] at hyes
        cases hyes
      · rw [hex, hpointer] at hpositive
        omega
    · rw [hnested] at hinner
      cases hinner
  · intro after hmem
    rw [hafter] at hmem
    cases hmem
  · intro after hmem
    rw [hafter] at hmem
    cases hmem

/-- Before the socket is tracked no key is fixed yet, so it can be the one it will get. -/
private theorem Keyed.rekey {sk : Sock} (hkeyed : Keyed setup s w past key)
    (hsocket : sk.handle = s.socket) (hopen : w.closed = false) :
    ∃ key', Keyed setup s w past key' ∧
      (trackedOwner f.ctx sk w.maps).connectionKey = key' := by
  cases howner : w.maps.trackedSockets.lookup s.socket with
  | some owner =>
    refine ⟨key, hkeyed, ?_⟩
    rw [← hsocket] at howner
    rw [trackedOwner_connectionKey howner]
    exact hkeyed.tracked owner (hsocket ▸ howner)
  | none =>
    refine ⟨_, ?_, rfl⟩
    rcases hkeyed.untracked howner with hclosed | ⟨rfl, hunreached⟩
    · rw [hopen] at hclosed
      cases hclosed
    refine ⟨fun _ h => absurd h List.not_mem_nil, ?_, fun _ => .inr ⟨rfl, hunreached⟩, ?_⟩
    · intro owner hmem
      rw [howner] at hmem
      cases hmem
    · intro thread open_ hmem pending hfound
      rcases hkeyed.calls thread open_ hmem pending hfound with ⟨hyes, _⟩ | h | h
      · rw [hunreached thread open_ hmem] at hyes
        cases hyes
      · exact .inr (.inl h)
      · exact .inr (.inr h)

/-- A firing of a target process that tracks the socket of the session. -/
private theorem Keyed.of_track {sk : Sock} (hkeyed : Keyed setup s w past key)
    (hreports : Reports sk (trackSocket f.ctx sk w.maps) (fire setup w.maps f))
    (htarget : w.maps.isTargetTgid f.ctx.thread.tgid = true)
    (hsocket : sk.handle = s.socket) (haccepts : w.maps.trackedSockets.accepts s.socket = true)
    (howner : (trackedOwner f.ctx sk w.maps).connectionKey = key)
    (hafter : ∀ after ∈ s.callAfter f.ctx.thread f.probe (w.calls f.ctx.thread),
      after.reached = true) :
    Keyed setup s (s.watch setup w f) (past ++ s.records setup w f) key := by
  obtain ⟨htls, hevents, hpending, _⟩ := trackSocket_frame f.ctx sk w.maps
  obtain ⟨hstored, hcall⟩ := trackSocket_of_target htarget (hsocket ▸ s.socket_ne)
  have htracked : (fire setup w.maps f).trackedSockets.lookup s.socket =
      some (trackedOwner f.ctx sk w.maps) := by
    rw [hreports.same.trackedSockets, ← hsocket]
    exact hstored (hsocket ▸ haccepts)
  have hadds : Adds (OfOwner (some (trackedOwner f.ctx sk w.maps))) w.maps
      (fire setup w.maps f) := by
    have h := hreports.adds
    rw [hstored (hsocket ▸ haccepts)] at h
    exact .trans (.of_events_eq hevents) h
  refine ⟨?_, ?_, ?_, ?_⟩
  · intro event hevent
    rcases List.mem_append.mp hevent with hold | hnew
    · exact hkeyed.earlier event hold
    · obtain ⟨_, owner, hmem, heq⟩ := hadds.of_mem_submitted (mem_submitted_of_mem_records hnew).1
      obtain rfl := Option.some.inj hmem
      exact heq.trans howner
  · intro owner hmem
    rw [watch_maps, htracked] at hmem
    obtain rfl := Option.some.inj hmem
    exact howner
  · intro hnone
    rw [watch_maps, htracked] at hnone
    cases hnone
  · intro thread open_ hopen pending hfound
    rw [watch_maps, hreports.same.pendingReads] at hfound
    by_cases hthread : thread = f.ctx.thread
    · subst hthread
      rw [watch_calls_self] at hopen
      exact .inl ⟨hafter open_ hopen, (hcall pending hfound).trans howner⟩
    · rw [watch_calls_of_ne hthread] at hopen
      rw [hpending thread hthread] at hfound
      refine (hkeyed.calls thread open_ hopen pending hfound).congr ?_
      rw [watch_maps, hreports.same.tlsDepth, htls]

/-- A firing of a thread outside the session's calls that tracks another socket. -/
private theorem Keyed.of_trackOther {sk : Sock} (hkeyed : Keyed setup s w past key)
    (hreports : Reports sk (trackSocket f.ctx sk w.maps) (fire setup w.maps f))
    (hsocket : sk.handle ≠ s.socket) (hsock : f.probe.sock = some sk)
    (hafter : s.callAfter f.ctx.thread f.probe (w.calls f.ctx.thread) = none) :
    Keyed setup s (s.watch setup w f) (past ++ s.records setup w f) key := by
  obtain ⟨htls, hevents, hpending, hother⟩ := trackSocket_frame f.ctx sk w.maps
  refine hkeyed.frame ?_ ?_ ?_ ?_ ?_ ?_
  · intro thread hthread
    rw [hreports.same.pendingReads, hpending thread hthread]
  · intro thread _
    rw [hreports.same.tlsDepth, htls]
  · rw [hreports.same.trackedSockets, hother s.socket (Ne.symm hsocket)]
  · intro event hevent
    obtain ⟨hmem, hconcerns⟩ := mem_submitted_of_mem_records hevent
    have hadds : Adds (OfOwner _) w.maps (fire setup w.maps f) :=
      .trans (.of_events_eq hevents) hreports.adds
    obtain ⟨htype, _⟩ := hadds.of_mem_submitted hmem
    rcases concerns_iff.mp hconcerns with ⟨hio, _⟩ | ⟨_, found, hfound, hhandle⟩
    · rw [htype] at hio
      cases hio
    · obtain rfl : sk = found := Option.some.inj (hsock.symm.trans hfound)
      exact absurd hhandle hsocket
  · intro after hmem
    rw [hafter] at hmem
    cases hmem
  · intro after hmem
    rw [hafter] at hmem
    cases hmem

/-- What a firing that tracks a socket has to satisfy. -/
private theorem Keyed.of_tracks {sk : Sock} (hkeyed : Keyed setup s w past key)
    (htracks : f.probe.tracks = some sk) (hsock : f.probe.sock = some sk)
    (hfire : w.maps.isTargetTgid f.ctx.thread.tgid = true →
      Reports sk (trackSocket f.ctx sk w.maps) (fire setup w.maps f))
    (hidle : w.maps.isTargetTgid f.ctx.thread.tgid = false → fire setup w.maps f = w.maps)
    (hinside : ∀ open_ ∈ w.calls f.ctx.thread,
      w.maps.isTargetTgid f.ctx.thread.tgid = true ∧ sk.handle = s.socket ∧
        ∀ after ∈ s.callAfter f.ctx.thread f.probe (w.calls f.ctx.thread), after.reached = true)
    (houtside : w.calls f.ctx.thread = none →
      s.callAfter f.ctx.thread f.probe (w.calls f.ctx.thread) = none)
    (hfollows : s.Follows w f = true) (hreached : s.Reached w f = true) :
    ∃ key', Keyed setup s (s.watch setup w f) (past ++ s.records setup w f) key' := by
  have hopen : sk.handle = s.socket → w.closed = false := by
    intro hsocket
    have h := (Bool.and_eq_true_iff.mp hfollows).2
    simpa [htracks, hsocket] using h
  have haccepts : w.maps.isTargetTgid f.ctx.thread.tgid = true → sk.handle = s.socket →
      w.maps.trackedSockets.accepts s.socket = true := by
    intro htarget hsocket
    have h := (Bool.and_eq_true_iff.mp hreached).2
    simpa [htracks, hsocket, htarget] using h
  by_cases htarget : w.maps.isTargetTgid f.ctx.thread.tgid = true
  · by_cases hsocket : sk.handle = s.socket
    · obtain ⟨key', hkeyed', howner⟩ := hkeyed.rekey (f := f) hsocket (hopen hsocket)
      refine ⟨key', hkeyed'.of_track (hfire htarget) htarget hsocket (haccepts htarget hsocket)
        howner ?_⟩
      cases hcall : w.calls f.ctx.thread with
      | none =>
        rw [← hcall, houtside hcall]
        intro after hmem
        cases hmem
      | some open_ =>
        rw [← hcall]
        exact (hinside open_ hcall).2.2
    · cases hcall : w.calls f.ctx.thread with
      | none => exact ⟨key, hkeyed.of_trackOther (hfire htarget) hsocket hsock (houtside hcall)⟩
      | some open_ => exact absurd (hinside open_ hcall).2.1 hsocket
  · have hsame := hidle (by simpa using htarget)
    cases hcall : w.calls f.ctx.thread with
    | none =>
      refine ⟨key, hkeyed.of_outside ?_ hcall (houtside hcall) (.of_events_eq (by rw [hsame]))⟩
      rw [hsame]
      exact (SameKeys.refl w.maps).ownThread
    | some open_ => exact absurd (hinside open_ hcall).1 htarget

/-- Inside a call, the thread belongs to a target and the probe is one of those allowed. -/
private theorem inside_of_follows (hfollows : s.Follows w f = true) {open_ : OpenCall}
    (hopen : w.calls f.ctx.thread = some open_) :
    w.maps.isTargetTgid f.ctx.thread.tgid = true ∧ s.insideCall open_ f.probe = true := by
  have h := (Bool.and_eq_true_iff.mp hfollows).1
  rw [hopen] at h
  exact Bool.and_eq_true_iff.mp h

/-- A probe that neither enters nor leaves a call, and reaches no socket for it. -/
private theorem callAfter_eq_self {thread : Thread} {probe : Probe} {before : Option OpenCall}
    (hsome : ∀ open_, s.callAfter thread probe (some open_) = some open_)
    (hnone : s.callAfter thread probe none = none) :
    s.callAfter thread probe before = before := by
  cases before with
  | none => exact hnone
  | some open_ => exact hsome open_

/-- A firing that marks the call of its thread as one of DNS. -/
private theorem Keyed.of_udp {sk : Sock} (hkeyed : Keyed setup s w past key)
    (hfire : fire setup w.maps f = markDnsSocket f.ctx sk w.maps)
    (hout : w.calls f.ctx.thread = none)
    (hafter : s.callAfter f.ctx.thread f.probe none = none) :
    Keyed setup s (s.watch setup w f) (past ++ s.records setup w f) key := by
  refine hkeyed.of_outside ?_ hout (by rw [hout, hafter]) (.of_events_eq ?_)
  · rw [hfire]
    exact markDnsSocket_ownThread
  · rw [hfire]
    exact markDnsSocket_events

/-- Every firing of the run keeps some key. -/
private theorem keyed_step (hfollows : s.Follows w f = true) (hreached : s.Reached w f = true)
    (hkeyed : ∃ key, Keyed setup s w past key) :
    ∃ key, Keyed setup s (s.watch setup w f) (past ++ s.records setup w f) key := by
  obtain ⟨key, hkeyed⟩ := hkeyed
  have hinside : ∀ open_, w.calls f.ctx.thread = some open_ →
      w.maps.isTargetTgid f.ctx.thread.tgid = true ∧ s.insideCall open_ f.probe = true :=
    fun _ => inside_of_follows hfollows
  obtain ⟨ctx, probe⟩ := f
  have hafter : (∀ open_, s.callAfter ctx.thread probe (some open_) = some open_) →
      s.callAfter ctx.thread probe none = none →
      s.callAfter ctx.thread probe (w.calls ctx.thread) = w.calls ctx.thread :=
    callAfter_eq_self
  -- The probes that no call on the session contains.
  have hnoUdp : (∀ open_, s.insideCall open_ probe = false) → w.calls ctx.thread = none := by
    intro hnever
    cases hcall : w.calls ctx.thread with
    | none => rfl
    | some open_ =>
      have h := (hinside open_ hcall).2
      rw [hnever open_] at h
      cases h
  cases probe with
  | sslSetFd ssl fd =>
    exact ⟨key, hkeyed.of_unrelated (writes_handleSslSetFd ctx w.maps ssl fd)
      (hafter (fun _ => rfl) rfl)⟩
  | sslFree ssl =>
    exact ⟨key, hkeyed.of_unrelated (writes_handleSslFree w.maps ssl)
      (hafter (fun _ => rfl) rfl)⟩
  | mutexLockEnter =>
    exact ⟨key, hkeyed.of_unrelated (writes_enterWait ctx w.maps .lock)
      (hafter (fun _ => rfl) rfl)⟩
  | mutexLockExit rc =>
    exact ⟨key, hkeyed.of_unrelated (writes_exitWait setup.rodata ctx w.maps .lock rc)
      (hafter (fun _ => rfl) rfl)⟩
  | schedSwitch switch =>
    exact ⟨key, hkeyed.of_unrelated (writes_handleSchedSwitch setup.rodata ctx w.maps switch)
      (hafter (fun _ => rfl) rfl)⟩
  | processExec =>
    exact ⟨key, hkeyed.of_unrelated (writes_handleProcessExec ctx w.maps)
      (hafter (fun _ => rfl) rfl)⟩
  | processExit =>
    exact ⟨key, hkeyed.of_unrelated (writes_handleProcessExit ctx w.maps)
      (hafter (fun _ => rfl) rfl)⟩
  | pageFaultEnter =>
    exact ⟨key, hkeyed.of_unrelated (writes_enterWait ctx w.maps .pageFault)
      (hafter (fun _ => rfl) rfl)⟩
  | pageFaultExit rc =>
    exact ⟨key, hkeyed.of_unrelated (writes_exitWait setup.rodata ctx w.maps .pageFault rc)
      (hafter (fun _ => rfl) rfl)⟩
  | cpuSample userStack kernelStack =>
    exact ⟨key, hkeyed.of_unrelated (writes_handleCpuSample ctx w.maps userStack kernelStack)
      (hafter (fun _ => rfl) rfl)⟩
  | addTarget tgid =>
    exact ⟨key, hkeyed.of_unrelated (writes_addTarget w.maps tgid) (hafter (fun _ => rfl) rfl)⟩
  | tcpSetState sk newstate =>
    exact ⟨key, hkeyed.of_reports (handleTcpState_reports setup.rodata ctx sk newstate w.maps) rfl
      (hafter (fun _ => rfl) rfl)⟩
  | tcpRcvEstablished sk =>
    exact ⟨key, hkeyed.of_reports (handleTcpRtt_reports setup.rodata ctx sk w.maps) rfl
      (hafter (fun _ => rfl) rfl)⟩
  | tcpRetransmitSkb sk =>
    exact ⟨key, hkeyed.of_reports (handleTcpRetransmit_reports ctx sk w.maps) rfl
      (hafter (fun _ => rfl) rfl)⟩
  | tcpReset sk =>
    exact ⟨key, hkeyed.of_reports (handleTcpReset_reports ctx sk w.maps) rfl
      (hafter (fun _ => rfl) rfl)⟩
  | tcpSendActiveReset sk =>
    exact ⟨key, hkeyed.of_reports (handleTcpActiveReset_reports ctx sk w.maps) rfl
      (hafter (fun _ => rfl) rfl)⟩
  | tcpClose sk => exact ⟨key, hkeyed.of_close rfl⟩
  | udpSendmsg sk => exact ⟨key, hkeyed.of_udp rfl (hnoUdp fun _ => rfl) rfl⟩
  | udpRecvmsg sk => exact ⟨key, hkeyed.of_udp rfl (hnoUdp fun _ => rfl) rfl⟩
  | udpv6Sendmsg sk => exact ⟨key, hkeyed.of_udp rfl (hnoUdp fun _ => rfl) rfl⟩
  | udpv6Recvmsg sk => exact ⟨key, hkeyed.of_udp rfl (hnoUdp fun _ => rfl) rfl⟩
  | sysEnter id args0 args1 args2 =>
    cases hcall : w.calls ctx.thread with
    | none =>
      obtain ⟨hown, hevents⟩ := handleSysEnter_ownThread setup.arch ctx w.maps id args0 args1 args2
      exact ⟨key, hkeyed.of_outside hown hcall (by rw [hcall]; rfl) (.of_events_eq hevents)⟩
    | some open_ =>
      obtain ⟨htarget, hnested⟩ := hinside open_ hcall
      exact ⟨key, hkeyed.of_sysEnter rfl hcall (by simpa [insideCall] using hnested) htarget⟩
  | sysExit id ret =>
    cases hcall : w.calls ctx.thread with
    | none =>
      obtain ⟨hown, hadds⟩ := handleSysExit_ownThread setup.arch setup.rodata ctx w.maps id ret
      exact ⟨key, hkeyed.of_outside hown hcall (by rw [hcall]; rfl) hadds⟩
    | some open_ =>
      obtain ⟨htarget, hnested⟩ := hinside open_ hcall
      exact ⟨key, hkeyed.of_sysExit rfl hcall (by simpa [insideCall] using hnested) htarget⟩
  | sslEnter call args =>
    have hout := hnoUdp fun _ => rfl
    refine ⟨key, hkeyed.of_sslEnter rfl hout ?_⟩
    intro hsession
    have h := (Bool.and_eq_true_iff.mp hfollows).1
    rw [hout] at h
    have htgid : ctx.thread.tgid = s.tgid := hsession.1
    simpa [htgid, hsession.2] using h
  | sslExit call rc =>
    cases hcall : w.calls ctx.thread with
    | none =>
      obtain ⟨hown, hadds⟩ := sslExit_spec setup.rodata ctx w.maps call.direction rc
      refine ⟨key, hkeyed.of_outside hown hcall (by rw [hcall]; rfl) (hadds.imp ?_)⟩
      rintro event ⟨htype, _⟩
      rw [htype]
      decide
    | some open_ =>
      obtain ⟨_, hnested⟩ := hinside open_ hcall
      simp only [insideCall, Bool.and_eq_true, decide_eq_true_eq, Option.isNone_iff_eq_none]
        at hnested
      obtain ⟨rfl, hnested⟩ := hnested
      have hmoved := (Bool.and_eq_true_iff.mp hreached).1
      rw [hcall] at hmoved
      exact ⟨key, hkeyed.of_sslExit rfl hcall hnested (by simpa using hmoved)⟩
  | tcpSendmsg sk | tcpRecvmsg sk =>
    refine hkeyed.of_tracks rfl rfl (fun _ => .refl _) trackSocket_of_not_target ?_
      (fun hout => by rw [hout]; rfl) hfollows hreached
    intro open_ hcall
    obtain ⟨htarget, hsocket⟩ := hinside open_ hcall
    refine ⟨htarget, by simpa [insideCall] using hsocket, ?_⟩
    intro after hmem
    rw [hcall] at hmem
    obtain rfl := Option.some.inj hmem
    rfl
  | tcpConnect sk =>
    have hout := hnoUdp fun _ => rfl
    refine hkeyed.of_tracks rfl rfl (handleTcpConnect_reports ctx sk) ?_ ?_
      (fun hout => by rw [hout]; rfl) hfollows hreached
    · intro htarget
      exact if_neg (by simp [htarget])
    · intro open_ hcall
      rw [hout] at hcall
      cases hcall
  | tcpAccept sk =>
    cases sk with
    | none =>
      exact ⟨key, hkeyed.of_unrelated (.refl w.maps) (hafter (fun _ => rfl) rfl)⟩
    | some sk =>
      have hout := hnoUdp fun _ => rfl
      refine hkeyed.of_tracks rfl rfl (handleTcpAccept_reports ctx sk) ?_ ?_
        (fun hout => by rw [hout]; rfl) hfollows hreached
      · intro htarget
        exact if_neg (by simp [htarget])
      · intro open_ hcall
        rw [hout] at hcall
        cases hcall

/-- Before any call on the session, the key is that of the socket, if it is tracked. -/
private theorem keyed_start (m : Maps) : ∃ key, Keyed setup s (.start m) [] key := by
  refine ⟨((m.trackedSockets.lookup s.socket).map SocketOwner.connectionKey).getD 0,
    fun _ h => absurd h List.not_mem_nil, ?_, fun _ => .inr ⟨rfl, fun _ _ h => by cases h⟩,
    fun _ _ h => by cases h⟩
  intro owner howner
  have hfound : m.trackedSockets.lookup s.socket = some owner := howner
  rw [hfound]
  rfl

variable (setup s) in
/-- In every run in which each call that moves bytes reaches the socket, the records of the
session's bytes and the connection records of its socket carry one key. -/
theorem connectionKeys_agree (m : Maps) (firings : List Firing)
    (hfollows : Along (s.watch setup) (fun w f => s.Follows w f = true) (.start m) firings)
    (hreached : Along (s.watch setup) (fun w f => s.Reached w f = true) (.start m) firings) :
    ∃ key, ∀ event ∈ outputs (s.watch setup) (s.records setup) (.start m) firings,
      event.connectionKey = key := by
  have hrun := outputs_invariant
    (I := fun w past => ∃ key, Keyed setup s w past key)
    (fun w f past hstep hkeyed => keyed_step hstep.1 hstep.2 hkeyed)
    (hfollows.and hreached) (keyed_start m)
  obtain ⟨key, hkeyed⟩ := hrun
  exact ⟨key, hkeyed.earlier⟩

end Session

/-- A socket on the MongoDB port. -/
def Sock.sample : Sock where
  handle := 5000
  skcDaddr := 1
  skcRcvSaddr := 2
  skcDport := 3
  skcNum := 27017
  skcFamily := 2
  skcV6Words := [(0, 0), (0, 0), (0, 0), (0, 0)]
  skErr := 0
  srttUs := 800
  sndWnd := 1

/-- The session of process 7 over the sample socket. -/
def Session.sample : Session := ⟨7, 9000, 5000, by decide⟩

/-- A process whose memory holds zeros. -/
def UserMemory.zeros : UserMemory where
  probeRead _ size := some (List.replicate size 0)
  probeRead_length := by
    intro _ size found hread
    rw [← Option.some.inj hread, List.length_replicate]

/-- A firing in a thread of process 7, at a time. -/
def Firing.sample (now : ℕ) (probe : Probe) : Firing where
  ctx :=
    { thread := ⟨7, 9⟩, uid := 999, gid := 999, cgroupId := 1, comm := [], now,
      ringHasRoom := fun _ => true, residue := [], memory := .zeros }
  probe

/-- The process becomes a target and accepts the connection. -/
def acceptedRun : List Firing :=
  [.sample 1 (.addTarget 7), .sample 2 (.tcpAccept (some .sample)), .sample 3 (.sslSetFd 9000 12)]

/-- A read of five bytes that takes them from the socket. -/
def reachingRead (now : ℕ) : List Firing :=
  [.sample now (.sslEnter .read ⟨9000, 8192, 64, 0⟩), .sample now (.tcpRecvmsg .sample),
    .sample now (.sslExit .read 5)]

/-- A read of five bytes that the library has buffered. -/
def bufferedRead (now : ℕ) : List Firing :=
  [.sample now (.sslEnter .read ⟨9000, 8192, 64, 0⟩), .sample now (.sslExit .read 5)]

/-- Two reads that both reach the socket, and its end. -/
theorem reachingReads_agree :
    ∃ key, ∀ event ∈ outputs (Session.sample.watch {}) (Session.sample.records {}) (.start {})
      (acceptedRun ++ reachingRead 4 ++ reachingRead 5 ++ [.sample 9 (.tcpClose .sample)]),
      event.connectionKey = key :=
  Session.connectionKeys_agree {} .sample {} _ (by decide +kernel) (by decide +kernel)

/-- A read that the library serves from its buffer keeps the key of the descriptor, while the
accepted connection and the read before it have the key of the socket. -/
theorem bufferedRead_disagrees :
    ¬∀ (setup : Setup) (s : Session) (m : Maps) (firings : List Firing),
      Along (s.watch setup) (fun w f => s.Follows w f = true) (.start m) firings →
        ∃ key, ∀ event ∈ outputs (s.watch setup) (s.records setup) (.start m) firings,
          event.connectionKey = key := by
  intro h
  obtain ⟨key, hkey⟩ := h {} .sample {} (acceptedRun ++ reachingRead 4 ++ bufferedRead 5)
    (by decide +kernel)
  have hkeys : (outputs (Session.sample.watch {}) (Session.sample.records {}) (.start {})
      (acceptedRun ++ reachingRead 4 ++ bufferedRead 5)).map KernelEvent.connectionKey =
      [6435532892582589192, 6435532892582589192, 6435532892582589192, 12] := by
    decide +kernel
  have hall : ∀ k ∈ [6435532892582589192, 6435532892582589192, 6435532892582589192, 12],
      k = key := by
    rw [← hkeys]
    intro k hk
    obtain ⟨event, hevent, rfl⟩ := List.mem_map.mp hk
    exact hkey event hevent
  have hsocket := hall 6435532892582589192 (by decide)
  have hdescriptor := hall 12 (by decide)
  omega

end MongoDam.Bpf
