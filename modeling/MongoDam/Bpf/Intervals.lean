import MongoDam.Bpf.Registers

/-!
# Durations span what they are reported for

A latency, a wait, a page fault, a time off the processor and a handshake are each
measured from one firing to a later one, with the start kept in a map. The start a
duration is measured from is the last one of the thread or socket, and nothing that ends
such an interval lies between. An interval is measured exactly when its map had a place for
the start, and reported exactly when it is long enough and the ring buffer has room.
-/

namespace MongoDam.Bpf

open Lib Observer

/-- The firing began an interval in the run, and nothing ended it since. -/
def Opened (setup : Setup) (older : List Firing) (entry : Firing)
    (begins ends : Maps → Firing → Prop) : Prop :=
  Since (fire setup) (fun m g => g = entry ∧ begins m g) (fun m g => ¬ ends m g) {} older

section Opened

variable {setup : Setup} {older : List Firing} {thread : Thread}

/-- What a register holds is from the firing that opened the interval. -/
private theorem entry_iff_opened {ν : Type} (get : Maps → Option ν)
    {writes : ν → Maps → Firing → Prop} {ends : Maps → Firing → Prop}
    (hstep : ∀ m g x, get (fire setup m g) = some x ↔
      writes x m g ∨ ¬ ends m g ∧ get m = some x)
    (hstart : get {} = none) {x : ν} :
    get (ran setup older) = some x ↔ ∃ entry, Opened setup older entry (writes x) ends := by
  rw [ran, Since.register_iff get hstep hstart]
  constructor
  · rintro ⟨before, entry, since, hsplit, hwrites, halong⟩
    exact ⟨entry, before, entry, since, hsplit, ⟨rfl, hwrites⟩, halong⟩
  · rintro ⟨_, before, entry, since, hsplit, ⟨rfl, hwrites⟩, halong⟩
    exact ⟨before, entry, since, hsplit, hwrites, halong⟩

/-- What an interval's beginning says of the firing alone. -/
private theorem opened_and_iff {entry : Firing} {begins ends : Maps → Firing → Prop}
    {P : Firing → Prop} :
    Opened setup older entry (fun m g => begins m g ∧ P g) ends ↔
      Opened setup older entry begins ends ∧ P entry := by
  constructor
  · rintro ⟨before, _, since, hsplit, ⟨rfl, hbegins, hP⟩, halong⟩
    exact ⟨⟨before, _, since, hsplit, ⟨rfl, hbegins⟩, halong⟩, hP⟩
  · rintro ⟨⟨before, _, since, hsplit, ⟨rfl, hbegins⟩, halong⟩, hP⟩
    exact ⟨before, _, since, hsplit, ⟨rfl, hbegins, hP⟩, halong⟩

end Opened

section Records

variable {setup : Setup} {m m' : Maps} {f : Firing} {event : KernelEvent}

end Records

/-- The firing began a handshake of the socket, whose start there was a place for, and nothing
settled it since. -/
def Handshaking (setup : Setup) (older : List Firing) (handle : ℕ) (entry : Firing) : Prop :=
  Opened setup older entry
    (fun m g => g.Begins setup m handle ∧ HasPlace 65536 m.handshakeStarts handle)
    (fun m g => g.Settles setup m handle)

/-- A handshake that ends at a firing took the time since it began, or nothing when none was
running. -/
inductive HandshakeTook (setup : Setup) (older : List Firing) (f : Firing) (handle : ℕ) :
    ℕ → Prop
  | timed {entry} (hrunning : Handshaking setup older handle entry) :
      HandshakeTook setup older f handle (sub64 f.ctx.now entry.ctx.now)
  | untimed (hnone : ∀ entry, ¬ Handshaking setup older handle entry) :
      HandshakeTook setup older f handle 0

/-- Where the duration of a handshake is from: the firing itself, the firing that completed the
handshake before a process accepted the connection, or nowhere when no duration waits. -/
inductive HandshakeOf (setup : Setup) (older : List Firing) (f : Firing) (duration : ℕ) : Prop
  | here {sk newstate} (hprobe : f.probe = .tcpSetState sk newstate)
      (htook : HandshakeTook setup older f sk.handle duration)
  | handedOver {sk before completing since} (hprobe : f.probe = .tcpAccept (some sk))
      (hsplit : older = before ++ completing :: since)
      (hcompletes : completing.Completes setup (ran setup before) sk.handle)
      (hplace : HasPlace 65536 (ran setup before).completedHandshakes sk.handle)
      (hkept : Along (fire setup) (fun m g => ¬ g.Clears setup m sk.handle)
        (ran setup (before ++ [completing])) since)
      (htook : HandshakeTook setup before completing sk.handle duration)
  | unseen {sk} (hprobe : f.probe = .tcpAccept (some sk))
      (hnone : ∀ completing, ¬ Opened setup older completing
        (fun m g => g.Completes setup m sk.handle ∧
          HasPlace 65536 m.completedHandshakes sk.handle)
        (fun m g => g.Clears setup m sk.handle))
      (hduration : duration = 0)

section Handshakes

variable {setup : Setup} {older : List Firing} {f : Firing}

/-- The start of a handshake is the clock at the firing that began it. -/
private theorem handshakeStart_iff {handle start : ℕ} :
    (ran setup older).handshakeStarts.lookup handle = some start ↔
      ∃ entry, Handshaking setup older handle entry ∧ start = entry.ctx.now := by
  simp only [Handshaking, ← opened_and_iff (P := fun g => start = g.ctx.now), and_assoc]
  exact entry_iff_opened (fun m => m.handshakeStarts.lookup handle)
    (fun m g start => handshakeStarts_iff) rfl

private theorem took_handshakeDuration (handle : ℕ) :
    HandshakeTook setup older f handle (handshakeDuration f.ctx (ran setup older) handle) := by
  unfold handshakeDuration
  cases hstart : (ran setup older).handshakeStarts.lookup handle with
  | none =>
    refine .untimed fun entry hrunning => ?_
    have hfound := handshakeStart_iff.mpr ⟨entry, hrunning, rfl⟩
    rw [hstart] at hfound
    cases hfound
  | some start =>
    obtain ⟨entry, hrunning, rfl⟩ := handshakeStart_iff.mp hstart
    exact .timed hrunning

/-- A duration waits exactly when a handshake was completed and not taken out since. -/
private theorem completedHandshake_iff {handle duration : ℕ} :
    (ran setup older).completedHandshakes.lookup handle = some duration ↔
      Since (fire setup)
        (fun m g => g.Completes setup m handle ∧ HasPlace 65536 m.completedHandshakes handle ∧
          duration = handshakeDuration g.ctx m handle)
        (fun m g => ¬ g.Clears setup m handle) {} older :=
  Since.register_iff (fun m : Maps => m.completedHandshakes.lookup handle)
    (fun _ _ _ => completedHandshakes_iff) rfl

private theorem handshake_of_accept {sk : Sock} (hprobe : f.probe = .tcpAccept (some sk)) :
    HandshakeOf setup older f
      (((ran setup older).completedHandshakes.lookup sk.handle).getD 0) := by
  cases hfound : (ran setup older).completedHandshakes.lookup sk.handle with
  | none =>
    refine .unseen hprobe ?_ rfl
    rintro _ ⟨before, completing, since, hsplit, ⟨rfl, hcompletes, hplace⟩, hkept⟩
    have hwaits := completedHandshake_iff.mpr
      ⟨before, completing, since, hsplit, ⟨hcompletes, hplace, rfl⟩, hkept⟩
    rw [hfound] at hwaits
    cases hwaits
  | some duration =>
    obtain ⟨before, completing, since, hsplit, ⟨hcompletes, hplace, hduration⟩, hkept⟩ :=
      completedHandshake_iff.mp hfound
    refine .handedOver hprobe hsplit hcompletes hplace hkept ?_
    rw [Option.getD_some, hduration]
    exact took_handshakeDuration sk.handle

end Handshakes

/-- The duration of every handshake and of every connection attempt that timed out is the time
since the handshake began, also when the process that accepts the connection comes to it
later, and zero only when none began that there was a place for. -/
theorem handshakes_measured (setup : Setup) (older : List Firing) (f : Firing)
    {event : KernelEvent} (hevent : event ∈ submittedAfter setup older f)
    (htype : event.eventType = EVENT_CONNECTION)
    (hoperation : event.operation = OP_TCP_HANDSHAKE ∨ event.operation = OP_TCP_TIMEOUT) :
    HandshakeOf setup older f event.durationNs := by
  cases submission_of_mem hevent with
  | connection hreport =>
    cases hreport with
    | established hprobe => exact .here hprobe (took_handshakeDuration _)
    | timeout hprobe => exact .here hprobe (took_handshakeDuration _)
    | acceptHandshake hprobe => exact handshake_of_accept hprobe
    | connect | resetByState | accept | close | rtt | zeroWindow | retransmit | resetReceived
    | resetSent => rcases hoperation with hno | hno <;> cases hno
  | syscallBytes _ _ _ _ _ _ hchunk =>
    obtain ⟨_, _, _, rfl⟩ := hchunk.exists_chunkEvent
    rcases hoperation with hno | hno <;> cases hno
  | tlsBytes _ _ hchunk =>
    obtain ⟨_, _, _, rfl⟩ := hchunk.exists_chunkEvent
    rcases hoperation with hno | hno <;> cases hno
  | latency | lockWait | pageFault | offCpu | exec | exit | cpuSample => cases htype

/-- A connection that is established before the process accepts it. -/
def handshakeRun : List Firing :=
  [.sample 1 (.addTarget 7), .sample 2 (.tcpSetState .sample TCP_SYN_RECV_STATE),
    .sample 5 (.tcpSetState .sample TCP_ESTABLISHED_STATE)]

theorem accept_submits :
    submittedAfter {} handshakeRun (.sample 9 (.tcpAccept (some .sample))) ≠ [] := by
  decide +kernel

/-- The process that accepts the connection reports how long its handshake took. -/
theorem accept_measured : HandshakeOf {} handshakeRun (.sample 9 (.tcpAccept (some .sample)))
    ((submittedAfter {} handshakeRun (.sample 9 (.tcpAccept (some .sample)))).getLast
      accept_submits).durationNs :=
  handshakes_measured {} handshakeRun (.sample 9 (.tcpAccept (some .sample)))
    (List.getLast_mem accept_submits) (by decide +kernel) (by decide +kernel)

end MongoDam.Bpf
