import MongoDam.Bpf.Registers

/-!
# Only target processes are observed

The probes fire for every process of the node, and their records name a process. It is
always one that was named a target: found by the scan or started as one. Where the probe
checks the process itself, it has not ended since; the other records continue what
a thread or a socket began as part of a target.
-/

namespace MongoDam.Bpf

open Lib Observer

/-- The process was named a target. -/
def Named (fs : List Firing) (tgid : ℕ) : Prop := ∃ f ∈ fs, f.Names tgid

/-- The process was named a target and has not ended since. -/
def Watched (setup : Setup) (fs : List Firing) (tgid : ℕ) : Prop :=
  Since (fire setup) (fun _ f => f.Names tgid) (fun _ f => ¬ f.Ends tgid) {} fs

/-- The probes that ask whether the process of a record is a target when they write it. -/
def Probe.checksTarget : Probe → Bool
  | .sysExit _ _ | .cpuSample _ _ | .processExit | .tcpConnect _ | .tcpAccept _ => true
  | _ => false

variable {setup : Setup} {fs : List Firing} {tgid : ℕ}

theorem Named.append (h : Named fs tgid) (more : List Firing) : Named (fs ++ more) tgid := by
  obtain ⟨f, hf, hnames⟩ := h
  exact ⟨f, List.mem_append_left more hf, hnames⟩

theorem Watched.named (h : Watched setup fs tgid) : Named fs tgid := by
  obtain ⟨older, f, later, rfl, hnames, -⟩ := h
  exact ⟨f, by simp, hnames⟩

/-- A process in the map of targets is watched. -/
theorem watched_of_isTargetTgid (h : (ran setup fs).isTargetTgid tgid = true) :
    Watched setup fs tgid := by
  obtain ⟨mark, hmark⟩ := Option.isSome_iff_exists.mp h
  exact since_of_entry (fun m => m.targetTgids.lookup tgid) (fun _ _ f => f.Names tgid)
    (fun _ f => ¬ f.Ends tgid) (fun m f mark hfound => targetTgids_written hfound) rfl hmark

/-- An entry that is only written as part of a target names one. -/
private theorem named_of_entry {ν : Type} (get : Maps → Option ν) (process : ν → ℕ)
    (hstep : ∀ m f x, get (fire setup m f) = some x →
      (f.Names (process x) ∨ m.isTargetTgid (process x) = true) ∨ get m = some x)
    (hstart : get {} = none) {x : ν} (hfound : get (ran setup fs) = some x) :
    Named fs (process x) := by
  obtain ⟨older, f, later, rfl, hnames | htarget, -⟩ := since_of_entry get
    (fun x m f => f.Names (process x) ∨ m.isTargetTgid (process x) = true)
    (fun _ _ => True) (fun m f x hx => (hstep m f x hx).imp id fun h => ⟨trivial, h⟩)
    hstart hfound
  · exact ⟨f, by simp, hnames⟩
  · exact (watched_of_isTargetTgid htarget).named.append _

section Entries

variable {thread : Thread}

private theorem named_of_pendingRead {pending : PendingRead}
    (h : (ran setup fs).pendingReads.lookup thread = some pending) : Named fs thread.tgid := by
  refine named_of_entry (fun m => (m.pendingReads.lookup thread).map fun _ => thread)
    Thread.tgid ?_ rfl (by rw [h]; rfl)
  intro m f _ hfound
  obtain ⟨pending, hpending, rfl⟩ := Option.map_eq_some_iff.mp hfound
  rcases pendingReads_written hpending with ⟨rfl, henters⟩ | ⟨_, before, hbefore, _⟩
  · refine .inl (.inr ?_)
    cases henters with
    | syscall _ hplain _ _ => exact hplain.1
    | ssl _ htarget => exact htarget
  · exact .inr (by rw [hbefore]; rfl)

private theorem named_of_wait (w : Wait) {started : ℕ}
    (h : (w.starts (ran setup fs)).lookup thread = some started) : Named fs thread.tgid := by
  refine named_of_entry (fun m => (w.starts m).lookup thread) (fun _ => thread.tgid) ?_
    (by cases w <;> rfl) h
  intro m f started hfound
  rcases (starts_iff w).mp hfound with ⟨⟨_, _, htarget⟩, _⟩ | ⟨_, hbefore⟩
  · exact .inl (.inr htarget)
  · exact .inr hbefore

private theorem named_of_targetThread {pid : ℕ}
    (h : (ran setup fs).targetThreads.lookup pid = some tgid) : Named fs tgid := by
  refine named_of_entry (fun m => m.targetThreads.lookup pid) id ?_ rfl h
  intro m f tgid hfound
  rcases targetThreads_written hfound with ⟨_, hnamed⟩ | ⟨_, hbefore⟩
  · exact .inl hnamed
  · exact .inr hbefore

private theorem named_of_trackedSocket {handle : ℕ} {owner : SocketOwner}
    (h : (ran setup fs).trackedSockets.lookup handle = some owner) : Named fs owner.tgid := by
  refine named_of_entry (fun m => m.trackedSockets.lookup handle) SocketOwner.tgid ?_ rfl h
  intro m f owner hfound
  rcases trackedSockets_written hfound with ⟨sk, _, _, htarget, rfl⟩ | ⟨_, hbefore⟩
  · exact .inl (.inr htarget)
  · exact .inr hbefore

end Entries

/-- Only the probes that track a socket check the process of its owner. -/
private theorem Report.unchecked {m : Maps} {f : Firing} {sk : Sock} {operation durationNs : ℕ}
    (h : Report setup m f sk operation durationNs) (htracks : f.probe.tracks = none) :
    f.probe.checksTarget = false := by
  cases h with
  | connect hprobe | accept hprobe | acceptHandshake hprobe =>
    rw [hprobe] at htracks
    cases htracks
  | established hprobe | resetByState hprobe | timeout hprobe | close hprobe | rtt hprobe
  | zeroWindow hprobe | retransmit hprobe | resetReceived hprobe | resetSent hprobe =>
    rw [hprobe]
    rfl

/-- Every record names a process that was named a target before, and one that has not ended
since where the probe checks it. -/
theorem records_of_targets (setup : Setup) (older : List Firing) (f : Firing)
    {event : KernelEvent} (hevent : event ∈ submittedAfter setup older f) :
    Named (older ++ [f]) event.tgid ∧
      (f.probe.checksTarget = true → Watched setup older event.tgid) := by
  have hchecked (htarget : (ran setup older).isTargetTgid event.tgid = true) :
      Named (older ++ [f]) event.tgid ∧
        (f.probe.checksTarget = true → Watched setup older event.tgid) :=
    ⟨(watched_of_isTargetTgid htarget).named.append [f], fun _ => watched_of_isTargetTgid htarget⟩
  have hunchecked (hprobe : f.probe.checksTarget = false) (hnamed : Named older event.tgid) :
      Named (older ++ [f]) event.tgid ∧
        (f.probe.checksTarget = true → Watched setup older event.tgid) :=
    ⟨hnamed.append [f], fun hyes => by simp [hprobe] at hyes⟩
  cases submission_of_mem hevent with
  | syscallBytes hprobe htarget _ _ _ _ hchunk =>
    obtain ⟨_, _, _, rfl⟩ := hchunk.exists_chunkEvent
    exact hchecked htarget
  | tlsBytes hprobe hpending hchunk =>
    obtain ⟨_, _, _, rfl⟩ := hchunk.exists_chunkEvent
    exact hunchecked (by rw [hprobe]; rfl) (named_of_pendingRead hpending)
  | latency hprobe htarget _ _ _ => exact hchecked htarget
  | lockWait hprobe hstart _ => exact hunchecked (by rw [hprobe]; rfl) (named_of_wait .lock hstart)
  | pageFault hprobe hstart _ =>
    exact hunchecked (by rw [hprobe]; rfl) (named_of_wait .pageFault hstart)
  | offCpu hprobe hthread _ _ =>
    exact hunchecked (by rw [hprobe]; rfl) (named_of_targetThread hthread)
  | @connection sk owner _ _ hreport howner =>
    rcases howner.2 with ⟨htracks, hfound⟩ | ⟨_, htarget, rfl⟩
    · exact hunchecked (hreport.unchecked htracks) (named_of_trackedSocket hfound)
    · exact hchecked htarget
  | exec hprobe hcomm =>
    exact ⟨⟨f, by simp, .inr ⟨hprobe, hcomm, rfl⟩⟩,
      fun hyes => by simp [hprobe, Probe.checksTarget] at hyes⟩
  | exit hprobe htarget _ => exact hchecked htarget
  | cpuSample hprobe htarget => exact hchecked htarget

/-- A processor sample of a process the scan found. -/
theorem sample_of_target :
    Named (acceptedRun ++ [.sample 4 (.cpuSample 1 2)]) 7 ∧
      ((Firing.sample 4 (.cpuSample 1 2)).probe.checksTarget = true →
        Watched {} acceptedRun 7) :=
  @records_of_targets {} acceptedRun (.sample 4 (.cpuSample 1 2))
    (cpuSampleEvent (Firing.sample 4 (.cpuSample 1 2)).ctx 1 2) (by decide +kernel)

end MongoDam.Bpf
