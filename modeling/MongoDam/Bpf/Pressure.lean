import MongoDam.Bpf.Registers

/-!
# What a full ring buffer costs

Whether the ring buffer has room when a handler reserves a record decides whether that
record is written, and what the reserved record held before is left behind its captured
bytes. Nothing else depends on the ring buffer: the maps that later records are made from are
the same, and every record that is missing was counted, once. Beside the missing records only
those are counted whose bytes cannot be read, which are given up uncounted where there is room.
-/

namespace MongoDam.Bpf

open Lib Observer

/-- A ring buffer with room wherever it had room, and with stale bytes of its own. -/
structure Context.Roomier (ctx : Context) where
  ringHasRoom : ℕ → Bool
  residue : Bytes
  roomier : ∀ place, ctx.ringHasRoom place = true → ringHasRoom place = true

/-- The surroundings of a firing, with another ring buffer. -/
def Context.withRing (ctx : Context) (ring : ctx.Roomier) : Context :=
  { ctx with ringHasRoom := ring.ringHasRoom, residue := ring.residue }

/-- The same firing, with a ring buffer that has more room. -/
def Firing.Eased (f f' : Firing) : Prop :=
  ∃ ring : f.ctx.Roomier, f' = { f with ctx := f.ctx.withRing ring }

/-- The maps with another ring buffer. -/
def Maps.withRing (m : Maps) (events : List KernelEvent) (droppedEvents : ℕ) : Maps :=
  { m with events, droppedEvents }

/-- Two records that differ at most behind their captured bytes. -/
structure SameCapture (event event' : KernelEvent) : Prop where
  fields : event' = { event with data := event'.data, data_length := event'.data_length }
  captured : event'.data.take event.capturedLen = event.data.take event.capturedLen

/-- Two records without captured bytes. -/
theorem SameCapture.of_empty {event event' : KernelEvent} (hcaptured : event.capturedLen = 0)
    (hfields : event' = { event with data := event'.data, data_length := event'.data_length }) :
    SameCapture event event' :=
  ⟨hfields, by rw [hcaptured, List.take_zero, List.take_zero]⟩

/-- The bytes written to a reserved record stand in front of the stale ones. -/
private theorem take_dataField {found : Bytes} {captured : ℕ} (hlength : found.length = captured)
    (hcaptured : captured ≤ MAX_CAPTURE_BYTES) (residue : Bytes) :
    (dataField found residue).take captured = found := by
  have hfits : captured ≤
      ((found ++ residue.drop found.length).take MAX_CAPTURE_BYTES).length := by
    rw [List.length_take, List.length_append]
    omega
  rw [dataField, List.rightpad, List.take_append_of_le_length hfits, List.take_take,
    Nat.min_eq_left hcaptured, List.take_append_of_le_length (Nat.le_of_eq hlength.symm),
    List.take_of_length_le (Nat.le_of_eq hlength)]

private theorem capturedCount_le (actual copyLimit : ℕ) :
    capturedCount actual copyLimit ≤ MAX_CAPTURE_BYTES := by
  rw [capturedCount]
  split_ifs <;> omega

open Classical in
/-- At most how many records of one chunk are given up because its bytes cannot be read. -/
noncomputable def Context.unread (ctx : Context) : ℕ :=
  if ∀ address size, (ctx.memory.probeRead address size).isSome = true then 0 else 1

theorem Context.unread_of_none {ctx : Context} {address size : ℕ}
    (h : ctx.memory.probeRead address size = none) : ctx.unread = 1 :=
  if_neg fun hall => by simpa [h] using hall address size

/-- The same maps, with and without pressure on the ring buffer: the records written under
pressure are among the others, those missing were counted, and beside them at most `unread`
whose bytes cannot be read. Where there is always room nothing is counted. -/
structure Pressed (roomy : Prop) (unread : ℕ) (m n : Maps) : Prop where
  maps : n = m.withRing n.events n.droppedEvents
  records : List.SublistForall₂ SameCapture m.events n.events
  counted : ∃ given ≤ unread, (m.droppedEvents + m.events.length) % 2 ^ 64 =
    (n.droppedEvents + n.events.length + given) % 2 ^ 64
  uncounted : roomy → n.droppedEvents = 0

/-- A step that neither reads the ring buffer nor writes to it. -/
def Blind (step : Maps → Maps) : Prop :=
  ∀ m events dropped, step (m.withRing events dropped) = (step m).withRing events dropped

namespace Pressed

variable {roomy : Prop} {unread : ℕ} {m n : Maps} {ctx : Context} (ring : ctx.Roomier)
  (hroomy : roomy → ∀ place, ring.ringHasRoom place = true)

theorem mono {more : ℕ} (h : Pressed roomy unread m n) (hle : unread ≤ more) :
    Pressed roomy more m n := by
  obtain ⟨given, hgiven, hcounted⟩ := h.counted
  exact ⟨h.maps, h.records, ⟨given, Nat.le_trans hgiven hle, hcounted⟩, h.uncounted⟩

theorem blind (h : Pressed roomy unread m n) (step : Maps → Maps) (hblind : Blind step) :
    Pressed roomy unread (step m) (step n) := by
  have hm : step m = (step m).withRing m.events m.droppedEvents :=
    hblind m m.events m.droppedEvents
  have hn : step n = (step m).withRing n.events n.droppedEvents := by
    rw [h.maps]
    exact hblind m n.events n.droppedEvents
  rw [hm, hn]
  exact ⟨rfl, h.records, h.counted, h.uncounted⟩

/-- A record that is written with and without pressure. -/
private theorem written (h : Pressed roomy unread m n) {event event' : KernelEvent}
    (hsame : SameCapture event event') :
    Pressed roomy unread { m with events := m.events ++ [event] }
      { n with events := n.events ++ [event'] } := by
  obtain ⟨given, hgiven, hcounted⟩ := h.counted
  obtain ⟨kept, hkept, hsublist⟩ := List.sublistForall₂_iff.mp h.records
  refine ⟨?_, ?_, ⟨given, hgiven, ?_⟩, h.uncounted⟩
  · rw [h.maps]
    rfl
  · exact List.sublistForall₂_iff.mpr ⟨kept ++ [event'],
      List.rel_append hkept (.cons hsame .nil), hsublist.append (.refl _)⟩
  · simp only [List.length_append, List.length_singleton]
    omega

/-- A record that is counted under pressure. -/
private theorem missed (h : Pressed roomy unread m n) (event : KernelEvent) :
    Pressed roomy unread m.countDrop { n with events := n.events ++ [event] } := by
  obtain ⟨given, hgiven, hcounted⟩ := h.counted
  obtain ⟨kept, hkept, hsublist⟩ := List.sublistForall₂_iff.mp h.records
  refine ⟨?_, ?_, ⟨given, hgiven, ?_⟩, h.uncounted⟩
  · rw [h.maps]
    rfl
  · exact List.sublistForall₂_iff.mpr
      ⟨kept, hkept, hsublist.trans (List.sublist_append_left _ _)⟩
  · simp only [Maps.countDrop, List.length_append, List.length_singleton]
    omega

/-- A record whose bytes could not be read is counted under pressure only. -/
private theorem counted_once (h : Pressed roomy unread m n) :
    Pressed roomy (unread + 1) m.countDrop n := by
  obtain ⟨given, hgiven, hcounted⟩ := h.counted
  refine ⟨?_, h.records, ⟨given + 1, Nat.succ_le_succ hgiven, ?_⟩, h.uncounted⟩
  · rw [h.maps]
    rfl
  · simp only [Maps.countDrop]
    omega

/-- A record that is counted with and without pressure. -/
private theorem counted_twice (h : Pressed roomy unread m n) (hpressure : ¬ roomy) :
    Pressed roomy unread m.countDrop n.countDrop := by
  obtain ⟨given, hgiven, hcounted⟩ := h.counted
  refine ⟨?_, h.records, ⟨given, hgiven, ?_⟩, fun hyes => absurd hyes hpressure⟩
  · rw [h.maps]
    rfl
  · simp only [Maps.countDrop]
    omega

include hroomy

private theorem reserveAndSubmit (h : Pressed roomy unread m n) (place : ℕ)
    {event event' : KernelEvent} (hsame : SameCapture event event') :
    Pressed roomy unread (reserveAndSubmit ctx place event m)
      (Bpf.reserveAndSubmit (ctx.withRing ring) place event' n) := by
  unfold Bpf.reserveAndSubmit
  by_cases hroom : ctx.ringHasRoom place = true
  · rw [if_pos hroom, if_pos (show (ctx.withRing ring).ringHasRoom place = true from
      ring.roomier place hroom)]
    exact h.written hsame
  · rw [if_neg hroom]
    split
    · exact h.missed event'
    · next hfull => exact h.counted_twice fun hyes => hfull (hroomy hyes place)

omit hroomy in
/-- The record of a chunk holds the bytes read, whatever the ring buffer held before. -/
private theorem sameCapture_chunkEvent (label : ChunkLabel) (actual : ℤ) {captured : ℕ}
    {found : Bytes} (hlength : found.length = captured) (hcaptured : captured ≤ MAX_CAPTURE_BYTES) :
    SameCapture (chunkEvent ctx label actual captured found)
      (chunkEvent (ctx.withRing ring) label actual captured found) := by
  exact ⟨rfl, (take_dataField hlength hcaptured ring.residue).trans
    (take_dataField hlength hcaptured ctx.residue).symm⟩

private theorem submitChunkLimited (h : Pressed roomy unread m n) (place buffer : ℕ) (actual : ℤ)
    (label : ChunkLabel) (limit : ℕ) :
    Pressed roomy (unread + ctx.unread) (submitChunkLimited ctx place buffer actual label limit m)
      (Bpf.submitChunkLimited (ctx.withRing ring) place buffer actual label limit n) := by
  have hmemory : (ctx.withRing ring).memory = ctx.memory := rfl
  have hmore : Pressed roomy (unread + ctx.unread) m n := h.mono (Nat.le_add_right _ _)
  unfold Bpf.submitChunkLimited
  by_cases hempty : actual ≤ 0 ∨ buffer = 0 ∨ limit = 0
  · rw [if_pos hempty, if_pos hempty]
    exact hmore
  rw [if_neg hempty, if_neg hempty, hmemory]
  dsimp only
  by_cases hroom : ctx.ringHasRoom place = true
  · rw [if_pos hroom, if_pos (show (ctx.withRing ring).ringHasRoom place = true from
      ring.roomier place hroom)]
    cases hread : ctx.memory.probeRead buffer (capturedCount actual.toNat limit) with
    | none => exact hmore
    | some found =>
      exact hmore.written (sameCapture_chunkEvent ring label actual
        (ctx.memory.probeRead_length hread) (capturedCount_le _ _))
  · rw [if_neg hroom]
    split
    · cases hread : ctx.memory.probeRead buffer (capturedCount actual.toNat limit) with
      | none =>
        rw [Context.unread_of_none hread]
        exact h.counted_once
      | some found => exact hmore.missed _
    · next hfull => exact hmore.counted_twice fun hyes => hfull (hroomy hyes place)

private theorem vectorLoop (label : ChunkLabel) (array count : ℕ) :
    ∀ (slots index remaining budget : ℕ) {unread : ℕ} {m n : Maps}, Pressed roomy unread m n →
      Pressed roomy (unread + slots * ctx.unread)
        (vectorLoop ctx label array count slots index remaining budget m)
        (Bpf.vectorLoop (ctx.withRing ring) label array count slots index remaining budget n)
  | 0, _, _, _, _, _, _, h => h.mono (Nat.le_add_right _ _)
  | slots + 1, index, remaining, budget, unread, m, n, h => by
    have hmemory : (ctx.withRing ring).memory = ctx.memory := rfl
    have hmore : Pressed roomy (unread + (slots + 1) * ctx.unread) m n :=
      h.mono (Nat.le_add_right _ _)
    have hslot : unread + ctx.unread + slots * ctx.unread =
        unread + (slots + 1) * ctx.unread := by
      rw [Nat.succ_mul, Nat.add_comm (slots * ctx.unread), Nat.add_assoc]
    rw [Bpf.vectorLoop, Bpf.vectorLoop, hmemory]
    by_cases hend : count ≤ index ∨ remaining = 0 ∨ budget = 0
    · rw [if_pos hend, if_pos hend]
      exact hmore
    rw [if_neg hend, if_neg hend]
    cases readIovec ctx.memory array index with
    | none => exact hmore
    | some iov =>
      dsimp only
      generalize (if remaining < iov.iovLen then remaining else iov.iovLen) = segment
      generalize (if segment < budget then segment else budget) = copied
      by_cases hempty : segment = 0
      · rw [if_pos hempty, if_pos hempty]
        exact (vectorLoop label array count slots _ _ _ h).mono (by rw [← hslot]; omega)
      · rw [if_neg hempty, if_neg hempty]
        have hsubmit := h.submitChunkLimited ring hroomy index iov.iovBase
          (reportedSegment index segment copied (remaining - segment) (budget - copied)) label
          copied
        by_cases hlast : copied <
            reportedSegment index segment copied (remaining - segment) (budget - copied)
        · rw [if_pos hlast, if_pos hlast]
          exact hsubmit.mono (by rw [← hslot]; omega)
        · rw [if_neg hlast, if_neg hlast, ← hslot]
          exact vectorLoop label array count slots _ _ _ hsubmit

private theorem submitVectorChunks (h : Pressed roomy unread m n) (rodata : Rodata)
    (pointer countHint : ℕ) (isMsghdr : Bool) (actual : ℤ) (label : ChunkLabel) :
    Pressed roomy (unread + MAX_VECTOR_CHUNKS * ctx.unread)
      (submitVectorChunks rodata ctx pointer countHint isMsghdr actual label m)
      (Bpf.submitVectorChunks rodata (ctx.withRing ring) pointer countHint isMsghdr actual label
        n) := by
  have hmemory : (ctx.withRing ring).memory = ctx.memory := rfl
  have hmore : Pressed roomy (unread + MAX_VECTOR_CHUNKS * ctx.unread) m n :=
    h.mono (Nat.le_add_right _ _)
  unfold Bpf.submitVectorChunks
  rw [hmemory]
  by_cases hempty : actual ≤ 0 ∨ pointer = 0
  · rw [if_pos hempty, if_pos hempty]
    exact hmore
  rw [if_neg hempty, if_neg hempty]
  cases locateIovecs ctx.memory pointer countHint isMsghdr with
  | none => exact hmore
  | some located => exact vectorLoop ring hroomy label _ _ _ _ _ _ h

/-- The record of a single chunk. -/
private theorem submitChunk (h : Pressed roomy unread m n) (rodata : Rodata) (buffer : ℕ)
    (actual : ℤ) (label : ChunkLabel) :
    Pressed roomy (unread + MAX_VECTOR_CHUNKS * ctx.unread)
      (submitChunk rodata ctx buffer actual label m)
      (Bpf.submitChunk rodata (ctx.withRing ring) buffer actual label n) := by
  have hone : unread + ctx.unread ≤ unread + MAX_VECTOR_CHUNKS * ctx.unread := by
    rw [MAX_VECTOR_CHUNKS]
    omega
  exact (h.submitChunkLimited ring hroomy 0 buffer actual label rodata.captureBytes).mono hone

private theorem finishPending (h : Pressed roomy unread m n) (rodata : Rodata)
    (pending : PendingRead) (ret : ℤ) :
    Pressed roomy (unread + MAX_VECTOR_CHUNKS * ctx.unread)
      (finishPending rodata ctx pending ret m)
      (Bpf.finishPending rodata (ctx.withRing ring) pending ret n) := by
  simp only [Bpf.finishPending]
  cases pending.isNetwork with
  | false =>
    split <;> exact h.mono (Nat.le_add_right _ _)
  | true =>
    by_cases hvector : pending.vectorKind ≠ 0
    · simp only [if_pos hvector]
      exact h.submitVectorChunks ring hroomy rodata _ _ _ _ _
    · simp only [if_neg hvector]
      exact h.submitChunk ring hroomy rodata _ _ _

private theorem submitConnection (h : Pressed roomy unread m n) (place : ℕ) (sk : Sock)
    (operation durationNs : ℕ) :
    Pressed roomy unread (submitConnection ctx place sk operation durationNs m)
      (Bpf.submitConnection (ctx.withRing ring) place sk operation durationNs n) := by
  have htracked : n.trackedSockets = m.trackedSockets := by
    rw [h.maps]
    rfl
  unfold Bpf.submitConnection
  rw [htracked]
  by_cases hhandle : sk.handle = 0
  · rw [if_pos hhandle, if_pos hhandle]
    exact h
  rw [if_neg hhandle, if_neg hhandle]
  cases m.trackedSockets.lookup sk.handle with
  | none => exact h
  | some owner => exact h.reserveAndSubmit ring hroomy place (.of_empty rfl rfl)

end Pressed

/-- A step for targets only. -/
private theorem blind_ofTarget (tgid : ℕ) {step : Maps → Maps} (h : Blind step) :
    Blind fun m => if m.isTargetTgid tgid then step m else m := by
  intro m events dropped
  by_cases htarget : m.isTargetTgid tgid = true
  · simp only [if_pos htarget, if_pos (show (m.withRing events dropped).isTargetTgid tgid = true
      from htarget)]
    exact h m events dropped
  · simp only [if_neg htarget, if_neg (show ¬ (m.withRing events dropped).isTargetTgid tgid = true
      from htarget)]

section Blind

variable (ctx : Context)

private theorem blind_handleSysEnter (arch : TargetArch) (id : ℤ) (args0 args1 args2 : ℕ) :
    Blind (handleSysEnter arch ctx id args0 args1 args2) := by
  refine blind_ofTarget ctx.thread.tgid fun m events dropped => ?_
  dsimp only [Maps.withRing]
  by_cases htls : (m.tlsDepth.lookup ctx.thread).isSome = true
  · simp only [if_pos htls]
  · simp only [if_neg htls]
    cases arch.syscall id with
    | none => rfl
    | some call => cases call <;> rfl

private theorem blind_sslEnter (args : SslArguments) (direction : ℕ) (isEx : Bool) :
    Blind (sslEnter ctx args direction isEx) :=
  blind_ofTarget ctx.thread.tgid fun _ _ _ => rfl

private theorem blind_enterWait (w : Wait) : Blind (w.handleEnter ctx) := by
  refine blind_ofTarget ctx.thread.tgid fun _ _ _ => ?_
  cases w <;> rfl

private theorem blind_markDnsSocket (sk : Sock) : Blind (markDnsSocket ctx sk) :=
  blind_ofTarget ctx.thread.tgid fun _ _ _ => rfl

private theorem blind_trackSocket (sk : Sock) : Blind (trackSocket ctx sk) :=
  blind_ofTarget ctx.thread.tgid fun _ _ _ => rfl

end Blind

namespace Pressed

variable {roomy : Prop} {unread : ℕ} {m n : Maps} {ctx : Context} (ring : ctx.Roomier)
  (hroomy : roomy → ∀ place, ring.ringHasRoom place = true)

/-- The same choice with and without pressure. -/
private theorem ite {m' n' : Maps} {c : Prop} [Decidable c]
    (hthen : c → Pressed roomy unread m n) (helse : ¬ c → Pressed roomy unread m' n') :
    Pressed roomy unread (if c then m else m') (if c then n else n') := by
  split
  · exact hthen ‹c›
  · exact helse ‹¬ c›

/-- The maps without pressure are those under pressure, with another ring buffer. -/
private theorem exists_withRing (h : Pressed roomy unread m n) :
    ∃ events dropped, n = m.withRing events dropped :=
  ⟨_, _, h.maps⟩

include hroomy

private theorem exitWait (h : Pressed roomy unread m n) (w : Wait) (rodata : Rodata) (rc : ℕ) :
    Pressed roomy unread (w.handleExit rodata ctx rc m)
      (w.handleExit rodata (ctx.withRing ring) rc n) := by
  have hdelete := h.blind (fun m => w.store ((w.starts m).delete ctx.thread) m)
    fun _ _ _ => by cases w <;> rfl
  have hevent (started : ℕ) : SameCapture (w.event ctx started rc)
      (w.event (ctx.withRing ring) started rc) := by
    cases w <;> exact .of_empty rfl rfl
  obtain ⟨events, dropped, rfl⟩ := h.exists_withRing
  unfold Wait.handleExit
  rw [show (w.starts (m.withRing events dropped)).lookup (ctx.withRing ring).thread =
    (w.starts m).lookup ctx.thread by cases w <;> rfl]
  cases (w.starts m).lookup ctx.thread with
  | none => exact h
  | some started =>
    exact .ite (fun _ => hdelete) fun _ => hdelete.reserveAndSubmit ring hroomy 0 (hevent started)

private theorem exitTimed (h : Pressed roomy unread m n) (arch : TargetArch) (id ret : ℤ) :
    Pressed roomy unread (exitTimed arch ctx id ret m)
      (Bpf.exitTimed arch (ctx.withRing ring) id ret n) := by
  have hdelete := h.blind
    (fun m => { m with syscallStarts := m.syscallStarts.delete ctx.thread }) fun _ _ _ => rfl
  obtain ⟨events, dropped, rfl⟩ := h.exists_withRing
  unfold Bpf.exitTimed
  rw [show (m.withRing events dropped).syscallStarts.lookup (ctx.withRing ring).thread =
    m.syscallStarts.lookup ctx.thread from rfl]
  cases m.syscallStarts.lookup ctx.thread with
  | none => exact h
  | some start =>
    exact .ite (fun _ => hdelete.reserveAndSubmit ring hroomy _ (.of_empty rfl rfl)) fun _ => h

private theorem exitPending (h : Pressed roomy unread m n) (arch : TargetArch) (rodata : Rodata)
    (id ret : ℤ) :
    Pressed roomy (unread + MAX_VECTOR_CHUNKS * ctx.unread)
      (exitPending arch rodata ctx id ret m)
      (Bpf.exitPending arch rodata (ctx.withRing ring) id ret n) := by
  have hdelete := h.blind (fun m => { m with pendingReads := m.pendingReads.delete ctx.thread })
    fun _ _ _ => rfl
  have hmore := h.mono (Nat.le_add_right unread (MAX_VECTOR_CHUNKS * ctx.unread))
  obtain ⟨events, dropped, rfl⟩ := h.exists_withRing
  unfold Bpf.exitPending
  rw [show (m.withRing events dropped).pendingReads.lookup (ctx.withRing ring).thread =
    m.pendingReads.lookup ctx.thread from rfl]
  cases m.pendingReads.lookup ctx.thread with
  | none => exact hmore
  | some pending =>
    exact .ite (fun _ => hdelete.finishPending ring hroomy rodata pending ret) fun _ => hmore

private theorem handleSysExit (h : Pressed roomy unread m n) (arch : TargetArch)
    (rodata : Rodata) (id ret : ℤ) :
    Pressed roomy (unread + MAX_VECTOR_CHUNKS * ctx.unread)
      (handleSysExit arch rodata ctx id ret m)
      (Bpf.handleSysExit arch rodata (ctx.withRing ring) id ret n) := by
  have hexit := (h.exitPending ring hroomy arch rodata id ret).exitTimed ring hroomy arch id ret
  have hmore := h.mono (Nat.le_add_right unread (MAX_VECTOR_CHUNKS * ctx.unread))
  obtain ⟨events, dropped, rfl⟩ := h.exists_withRing
  exact .ite (fun _ => hmore) fun _ => .ite (fun _ => hmore) fun _ => hexit

private theorem sslExit (h : Pressed roomy unread m n) (rodata : Rodata) (direction rc : ℕ) :
    Pressed roomy (unread + MAX_VECTOR_CHUNKS * ctx.unread) (sslExit rodata ctx direction rc m)
      (Bpf.sslExit rodata (ctx.withRing ring) direction rc n) := by
  have hleft := h.blind (fun m => { m with tlsDepth := m.tlsDepth.delete ctx.thread })
    fun _ _ _ => rfl
  have hdelete := hleft.blind
    (fun m => { m with pendingReads := m.pendingReads.delete ctx.thread }) fun _ _ _ => rfl
  obtain ⟨events, dropped, rfl⟩ := h.exists_withRing
  unfold Bpf.sslExit
  rw [show (m.withRing events dropped).pendingReads.lookup (ctx.withRing ring).thread =
    m.pendingReads.lookup ctx.thread from rfl]
  cases m.pendingReads.lookup ctx.thread with
  | none => exact hleft.mono (Nat.le_add_right _ _)
  | some pending => exact hdelete.submitChunk ring hroomy _ _ _ _

private theorem handleTcpConnect (h : Pressed roomy unread m n) (sk : Sock) :
    Pressed roomy unread (handleTcpConnect ctx sk m)
      (Bpf.handleTcpConnect (ctx.withRing ring) sk n) := by
  have hstart := (h.blind _ (blind_trackSocket ctx sk)).blind
    (fun m => { m with handshakeStarts := m.handshakeStarts.update sk.handle ctx.now })
    fun _ _ _ => rfl
  obtain ⟨events, dropped, rfl⟩ := h.exists_withRing
  exact .ite (fun _ => hstart.submitConnection ring hroomy 0 sk _ _) fun _ => h

private theorem establishedState (h : Pressed roomy unread m n) (sk : Sock) :
    Pressed roomy unread (establishedState ctx sk m)
      (Bpf.establishedState (ctx.withRing ring) sk n) := by
  have hend {m n : Maps} (h : Pressed roomy unread m n) := h.blind
    (fun m => { m with handshakeStarts := m.handshakeStarts.delete sk.handle }) fun _ _ _ => rfl
  have hsubmit := fun durationNs => h.submitConnection ring hroomy 0 sk OP_TCP_HANDSHAKE durationNs
  have hcompleted := fun durationNs => h.blind (fun m =>
    { m with completedHandshakes := m.completedHandshakes.update sk.handle durationNs })
    fun _ _ _ => rfl
  obtain ⟨events, dropped, rfl⟩ := h.exists_withRing
  have hfirst : ∀ durationNs, Pressed roomy unread _ _ := fun durationNs =>
    .ite (c := (m.trackedSockets.lookup sk.handle).isSome = true)
      (fun _ => hsubmit durationNs) fun _ => hcompleted durationNs
  exact .ite (fun _ => hend (hfirst _)) fun _ => hfirst _

private theorem closedState (h : Pressed roomy unread m n) (sk : Sock) :
    Pressed roomy unread (closedState ctx sk m) (Bpf.closedState (ctx.withRing ring) sk n) := by
  obtain ⟨events, dropped, rfl⟩ := h.exists_withRing
  have hreset : Pressed roomy unread _ _ := .ite (c := (m.trackedSockets.lookup sk.handle).isSome ∧
      (m.peerResetsSeen.lookup sk.handle).isSome = false ∧ sk.skErr = ECONNRESET_CODE)
    (fun _ => h.submitConnection ring hroomy 0 sk OP_TCP_RESET_RECEIVED 0) fun _ => h
  have htimeout := fun durationNs => Pressed.ite
    (c := (m.trackedSockets.lookup sk.handle).isSome ∧ sk.skErr = ETIMEDOUT_CODE)
    (fun _ => hreset.submitConnection ring hroomy 1 sk OP_TCP_TIMEOUT durationNs) fun _ => hreset
  exact (htimeout _).blind (fun found => { found with
    peerResetsSeen := found.peerResetsSeen.delete sk.handle
    handshakeStarts :=
      if (m.handshakeStarts.lookup sk.handle).isSome then found.handshakeStarts.delete sk.handle
      else found.handshakeStarts
    completedHandshakes := found.completedHandshakes.delete sk.handle }) fun _ _ _ => rfl

private theorem handleTcpState (h : Pressed roomy unread m n) (rodata : Rodata) (sk : Sock)
    (newstate : ℤ) :
    Pressed roomy unread (handleTcpState rodata ctx sk newstate m)
      (Bpf.handleTcpState rodata (ctx.withRing ring) sk newstate n) := by
  have hestablished := h.establishedState ring hroomy sk
  have hclosed := h.closedState ring hroomy sk
  have hstart := h.blind
    (fun m => { m with handshakeStarts := m.handshakeStarts.update sk.handle ctx.now })
    fun _ _ _ => rfl
  obtain ⟨events, dropped, rfl⟩ := h.exists_withRing
  exact .ite (fun _ => h) fun _ => .ite (fun _ => hstart) fun _ =>
    .ite (fun _ => hestablished) fun _ => .ite (fun _ => hclosed) fun _ => h

private theorem handleTcpAccept (h : Pressed roomy unread m n) (sk : Sock) :
    Pressed roomy unread (handleTcpAccept ctx (some sk) m)
      (Bpf.handleTcpAccept (ctx.withRing ring) (some sk) n) := by
  have htracked := h.blind _ (blind_trackSocket ctx sk)
  have haccept := htracked.submitConnection ring hroomy 0 sk OP_TCP_ACCEPT 0
  have htarget : n.isTargetTgid ctx.thread.tgid = m.isTargetTgid ctx.thread.tgid := by
    rw [h.maps]
    rfl
  have hcompleted : (Bpf.submitConnection (ctx.withRing ring) 0 sk OP_TCP_ACCEPT 0
        (trackSocket ctx sk n)).completedHandshakes =
      (Bpf.submitConnection ctx 0 sk OP_TCP_ACCEPT 0
        (trackSocket ctx sk m)).completedHandshakes := by
    rw [haccept.maps]
    rfl
  simp only [Bpf.handleTcpAccept]
  rw [show n.isTargetTgid (ctx.withRing ring).thread.tgid = m.isTargetTgid ctx.thread.tgid from
      htarget, show trackSocket (ctx.withRing ring) sk n = trackSocket ctx sk n from rfl,
    hcompleted]
  refine .ite (fun _ => ?_) fun _ => h
  cases (Bpf.submitConnection ctx 0 sk OP_TCP_ACCEPT 0
      (trackSocket ctx sk m)).completedHandshakes.lookup sk.handle with
  | none => exact haccept.submitConnection ring hroomy 1 sk _ _
  | some duration =>
    exact (haccept.submitConnection ring hroomy 1 sk OP_TCP_HANDSHAKE duration).blind (fun m =>
      { m with completedHandshakes := m.completedHandshakes.delete sk.handle }) fun _ _ _ => rfl

private theorem handleTcpClose (h : Pressed roomy unread m n) (sk : Sock) :
    Pressed roomy unread (handleTcpClose ctx sk m)
      (Bpf.handleTcpClose (ctx.withRing ring) sk n) := by
  have hswept := h.blind (fun m => { m with
    handshakeStarts := m.handshakeStarts.delete sk.handle
    completedHandshakes := m.completedHandshakes.delete sk.handle }) fun _ _ _ => rfl
  have hclosed := (hswept.submitConnection ring hroomy 0 sk OP_TCP_CLOSE 0).blind (fun m => { m with
    trackedSockets := m.trackedSockets.delete sk.handle
    rttLastEmit := m.rttLastEmit.delete sk.handle
    peerResetsSeen := m.peerResetsSeen.delete sk.handle }) fun _ _ _ => rfl
  obtain ⟨events, dropped, rfl⟩ := h.exists_withRing
  exact .ite (fun _ => hclosed) fun _ => hswept

private theorem handleTcpRtt (h : Pressed roomy unread m n) (rodata : Rodata) (sk : Sock) :
    Pressed roomy unread (handleTcpRtt rodata ctx sk m)
      (Bpf.handleTcpRtt rodata (ctx.withRing ring) sk n) := by
  have hsample := (h.blind
    (fun m => { m with rttLastEmit := m.rttLastEmit.update sk.handle ctx.now })
    fun _ _ _ => rfl).submitConnection ring hroomy 0 sk OP_TCP_RTT (sk.srttUs / 8 * 1000)
  obtain ⟨events, dropped, rfl⟩ := h.exists_withRing
  exact .ite (fun _ => .ite (fun _ => hsample.submitConnection ring hroomy 1 sk _ _)
    fun _ => hsample) fun _ => h

private theorem reported (h : Pressed roomy unread m n) (place : ℕ) (sk : Sock) (operation : ℕ) :
    Pressed roomy unread
      (if (m.trackedSockets.lookup sk.handle).isSome then
        Bpf.submitConnection ctx place sk operation 0 m else m)
      (if (n.trackedSockets.lookup sk.handle).isSome then
        Bpf.submitConnection (ctx.withRing ring) place sk operation 0 n else n) := by
  have hsubmit := h.submitConnection ring hroomy place sk operation 0
  obtain ⟨events, dropped, rfl⟩ := h.exists_withRing
  exact .ite (fun _ => hsubmit) fun _ => h

private theorem handleTcpReset (h : Pressed roomy unread m n) (sk : Sock) :
    Pressed roomy unread (handleTcpReset ctx sk m)
      (Bpf.handleTcpReset (ctx.withRing ring) sk n) := by
  have hseen := (h.submitConnection ring hroomy 0 sk OP_TCP_RESET_RECEIVED 0).blind
    (fun m => { m with peerResetsSeen := m.peerResetsSeen.update sk.handle 1 }) fun _ _ _ => rfl
  obtain ⟨events, dropped, rfl⟩ := h.exists_withRing
  exact .ite (fun _ => hseen) fun _ => h

private theorem handleSchedSwitch (h : Pressed roomy unread m n) (rodata : Rodata)
    (switch : SchedSwitch) :
    Pressed roomy unread (handleSchedSwitch rodata ctx switch m)
      (Bpf.handleSchedSwitch rodata (ctx.withRing ring) switch n) := by
  have hprev : Pressed roomy unread
      (if (m.targetThreads.lookup switch.prevPid).isSome then
        { m with offcpuStarts := m.offcpuStarts.update switch.prevPid ctx.now } else m)
      (if (n.targetThreads.lookup switch.prevPid).isSome then
        { n with offcpuStarts := n.offcpuStarts.update switch.prevPid (ctx.withRing ring).now }
      else n) := by
    have hoff := h.blind
      (fun m => { m with offcpuStarts := m.offcpuStarts.update switch.prevPid ctx.now })
      fun _ _ _ => rfl
    obtain ⟨events, dropped, rfl⟩ := h.exists_withRing
    exact .ite (fun _ => hoff) fun _ => h
  simp only [Bpf.handleSchedSwitch]
  generalize (if (m.targetThreads.lookup switch.prevPid).isSome then
    { m with offcpuStarts := m.offcpuStarts.update switch.prevPid ctx.now } else m) = m'
    at hprev ⊢
  generalize (if (n.targetThreads.lookup switch.prevPid).isSome then
    { n with offcpuStarts := n.offcpuStarts.update switch.prevPid (ctx.withRing ring).now }
    else n) = n' at hprev ⊢
  have hon := hprev.blind
    (fun m => { m with offcpuStarts := m.offcpuStarts.delete switch.nextPid }) fun _ _ _ => rfl
  obtain ⟨events, dropped, rfl⟩ := hprev.exists_withRing
  rw [show (m'.withRing events dropped).offcpuStarts.lookup switch.nextPid =
      m'.offcpuStarts.lookup switch.nextPid from rfl,
    show (m'.withRing events dropped).targetThreads.lookup switch.nextPid =
      m'.targetThreads.lookup switch.nextPid from rfl]
  cases m'.offcpuStarts.lookup switch.nextPid with
  | none => exact hprev
  | some started =>
    cases m'.targetThreads.lookup switch.nextPid with
    | none => exact hprev
    | some tgid =>
      exact .ite (fun _ => hon) fun _ => hon.reserveAndSubmit ring hroomy 0 (.of_empty rfl rfl)

private theorem handleProcessExec (h : Pressed roomy unread m n) :
    Pressed roomy unread (handleProcessExec ctx m)
      (Bpf.handleProcessExec (ctx.withRing ring) n) := by
  have htarget := h.blind (fun m => { m with
    targetTgids := m.targetTgids.update ctx.thread.tgid 1
    targetThreads := m.targetThreads.update ctx.thread.pid ctx.thread.tgid }) fun _ _ _ => rfl
  obtain ⟨events, dropped, rfl⟩ := h.exists_withRing
  exact .ite (fun _ => htarget.reserveAndSubmit ring hroomy 0 (.of_empty rfl rfl)) fun _ => h

private theorem handleProcessExit (h : Pressed roomy unread m n) :
    Pressed roomy unread (handleProcessExit ctx m)
      (Bpf.handleProcessExit (ctx.withRing ring) n) := by
  have hthread := h.blind
    (fun m => { m with targetThreads := m.targetThreads.delete ctx.thread.pid }) fun _ _ _ => rfl
  have hsame : SameCapture (processEvent ctx OP_PROCESS_EXIT)
    (processEvent (ctx.withRing ring) OP_PROCESS_EXIT) := .of_empty rfl rfl
  have hexit := (hthread.reserveAndSubmit ring hroomy 0 hsame).blind
    (fun m => { m with targetTgids := m.targetTgids.delete ctx.thread.tgid }) fun _ _ _ => rfl
  obtain ⟨events, dropped, rfl⟩ := h.exists_withRing
  exact .ite (fun _ => hthread) fun _ => hexit

private theorem handleCpuSample (h : Pressed roomy unread m n) (userStack kernelStack : ℤ) :
    Pressed roomy unread (handleCpuSample ctx userStack kernelStack m)
      (Bpf.handleCpuSample (ctx.withRing ring) userStack kernelStack n) := by
  have hsame : SameCapture (cpuSampleEvent ctx userStack kernelStack)
    (cpuSampleEvent (ctx.withRing ring) userStack kernelStack) := .of_empty rfl rfl
  have hsample := h.reserveAndSubmit ring hroomy 0 hsame
  obtain ⟨events, dropped, rfl⟩ := h.exists_withRing
  exact .ite (fun _ => hsample) fun _ => h

end Pressed

/-- The ring buffer has room for every record the firing reserves. -/
def Firing.Roomy (f : Firing) : Prop := ∀ place, f.ctx.ringHasRoom place = true

/-- A firing under pressure changes the maps as it does without. -/
theorem Pressed.fire {roomy : Prop} {unread : ℕ} {m n : Maps} (h : Pressed roomy unread m n)
    (setup : Setup) {f f' : Firing} (heased : f.Eased f') (hroomy : roomy → f'.Roomy) :
    Pressed roomy (unread + MAX_VECTOR_CHUNKS * f.ctx.unread) (fire setup m f)
      (Bpf.fire setup n f') := by
  obtain ⟨ctx, probe⟩ := f
  obtain ⟨ring, rfl⟩ := heased
  replace hroomy : roomy → ∀ place, ring.ringHasRoom place = true := hroomy
  -- only the ends of calls reserve records for bytes
  have more {m n : Maps} (h : Pressed roomy unread m n) :
      Pressed roomy (unread + MAX_VECTOR_CHUNKS * ctx.unread) m n :=
    h.mono (Nat.le_add_right _ _)
  unfold Bpf.fire
  cases probe with
  | sysEnter id args0 args1 args2 => exact more (h.blind _ (blind_handleSysEnter ctx _ _ _ _ _))
  | sysExit id ret => exact h.handleSysExit ring hroomy _ _ id ret
  | sslEnter call args => exact more (h.blind _ (blind_sslEnter ctx args _ _))
  | sslExit call rc => exact h.sslExit ring hroomy _ _ rc
  | sslSetFd ssl fd =>
    exact more (h.blind (handleSslSetFd ctx ssl fd)
      (blind_ofTarget ctx.thread.tgid fun _ _ _ => rfl))
  | sslFree ssl => exact more (h.blind (handleSslFree ssl) fun _ _ _ => rfl)
  | mutexLockEnter => exact more (h.blind _ (blind_enterWait ctx .lock))
  | mutexLockExit rc => exact more (h.exitWait ring hroomy .lock _ rc)
  | udpSendmsg sk | udpRecvmsg sk | udpv6Sendmsg sk | udpv6Recvmsg sk =>
    exact more (h.blind _ (blind_markDnsSocket ctx sk))
  | tcpSendmsg sk | tcpRecvmsg sk => exact more (h.blind _ (blind_trackSocket ctx sk))
  | tcpConnect sk => exact more (h.handleTcpConnect ring hroomy sk)
  | tcpSetState sk newstate => exact more (h.handleTcpState ring hroomy _ sk newstate)
  | tcpAccept sk =>
    cases sk with
    | none => exact more h
    | some sk => exact more (h.handleTcpAccept ring hroomy sk)
  | tcpClose sk => exact more (h.handleTcpClose ring hroomy sk)
  | tcpRcvEstablished sk => exact more (h.handleTcpRtt ring hroomy _ sk)
  | tcpRetransmitSkb sk => exact more (h.reported ring hroomy 0 sk _)
  | tcpReset sk => exact more (h.handleTcpReset ring hroomy sk)
  | tcpSendActiveReset sk => exact more (h.reported ring hroomy 0 sk _)
  | schedSwitch switch => exact more (h.handleSchedSwitch ring hroomy _ switch)
  | processExec => exact more (h.handleProcessExec ring hroomy)
  | processExit => exact more (h.handleProcessExit ring hroomy)
  | pageFaultEnter => exact more (h.blind _ (blind_enterWait ctx .pageFault))
  | pageFaultExit rc => exact more (h.exitWait ring hroomy .pageFault _ rc)
  | cpuSample userStack kernelStack => exact more (h.handleCpuSample ring hroomy _ _)
  | addTarget tgid => exact more (h.blind (addTarget tgid) fun _ _ _ => rfl)

/-- At most how many records of a run are given up because their bytes cannot be read. -/
noncomputable def unreadOf (fs : List Firing) : ℕ :=
  (fs.map fun f => MAX_VECTOR_CHUNKS * f.ctx.unread).sum

/-- Before a run nothing is written or counted. -/
theorem Pressed.start (roomy : Prop) : Pressed roomy 0 {} {} :=
  ⟨rfl, .nil, ⟨0, Nat.le_refl 0, rfl⟩, fun _ => rfl⟩

/-- A run under pressure changes the maps as it does without. -/
theorem Pressed.after {roomy : Prop} {unread : ℕ} {m n : Maps} (h : Pressed roomy unread m n)
    (setup : Setup) {fs fs' : List Firing} (heased : List.Forall₂ Firing.Eased fs fs')
    (hroomy : roomy → ∀ f' ∈ fs', f'.Roomy) :
    Pressed roomy (unread + unreadOf fs) (after (Bpf.fire setup) m fs)
      (Lib.after (Bpf.fire setup) n fs') := by
  induction heased generalizing unread m n with
  | nil => exact h
  | @cons f f' fs fs' hfirst _ ih =>
    have hstep := h.fire setup hfirst fun hyes => hroomy hyes f' List.mem_cons_self
    have hrest := ih hstep fun hyes g hg => hroomy hyes g (List.mem_cons_of_mem f' hg)
    rwa [Nat.add_assoc] at hrest

end MongoDam.Bpf
