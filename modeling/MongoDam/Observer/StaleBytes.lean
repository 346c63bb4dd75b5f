import MongoDam.Bpf.Pressure
import MongoDam.Observer.Runs

/-!
# What the ring buffer held before

The kernel does not clear a record of the ring buffer before it hands it out, so that behind
the captured bytes of a record stands what an earlier record left there. None of it reaches an
event or the processor's state.
-/

namespace MongoDam.Observer

open Lib Bpf Schema Protocol

/-- The same firing, with other stale bytes in the records reserved for it. -/
def SameButStale (f f' : Firing) : Prop :=
  ∃ residue, f' = { f with ctx := { f.ctx with residue := residue } }

theorem SameButStale.symm {f f' : Firing} (h : SameButStale f f') : SameButStale f' f := by
  obtain ⟨residue, rfl⟩ := h
  exact ⟨f.ctx.residue, rfl⟩

theorem SameButStale.eased {f f' : Firing} (h : SameButStale f f') : f.Eased f' := by
  obtain ⟨residue, rfl⟩ := h
  exact ⟨⟨f.ctx.ringHasRoom, residue, fun _ hroom => hroom⟩, rfl⟩

/-- Runs that differ in the stale bytes leave the same maps, with as many records that differ
in the stale bytes. -/
theorem events_sameCapture (setup : Setup) {fs fs' : List Firing}
    (h : List.Forall₂ SameButStale fs fs') :
    List.Forall₂ SameCapture (ran setup fs).events (ran setup fs').events := by
  have pressed {fs fs' : List Firing} (h : List.Forall₂ SameButStale fs fs') :
      List.SublistForall₂ SameCapture (ran setup fs).events (ran setup fs').events :=
    ((Pressed.start False).after setup (h.imp fun _ _ => SameButStale.eased) False.elim).records
  obtain ⟨kept, hkept, hsublist⟩ := List.sublistForall₂_iff.mp (pressed h)
  obtain ⟨back, hback, hbackSublist⟩ :=
    List.sublistForall₂_iff.mp (pressed (h.flip.imp fun _ _ => SameButStale.symm))
  -- Neither run writes more records than the other.
  have hlength : (ran setup fs').events.length ≤ kept.length := by
    rw [hback.length_eq, ← hkept.length_eq]
    exact hbackSublist.length_le
  rw [← hsublist.eq_of_length_le hlength]
  exact hkept

namespace EventProcessor

variable {lib : External} {p : EventProcessor} {event event' : KernelEvent}

/-- The bytes a record's handler reads are its captured ones. -/
private theorem take_capturedLength (h : SameCapture event event') :
    event'.data.take (capturedLength event) = event.data.take (capturedLength event) := by
  rw [capturedLength, Nat.min_comm, ← List.take_take, ← List.take_take, h.captured]

private theorem decodeChunk_congr (h : SameCapture event event') :
    p.decodeChunk lib event' = p.decodeChunk lib event := by
  have hread := take_capturedLength h
  rw [h.fields] at hread ⊢
  unfold decodeChunk
  dsimp only [capturedLength, isTruncated, streamDecoder, streamKey] at hread ⊢
  rw [hread]
  rfl

/-- Handling a message reads no bytes of the record it arrived in. -/
private theorem processMessages_congr (h : SameCapture event event') (truncated : Bool)
    (messages : List (Host × DecodedMessage)) :
    processMessages lib event' truncated p messages =
      processMessages lib event truncated p messages := by
  induction messages generalizing p with
  | nil => rfl
  | cons first rest ih =>
    obtain ⟨host, message⟩ := first
    have hfirst : p.processMessage lib host event' truncated message =
        p.processMessage lib host event truncated message := by
      rw [h.fields]
      rfl
    simp only [processMessages, hfirst, ih]

private theorem processDns_congr (h : SameCapture event event') (host : Host)
    (user kernel : List ℕ) :
    p.processDns lib host ⟨event', user, kernel⟩ = p.processDns lib host ⟨event, user, kernel⟩ := by
  have hread := take_capturedLength h
  rw [h.fields] at hread ⊢
  simp only [processDns]
  rw [show ∀ data hlength, capturedLength { event with data := data, data_length := hlength } =
    capturedLength event from fun _ _ => rfl, hread]
  rfl

/-- A record is handled as one that differs from it in the stale bytes. -/
theorem process_congr (h : SameCapture event event') (hosts : ℕ → Host) (user kernel : List ℕ) :
    p.process lib hosts ⟨event', user, kernel⟩ = p.process lib hosts ⟨event, user, kernel⟩ := by
  have htype : event'.eventType = event.eventType := by rw [h.fields]
  have htruncated : isTruncated event' = isTruncated event := by
    rw [h.fields]
    rfl
  simp only [process, processRecord, processIoChunk, htype, decodeChunk_congr h, htruncated,
    processMessages_congr h, processDns_congr h]
  rw [h.fields]
  rfl

end EventProcessor

/-- Two records that differ in the stale bytes, answered alike. -/
structure SameRecord (record record' : Record) : Prop where
  hosts : record'.1 = record.1
  raw : SameCapture record.2.raw record'.2.raw
  user : record'.2.userStackAddresses = record.2.userStackAddresses
  kernel : record'.2.kernelStackAddresses = record.2.kernelStackAddresses

/-- Runs over records that differ in the stale bytes. -/
theorem run_congr {lib : External} {p : EventProcessor} {records records' : List Record}
    (h : List.Forall₂ SameRecord records records') :
    p.emittedRecords lib records' = p.emittedRecords lib records ∧
      p.afterRecords lib records' = p.afterRecords lib records := by
  induction h generalizing p with
  | nil => exact ⟨rfl, rfl⟩
  | @cons record record' rest rest' hfirst _ ih =>
    have hstep : p.process lib record'.1 record'.2 = p.process lib record.1 record.2 := by
      obtain ⟨hosts', event', user', kernel'⟩ := record'
      obtain ⟨hhosts, hraw, huser, hkernel⟩ := hfirst
      dsimp only at hhosts huser hkernel
      rw [hhosts, huser, hkernel]
      exact EventProcessor.process_congr hraw _ _ _
    constructor
    · rw [EventProcessor.emittedRecords, EventProcessor.emittedRecords, hstep, ih.1]
    · change (p.process lib record'.1 record'.2).1.afterRecords lib rest' =
        (p.process lib record.1 record.2).1.afterRecords lib rest
      rw [hstep, ih.2]

/-- The records the observer reads off the ring buffer: the host answers each in its place, and
its stacks are resolved there. -/
def delivered (answers : ℕ → (ℕ → Host) × List ℕ × List ℕ) :
    (first : ℕ) → List KernelEvent → List Record
  | _, [] => []
  | first, event :: events =>
    ((answers first).1, ⟨event, (answers first).2.1, (answers first).2.2⟩) ::
      delivered answers (first + 1) events

private theorem delivered_sameRecord (answers : ℕ → (ℕ → Host) × List ℕ × List ℕ)
    {events events' : List KernelEvent} (h : List.Forall₂ SameCapture events events')
    (first : ℕ) :
    List.Forall₂ SameRecord (delivered answers first events) (delivered answers first events') := by
  induction h generalizing first with
  | nil => exact .nil
  | cons hevent _ ih => exact .cons ⟨rfl, hevent, rfl, rfl⟩ (ih (first + 1))

/-- What earlier records left in the ring buffer changes neither the events of a run nor the
state the processor reaches. -/
theorem stale_bytes_unread (lib : External) (p : EventProcessor) (setup : Setup)
    (answers : ℕ → (ℕ → Host) × List ℕ × List ℕ) {fs fs' : List Firing}
    (h : List.Forall₂ SameButStale fs fs') :
    p.emittedRecords lib (delivered answers 0 (ran setup fs').events) =
        p.emittedRecords lib (delivered answers 0 (ran setup fs).events) ∧
      p.afterRecords lib (delivered answers 0 (ran setup fs').events) =
        p.afterRecords lib (delivered answers 0 (ran setup fs).events) :=
  run_congr (delivered_sameRecord answers (events_sameCapture setup h) 0)

/-- The same firing, with three stale bytes in the records reserved for it. -/
def Firing.stale (f : Firing) : Firing := { f with ctx := { f.ctx with residue := [1, 2, 3] } }

/-- A connection that is accepted and read from, with and without stale bytes. -/
theorem read_unread :
    let p := EventProcessor.new .sample
    let lib := External.ofDigests []
    let answers := fun _ => (fun _ => Host.silent, [], [])
    let fs := acceptedRun ++ reachingRead 4
    p.emittedRecords lib (delivered answers 0 (ran {} (fs.map Firing.stale)).events) =
        p.emittedRecords lib (delivered answers 0 (ran {} fs).events) ∧
      p.afterRecords lib (delivered answers 0 (ran {} (fs.map Firing.stale)).events) =
        p.afterRecords lib (delivered answers 0 (ran {} fs).events) :=
  stale_bytes_unread _ _ {} _
    (List.forall₂_map_right_iff.mpr (List.forall₂_same.mpr fun _ _ => ⟨[1, 2, 3], rfl⟩))

end MongoDam.Observer
