import MongoDam.Observer.Runtime

/-!
# What the running observer loses

Whatever the order in which the parties of the observer get on, the records are handled in
the order in which the ring buffer hands them over, each of them once, and so are the events
of each; what is lost is counted. The events in the batches are those of the records that
were handled, in their order, but for the last few, which are on their way.
-/

namespace MongoDam.Observer.Runtime

open Lib Schema

/-- What the batcher does is history of the batcher alone. -/
private theorem foldl_batched (history : History) (records : List BatcherRecord) :
    (records.map RuntimeRecord.batched).foldl History.add history =
      { history with batched := history.batched ++ records } := by
  induction records generalizing history with
  | nil => simp
  | cons record rest ih =>
    rw [List.map_cons, List.foldl_cons, ih]
    simp [History.add]

section Taken

variable {lib : External} {serde : Serde} {config : RuntimeConfig}

/-- The processor's task takes no record off the ring buffer. -/
theorem taken_process (r : Runtime) (history : History) (hosts : ℕ → Host) :
    ((r.process lib config hosts).2.foldl History.add history).taken = history.taken := by
  unfold process sendEvent takeRecord
  split
  · split
    · split
      · split <;> rfl
      · rfl
    · split
      · rfl
      · split
        · rfl
        · split <;> rfl
  · rfl

theorem taken_receive (r : Runtime) (history : History) (call : SpoolCall) :
    ((r.receive lib serde config call).2.foldl History.add history).taken = history.taken := by
  unfold receive batcherTurn
  split
  · split
    · rw [foldl_batched]
    · split
      · rfl
      · rw [foldl_batched]
  · rfl

theorem taken_tick (r : Runtime) (history : History) (readings : HealthReadings)
    (call : SpoolCall) :
    ((r.tick lib serde config readings call).2.foldl History.add history).taken =
      history.taken := by
  unfold tick batcherTurn
  split
  · rw [foldl_batched]
  · rfl

end Taken

section Records

variable {lib : External}

theorem afterRecords_concat (p : EventProcessor) (records : List Record) (record : Record) :
    p.afterRecords lib (records ++ [record]) =
      ((p.afterRecords lib records).process lib record.1 record.2).1 := by
  rw [EventProcessor.afterRecords, List.foldl_append]
  rfl

theorem emittedRecords_concat (p : EventProcessor) (records : List Record) (record : Record) :
    p.emittedRecords lib (records ++ [record]) = p.emittedRecords lib records ++
      ((p.afterRecords lib records).process lib record.1 record.2).2.toOption.getD [] := by
  induction records generalizing p with
  | nil => simp [EventProcessor.emittedRecords, EventProcessor.afterRecords]
  | cons first rest ih =>
    have hrest := ih (p.process lib first.1 first.2).1
    rw [List.cons_append, EventProcessor.emittedRecords, hrest, ← List.append_assoc]
    rfl

theorem failures_concat (p : EventProcessor) (records : List Record) (record : Record) :
    failures lib p (records ++ [record]) = failures lib p records +
      if ((p.afterRecords lib records).process lib record.1 record.2).2.toOption.isNone
        then 1 else 0 := by
  induction records generalizing p with
  | nil => simp [failures, EventProcessor.afterRecords]
  | cons first rest ih =>
    have hrest := ih (p.process lib first.1 first.2).1
    rw [List.cons_append, failures, hrest, ← Nat.add_assoc]
    rfl

end Records

/-- A counter of the events so far; it wraps. -/
def Counts (counter : UInt64) (count : ℕ) : Prop := counter = UInt64.ofNat count

theorem Counts.succ {counter : UInt64} {count next : ℕ} (h : Counts counter count)
    (hnext : next = count + 1) : Counts (counter + 1) next := by
  unfold Counts at h ⊢
  rw [h, hnext, UInt64.ofNat_add]
  rfl

section Flow

variable (lib : External) (serde : Serde) (config : RuntimeConfig) (first : Batcher)

/-- Where everything that came in is, and what the counters say. -/
structure Accounted (r : Runtime) (history : History) : Prop where
  /-- The records that were taken were handled in their order, or wait for it. -/
  taken : history.taken = history.processed.map Prod.snd ++ r.kernelEvents.queue
  processor : r.processor = (EventProcessor.new config.processor).afterRecords lib history.processed
  /-- The enabled events of the records that were handled were sent in their order, or wait
  for it. -/
  emitted : ((EventProcessor.new config.processor).emittedRecords lib history.processed).filter
    (enabled config) = history.sent ++ r.sending.toList ++ r.emitting.filter (enabled config)
  /-- The events that were sent were received in their order, or wait for it. -/
  received : history.sent =
    history.batched.filterMap BatcherRecord.received? ++ r.damEvents.queue
  /-- The events that arrived at the batcher are in its batches, or are gathered. -/
  balanced : Batcher.Balanced serde config.batcher first history.batched r.batcher
  within : (Batcher.batching history.batched r.batcher).Within config.batcher.maxEvents
  /-- The batcher makes health reports only when they are enabled. -/
  reported : ∀ event, BatcherRecord.reported event ∈ history.batched →
    config.batcher.emitSensorHealth = true ∧ ∃ details, event.payload = .sensorHealth details
  ringEvents : Counts r.ringEvents
    (history.malformed + history.dropped.length + history.taken.length)
  malformedRingEvents : Counts r.malformedRingEvents history.malformed
  userspaceDroppedEvents : Counts r.userspaceDroppedEvents history.dropped.length
  parseErrors : Counts r.parseErrors
    (failures lib (EventProcessor.new config.processor) history.processed)
  metadataEvents : Counts r.metadataEvents (history.sent ++ r.sending.toList).length
  /-- The processor's task ends behind the ring buffer's thread, with nothing left to do. -/
  processing : r.processing = false → r.ringOpen = false ∧ r.kernelEvents.queue = [] ∧
    r.emitting = [] ∧ r.sending = none
  /-- The batcher ends behind the processor's task, with nothing left to do. -/
  batching : r.batching = false → r.processing = false ∧ r.damEvents.queue = [] ∧
    r.batcher.events = []

variable {lib serde config first} {r : Runtime} {history : History}

namespace Accounted

/-- While the thread of the ring buffer runs, so does the processor's task. -/
private theorem processing_of_ringOpen (h : Accounted lib serde config first r history)
    (hopen : r.ringOpen = true) : r.processing = true := by
  by_contra hended
  have hclosed := (h.processing (Bool.eq_false_iff.mpr hended)).1
  rw [hopen] at hclosed
  cases hclosed

/-- While the processor's task runs, so does the batcher. -/
private theorem batching_of_processing (h : Accounted lib serde config first r history)
    (hprocessing : r.processing = true) : r.batching = true := by
  by_contra hended
  have hclosed := (h.batching (Bool.eq_false_iff.mpr hended)).1
  rw [hprocessing] at hclosed
  cases hclosed

/-! ### The ring buffer's thread -/

private theorem malformed (h : Accounted lib serde config first r history) :
    Accounted lib serde config first
      { r with ringEvents := r.ringEvents + 1, malformedRingEvents := r.malformedRingEvents + 1 }
      { history with malformed := history.malformed + 1 } :=
  { h with
    ringEvents := h.ringEvents.succ (by
      dsimp only
      omega)
    malformedRingEvents := h.malformedRingEvents.succ rfl }

private theorem dropped (h : Accounted lib serde config first r history)
    (captured : CapturedKernelEvent) :
    Accounted lib serde config first
      { r with
        ringEvents := r.ringEvents + 1
        userspaceDroppedEvents := r.userspaceDroppedEvents + 1 }
      { history with dropped := history.dropped ++ [captured] } :=
  { h with
    ringEvents := h.ringEvents.succ (by
      dsimp only
      rw [List.length_append, List.length_singleton]
      omega)
    userspaceDroppedEvents := h.userspaceDroppedEvents.succ List.length_append }

private theorem takes (h : Accounted lib serde config first r history)
    (hprocessing : r.processing = true) {captured : CapturedKernelEvent}
    {kernelEvents : Channel 8192 CapturedKernelEvent}
    (hsent : r.kernelEvents.trySend captured = some kernelEvents) :
    Accounted lib serde config first { r with ringEvents := r.ringEvents + 1, kernelEvents }
      { history with taken := history.taken ++ [captured] } :=
  { h with
    taken := by rw [Channel.queue_of_trySend hsent, ← List.append_assoc, ← h.taken]
    ringEvents := h.ringEvents.succ (by
      dsimp only
      rw [List.length_append, List.length_singleton]
      omega)
    processing := fun hended => by simp [hprocessing] at hended }

/-- The callback takes a record, or counts it. -/
private theorem ringCallback (h : Accounted lib serde config first r history)
    (hopen : r.ringOpen = true) (bytes : Bytes) (stackTraces : ℤ → Option Bytes) :
    Accounted lib serde config first (r.ringCallback bytes stackTraces).1
      ((r.ringCallback bytes stackTraces).2.foldl History.add history) := by
  have hprocessing := h.processing_of_ringOpen hopen
  unfold Runtime.ringCallback
  cases KernelEvent.fromRingBytes bytes with
  | none => exact h.malformed
  | some raw =>
    dsimp only [offer]
    rw [if_pos hprocessing]
    cases hsent : r.kernelEvents.trySend (captureStacks stackTraces raw) with
    | none => exact h.dropped (captureStacks stackTraces raw)
    | some kernelEvents => exact h.takes hprocessing hsent

private theorem ringEnds (h : Accounted lib serde config first r history) :
    Accounted lib serde config first { r with ringOpen := false } history :=
  { h with processing := fun hended => ⟨rfl, (h.processing hended).2⟩ }

/-! ### The processor's task -/

/-- A record is handled; its events are looked at next. -/
private theorem handles (h : Accounted lib serde config first r history)
    (hprocessing : r.processing = true) (hsending : r.sending = none) (hemitting : r.emitting = [])
    {captured : CapturedKernelEvent} {kernelEvents : Channel 8192 CapturedKernelEvent}
    (hreceived : r.kernelEvents.recv = some (captured, kernelEvents)) (hosts : ℕ → Host)
    {processor : EventProcessor} {events : List DamEvent}
    (hprocess : r.processor.process lib hosts captured = (processor, .ok events)) :
    Accounted lib serde config first { r with kernelEvents, processor, emitting := events }
      { history with processed := history.processed ++ [(hosts, captured)] } := by
  have hhandled := h.processor
  have hemitted := h.emitted
  rw [hhandled] at hprocess
  rw [hsending, hemitting] at hemitted
  exact
    { h with
      taken := by
        rw [List.map_append, List.append_assoc, h.taken, Channel.queue_of_recv hreceived]
        rfl
      processor := by rw [afterRecords_concat, hprocess]
      emitted := by
        rw [emittedRecords_concat, hprocess, List.filter_append, hemitted, hsending]
        simp [Except.toOption]
      parseErrors := by
        have hcounts := h.parseErrors
        rw [failures_concat, hprocess]
        exact hcounts
      processing := fun hended => by simp [hprocessing] at hended }

/-- A record that cannot be handled is counted. -/
private theorem fails (h : Accounted lib serde config first r history)
    (hprocessing : r.processing = true) {captured : CapturedKernelEvent}
    {kernelEvents : Channel 8192 CapturedKernelEvent}
    (hreceived : r.kernelEvents.recv = some (captured, kernelEvents)) (hosts : ℕ → Host)
    {processor : EventProcessor} {error : String}
    (hprocess : r.processor.process lib hosts captured = (processor, .error error)) :
    Accounted lib serde config first
      { r with kernelEvents, processor, parseErrors := r.parseErrors + 1 }
      { history with processed := history.processed ++ [(hosts, captured)] } := by
  have hhandled := h.processor
  rw [hhandled] at hprocess
  exact
    { h with
      taken := by
        rw [List.map_append, List.append_assoc, h.taken, Channel.queue_of_recv hreceived]
        rfl
      processor := by rw [afterRecords_concat, hprocess]
      emitted := by
        rw [emittedRecords_concat, hprocess, h.emitted.symm]
        simp [Except.toOption]
      parseErrors := h.parseErrors.succ (by
        rw [failures_concat, hprocess]
        rfl)
      processing := fun hended => by simp [hprocessing] at hended }

/-- The task ends once the ring buffer's thread has, with no record left. -/
private theorem processorEnds (h : Accounted lib serde config first r history)
    (hclosed : r.ringOpen = false) (hreceived : r.kernelEvents.recv = none)
    (hemitting : r.emitting = []) (hsending : r.sending = none) :
    Accounted lib serde config first { r with processing := false } history :=
  { h with
    processing := fun _ => ⟨hclosed, Channel.queue_of_recv_none hreceived, hemitting, hsending⟩
    batching := fun hended => ⟨rfl, (h.batching hended).2⟩ }

/-- An enabled event waits for room. -/
private theorem looks (h : Accounted lib serde config first r history)
    (hprocessing : r.processing = true) (hsending : r.sending = none) {event : DamEvent}
    {rest : List DamEvent} (hemitting : r.emitting = event :: rest)
    (henabled : enabled config event = true) :
    Accounted lib serde config first
      { r with
        emitting := rest
        sending := some event
        metadataEvents := r.metadataEvents + 1 } history := by
  have hemitted := h.emitted
  have hcounts := h.metadataEvents
  rw [hsending, hemitting] at hemitted
  rw [hsending] at hcounts
  exact
    { h with
      emitted := by
        rw [hemitted, List.filter_cons_of_pos henabled]
        simp
      metadataEvents := hcounts.succ (by simp)
      processing := fun hended => by simp [hprocessing] at hended }

/-- An event that is not enabled goes no further. -/
private theorem skips (h : Accounted lib serde config first r history)
    (hprocessing : r.processing = true) {event : DamEvent} {rest : List DamEvent}
    (hemitting : r.emitting = event :: rest) (hdisabled : ¬ enabled config event = true) :
    Accounted lib serde config first { r with emitting := rest } history := by
  have hemitted := h.emitted
  rw [hemitting, List.filter_cons_of_neg hdisabled] at hemitted
  exact
    { h with
      emitted := hemitted
      processing := fun hended => by simp [hprocessing] at hended }

/-- An event is sent once there is room. -/
private theorem sends (h : Accounted lib serde config first r history)
    (hprocessing : r.processing = true) {event : DamEvent} (hsending : r.sending = some event)
    {damEvents : Channel 4096 DamEvent} (hsent : r.damEvents.trySend event = some damEvents) :
    Accounted lib serde config first { r with damEvents, sending := none }
      { history with sent := history.sent ++ [event] } := by
  have hemitted := h.emitted
  have hcounts := h.metadataEvents
  rw [hsending] at hemitted hcounts
  exact
    { h with
      emitted := by
        rw [hemitted]
        simp
      received := by
        rw [Channel.queue_of_trySend hsent, ← List.append_assoc, ← h.received]
      metadataEvents := by
        simpa using hcounts
      processing := fun hended => by simp [hprocessing] at hended
      batching := fun hended => by
        simp [h.batching_of_processing hprocessing] at hended }

private theorem process (h : Accounted lib serde config first r history) (hosts : ℕ → Host) :
    Accounted lib serde config first (r.process lib config hosts).1
      ((r.process lib config hosts).2.foldl History.add history) := by
  unfold Runtime.process
  by_cases hprocessing : r.processing = true
  swap
  · rw [if_neg hprocessing]
    exact h
  rw [if_pos hprocessing]
  cases hsending : r.sending with
  | some event =>
    dsimp only [sendEvent]
    rw [if_pos (h.batching_of_processing hprocessing)]
    cases hsent : r.damEvents.trySend event with
    | none => exact h
    | some damEvents => exact h.sends hprocessing hsending hsent
  | none =>
    cases hemitting : r.emitting with
    | cons event rest =>
      dsimp only [nextEvent]
      by_cases henabled : enabled config event = true
      · rw [if_pos henabled]
        exact h.looks hprocessing hsending hemitting henabled
      · rw [if_neg henabled]
        exact h.skips hprocessing hemitting henabled
    | nil =>
      dsimp only [takeRecord]
      cases hreceived : r.kernelEvents.recv with
      | none =>
        by_cases hopen : r.ringOpen = true
        · dsimp only
          rw [if_pos hopen]
          exact h
        · dsimp only
          rw [if_neg hopen]
          exact h.processorEnds (Bool.eq_false_iff.mpr hopen) hreceived hemitting hsending
      | some received =>
        obtain ⟨captured, kernelEvents⟩ := received
        dsimp only
        rcases hprocess : r.processor.process lib hosts captured with ⟨processor, result⟩
        cases result with
        | ok events => exact h.handles hprocessing hsending hemitting hreceived hosts hprocess
        | error error => exact h.fails hprocessing hreceived hosts hprocess

/-! ### The batcher -/

/-- Making a batch reports nothing. -/
private theorem not_reported_flushBatch {b : Batcher} {config : BatcherConfig} {call : SpoolCall}
    (event : DamEvent) : .reported event ∉ (b.flushBatch lib serde config call).2 := by
  by_cases hevents : b.events = []
  · have hkept : b.flushBatch lib serde config call = (b, []) := if_pos hevents
    rw [hkept]
    exact List.not_mem_nil
  · obtain ⟨flushed, hrecords, -⟩ := Batcher.flushBatch_spec call hevents
    rw [hrecords]
    simp

/-- A wakeup reports at most the sensor's health, and only when that is enabled. -/
private theorem reported_wake {b : Batcher} {config : BatcherConfig} {wakeup : Wakeup}
    {event : DamEvent} (hreported : .reported event ∈ (b.wake lib config wakeup).2) :
    config.emitSensorHealth = true ∧ ∃ details, event.payload = .sensorHealth details := by
  cases wakeup with
  | received other => simp [Batcher.wake] at hreported
  | ticked readings =>
    unfold Batcher.wake at hreported
    dsimp only at hreported
    split at hreported
    · next hdue =>
      obtain rfl : event = b.healthReport lib config readings := by simpa using hreported
      exact ⟨hdue.1, _, rfl⟩
    · cases hreported

private theorem reported_turn {b : Batcher} {config : BatcherConfig} {turn : Turn}
    {event : DamEvent} (hreported : .reported event ∈ (b.turn lib serde config turn).2) :
    config.emitSensorHealth = true ∧ ∃ details, event.payload = .sensorHealth details := by
  unfold Batcher.turn at hreported
  dsimp only at hreported
  split at hreported
  · rcases List.mem_append.mp hreported with harrived | hflushed
    · exact reported_wake harrived
    · exact absurd hflushed (not_reported_flushBatch event)
  · exact reported_wake hreported

private theorem turn (h : Accounted lib serde config first r history)
    (hbatching : r.batching = true) (turn : Turn) {damEvents : Channel 4096 DamEvent}
    (hreceived : r.damEvents.queue = turn.wakeup.received?.toList ++ damEvents.queue) :
    Accounted lib serde config first
      ({ r with damEvents }.batcherTurn lib serde config turn).1
      (({ r with damEvents }.batcherTurn lib serde config turn).2.foldl History.add history) := by
  dsimp only [batcherTurn]
  rw [foldl_batched]
  exact
    { h with
      received := by
        rw [List.filterMap_append, Batcher.received_turn, List.append_assoc, ← hreceived,
          h.received]
      balanced := h.balanced.turn turn
      within := Batcher.within_turn h.within turn
      reported := fun event hmem => by
        rcases List.mem_append.mp hmem with hold | hnew
        · exact h.reported event hold
        · exact reported_turn hnew
      batching := fun hended => by simp [hbatching] at hended }

/-- The batcher makes its last batch once the processor's task has ended, with no event left. -/
private theorem batcherEnds (h : Accounted lib serde config first r history)
    (hprocessing : r.processing = false) (hreceived : r.damEvents.recv = none) (call : SpoolCall) :
    Accounted lib serde config first
      { r with
        batcher := (r.batcher.flushBatch lib serde config.batcher call).1
        batching := false }
      { history with
        batched := history.batched ++ (r.batcher.flushBatch lib serde config.batcher call).2 } :=
  { h with
    received := by
      rw [List.filterMap_append, Batcher.received_flushBatch, List.append_nil, h.received]
    balanced := h.balanced.flushBatch call
    within := by
      rw [Batcher.batching_flushBatch]
      exact h.within.flush
    reported := fun event hmem => by
      rcases List.mem_append.mp hmem with hold | hnew
      · exact h.reported event hold
      · exact absurd hnew (not_reported_flushBatch event)
    batching := fun _ => ⟨hprocessing, Channel.queue_of_recv_none hreceived,
      (congrArg Batching.pending (Batcher.batching_flushBatch history.batched call)).trans
        Batching.pending_flush⟩ }

private theorem receive (h : Accounted lib serde config first r history) (call : SpoolCall) :
    Accounted lib serde config first (r.receive lib serde config call).1
      ((r.receive lib serde config call).2.foldl History.add history) := by
  unfold Runtime.receive
  by_cases hbatching : r.batching = true
  swap
  · rw [if_neg hbatching]
    exact h
  rw [if_pos hbatching]
  cases hreceived : r.damEvents.recv with
  | some received =>
    obtain ⟨event, damEvents⟩ := received
    exact h.turn hbatching ⟨.received event, call⟩ (Channel.queue_of_recv hreceived)
  | none =>
    by_cases hprocessing : r.processing = true
    · dsimp only
      rw [if_pos hprocessing]
      exact h
    · dsimp only
      rw [if_neg hprocessing, foldl_batched]
      exact h.batcherEnds (Bool.eq_false_iff.mpr hprocessing) hreceived call

private theorem tick (h : Accounted lib serde config first r history) (readings : HealthReadings)
    (call : SpoolCall) :
    Accounted lib serde config first (r.tick lib serde config readings call).1
      ((r.tick lib serde config readings call).2.foldl History.add history) := by
  unfold Runtime.tick
  by_cases hbatching : r.batching = true
  · rw [if_pos hbatching]
    exact h.turn hbatching _ rfl
  · rw [if_neg hbatching]
    exact h

/-! ### Runs -/

theorem advance (h : Accounted lib serde config first r history) (s : RuntimeStep) :
    Accounted lib serde config first (Runtime.advance lib serde config (r, history) s).1
      (Runtime.advance lib serde config (r, history) s).2 := by
  unfold Runtime.advance Runtime.step
  cases s with
  | ring bytes stackTraces =>
    dsimp only
    by_cases hopen : r.ringOpen = true
    · rw [if_pos hopen]
      exact h.ringCallback hopen bytes stackTraces
    · rw [if_neg hopen]
      exact h
  | ringEnds => exact h.ringEnds
  | process hosts => exact h.process hosts
  | receive call => exact h.receive call
  | tick readings call => exact h.tick readings call

theorem after {run : Runtime × History} (h : Accounted lib serde config first run.1 run.2)
    (steps : List RuntimeStep) :
    Accounted lib serde config first (after (Runtime.advance lib serde config) run steps).1
      (Lib.after (Runtime.advance lib serde config) run steps).2 := by
  induction steps generalizing run with
  | nil => exact h
  | cons s steps ih => exact ih (h.advance s)

end Accounted

variable (lib serde config)

/-- Nothing has happened at the start. -/
theorem accounted_start (lastHealth : ℕ) :
    Accounted lib serde config (start config lastHealth).batcher (start config lastHealth) {} where
  taken := rfl
  processor := rfl
  emitted := rfl
  received := rfl
  balanced := ⟨rfl, rfl, nofun⟩
  within := ⟨nofun, config.batchMaxEvents_pos⟩
  reported _ hmem := absurd hmem List.not_mem_nil
  ringEvents := rfl
  malformedRingEvents := rfl
  userspaceDroppedEvents := rfl
  parseErrors := rfl
  metadataEvents := rfl
  processing := nofun
  batching := nofun

/-- Whatever the order of the steps, the observer keeps what it took in order, hands each thing
on once, and counts what it loses. -/
theorem run_accounted (lastHealth : ℕ) (steps : List RuntimeStep) :
    Accounted lib serde config (start config lastHealth).batcher
      (run lib serde config lastHealth steps).1 (run lib serde config lastHealth steps).2 :=
  (accounted_start lib serde config lastHealth).after steps

/-- Once the batcher has ended, every record that was taken was handled, and the enabled events
of every record are in the batches, in their order, with nothing but health reports between
them. -/
theorem ended_delivered (lastHealth : ℕ) (steps : List RuntimeStep)
    (hended : (run lib serde config lastHealth steps).1.batching = false) :
    let history := (run lib serde config lastHealth steps).2
    history.processed.map Prod.snd = history.taken ∧
      history.batched.filterMap BatcherRecord.received? =
        ((EventProcessor.new config.processor).emittedRecords lib history.processed).filter
          (enabled config) ∧
      ((Batcher.batches history.batched).map (·.batch.events)).flatten =
        Batcher.arrivals history.batched ∧
      ∀ event, BatcherRecord.reported event ∈ history.batched →
        config.batcher.emitSensorHealth = true ∧
          ∃ details, event.payload = .sensorHealth details := by
  have h : Accounted lib serde config (start config lastHealth).batcher
      (run lib serde config lastHealth steps).1 (run lib serde config lastHealth steps).2 :=
    (accounted_start lib serde config lastHealth).after steps
  obtain ⟨hprocessing, hevents, hgathered⟩ := h.batching hended
  obtain ⟨-, hrecords, hemitting, hsending⟩ := h.processing hprocessing
  refine ⟨?_, ?_, ?_, h.reported⟩
  · have htaken := h.taken
    rw [hrecords, List.append_nil] at htaken
    exact htaken.symm
  · have hemitted := h.emitted
    have hreceived := h.received
    rw [hevents, List.append_nil] at hreceived
    rw [hsending, hemitting, hreceived] at hemitted
    simpa using hemitted.symm
  · have hall := h.balanced.all
    rw [Batching.all, Batcher.batching, hgathered, List.append_nil] at hall
    exact hall

/-- An event of a batch is a health report, or one of a record that was handled. -/
theorem mem_batches {lastHealth : ℕ} {steps : List RuntimeStep} {flushed : Flushed}
    (hflushed : flushed ∈ Batcher.batches (run lib serde config lastHealth steps).2.batched)
    {event : DamEvent} (hevent : event ∈ flushed.batch.events) :
    (config.batcher.emitSensorHealth = true ∧ ∃ details, event.payload = .sensorHealth details) ∨
      event ∈ (EventProcessor.new config.processor).emittedRecords lib
        (run lib serde config lastHealth steps).2.processed ∧ enabled config event = true := by
  have h : Accounted lib serde config (start config lastHealth).batcher
      (run lib serde config lastHealth steps).1 (run lib serde config lastHealth steps).2 :=
    (accounted_start lib serde config lastHealth).after steps
  have harrived : event ∈ Batcher.arrivals (run lib serde config lastHealth steps).2.batched := by
    rw [← h.balanced.all]
    exact List.mem_append_left _ (List.mem_flatten_of_mem (List.mem_map_of_mem hflushed) hevent)
  obtain ⟨record, hrecord, harrival⟩ := List.mem_filterMap.mp harrived
  cases record with
  | received other =>
    cases harrival
    have hsent : event ∈ (run lib serde config lastHealth steps).2.sent := by
      rw [h.received]
      exact List.mem_append_left _ (List.mem_filterMap.mpr ⟨_, hrecord, rfl⟩)
    have hemitted : event ∈ ((EventProcessor.new config.processor).emittedRecords lib
        (run lib serde config lastHealth steps).2.processed).filter (enabled config) := by
      rw [h.emitted]
      exact List.mem_append_left _ (List.mem_append_left _ hsent)
    exact .inr (List.mem_filter.mp hemitted)
  | reported other =>
    cases harrival
    exact .inl (h.reported event hrecord)
  | flushed other => cases harrival

end Flow

/-! ### What leaves the observer -/

private theorem ofCli_eq_ok {order : VisitOrder String} {cli : Cli}
    {rawTypes rawCommands : String} {salt : Option String} {config : RuntimeConfig}
    (hcli : RuntimeConfig.ofCli order cli rawTypes rawCommands salt = .ok config) :
    parseEnabledEventTypes order rawTypes = .ok config.enabledEventTypes ∧
      parseEnabledMongodbCommands rawCommands = .ok config.enabledMongodbCommands := by
  unfold RuntimeConfig.ofCli at hcli
  cases hvalid : cli.validateCli with
  | error error => simp [hvalid, bind, Except.bind] at hcli
  | ok value =>
    cases htypes : parseEnabledEventTypes order rawTypes with
    | error error => simp [hvalid, htypes, bind, Except.bind] at hcli
    | ok types =>
      cases hcommands : parseEnabledMongodbCommands rawCommands with
      | error error => simp [hvalid, htypes, hcommands, bind, Except.bind] at hcli
      | ok commands =>
        simp only [hvalid, htypes, hcommands, bind, Except.bind] at hcli
        split at hcli
        · cases hcli
          exact ⟨rfl, rfl⟩
        · cases hcli

/-- No event leaves the observer in a batch unless the options it was started with select it,
whichever party it came from. -/
theorem batches_selected {order : VisitOrder String} {cli : Cli} {rawTypes rawCommands : String}
    {salt : Option String} {config : RuntimeConfig}
    (hcli : RuntimeConfig.ofCli order cli rawTypes rawCommands salt = .ok config)
    (lib : External) (serde : Serde) (lastHealth : ℕ) (steps : List RuntimeStep) :
    ∀ flushed ∈ Batcher.batches (run lib serde config lastHealth steps).2.batched,
      ∀ event ∈ flushed.batch.events, Selected rawTypes rawCommands event.payload := by
  intro flushed hflushed event hevent
  obtain ⟨htypes, hcommands⟩ := ofCli_eq_ok hcli
  rcases mem_batches lib serde config hflushed hevent with
    ⟨hhealth, details, hpayload⟩ | ⟨-, henabled⟩
  · rw [hpayload]
    have hnone : ∀ activity, EventPayload.sensorHealth details ≠ .mongodbActivity activity := by
      intro activity heq
      cases heq
    exact ⟨(eventTypeIsEnabled_iff htypes _).mp hhealth, fun _ heq => absurd heq (hnone _)⟩
  · exact (eventIsEnabled_iff htypes hcommands _).mp henabled

/-- A command line with the options that are required. -/
def sampleCli : Cli where
  customerId := "c"
  tenantId := "t"
  sourceId := "s"
  regionalCellId := "r"
  clusterName := "k"
  nodeName := "n"
  sensorId := none
  outpostUrl := "u"
  batchMaxEvents := 200
  captureQueryContent := false
  maxMessageBytes := 48000000
  cpuProfileHz := 49
  mongodbPort := 27017

/-- An observer of two commands. -/
def sampleConfig : RuntimeConfig where
  processor := sampleCli.processorConfig none
  assignment := sampleCli.assignment
  batchMaxEvents := 200
  enabledEventTypes := some ["mongodb_activity"]
  enabledMongodbCommands := some ["find", "insert"]
  batchMaxEvents_pos := by decide

/-- A spool that takes everything. -/
def sampleCall : SpoolCall := ⟨0, fun _ => .ok ""⟩

/-- A captured insert from the ring buffer. -/
def insertRing : RuntimeStep :=
  .ring ((KernelEvent.ofChunk 1 7 8 0 (nestedInsert 0)).ringBytes 0) fun _ => none

/-- A record is handled, its event is passed on, and the timer fires. -/
def samplePass : List RuntimeStep :=
  [.process fun _ => .silent, .process fun _ => .silent, .process fun _ => .silent,
    .receive sampleCall, .tick ⟨0, 0, 0, 0, ⟨true, 0, 0, 0, 0⟩⟩ sampleCall]

/-- The text code of one batch with all the events of a run. -/
def serdeOfRun (config : RuntimeConfig) (steps : List RuntimeStep) : Serde :=
  serdeOf (batchOf (.ofDigests []) config.assignment 0
    (run (.ofDigests []) (.ofDocument .null 0) config 0 steps).2.sent)

private theorem insert_batched :
    ∃ flushed ∈ Batcher.batches (run (.ofDigests [])
        (serdeOfRun sampleConfig (insertRing :: samplePass)) sampleConfig 0
        (insertRing :: samplePass)).2.batched,
      flushed.batch.events ≠ [] ∧ flushed.passed.isSome := by
  decide +kernel

/-- The event of the insert is one that the command line selects, and its batch is passed on. -/
theorem sample_selected :
    ∃ flushed ∈ Batcher.batches (run (.ofDigests [])
        (serdeOfRun sampleConfig (insertRing :: samplePass)) sampleConfig 0
        (insertRing :: samplePass)).2.batched,
      flushed.passed.isSome ∧
        ∃ event ∈ flushed.batch.events,
          Selected " mongodb_activity" "find, INSERT" event.payload := by
  obtain ⟨flushed, hflushed, hevents, hpassed⟩ := insert_batched
  have hselected := @batches_selected ⟨id, fun keys => .refl keys⟩ sampleCli " mongodb_activity"
    "find, INSERT" none sampleConfig (by rfl) _ _ 0 _ flushed hflushed
  exact ⟨flushed, hflushed, hpassed, flushed.batch.events.head hevents, List.head_mem hevents,
    hselected _ (List.head_mem hevents)⟩

end MongoDam.Observer.Runtime
