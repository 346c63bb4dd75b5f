import MongoDam.Lib.Batching
import MongoDam.Lib.Trace
import MongoDam.Observer.Batch
import MongoDam.Spool.DurableSpool

/-!
# The batcher

`run_batcher` gathers received events and its own health reports, and passes them on in
batches: when as many as allowed are gathered, when its timer fires, and when the channel
is closed. A batch that cannot be written or that the spool refuses is counted as
dropped. Nothing else happens to an event: along a run it is either still gathered, or in
the one batch it was placed in.
-/

namespace MongoDam.Observer

open Lib Schema Spool

/-- What the batcher is started with. The command line admits no empty batches. -/
structure BatcherConfig where
  assignment : Assignment
  maxEvents : ℕ
  emitSensorHealth : Bool
  maxEvents_pos : 0 < maxEvents

/-- What a tick reads: the instants at which the time since the last report is taken and at
which it is restarted, and the contents of a report. -/
structure HealthReadings where
  elapsedAt : ℕ
  restartedAt : ℕ
  now : ℤ
  spoolBytes : ℕ
  metrics : RuntimeMetrics

/-- What ends a wait of the loop, other than the closure of the channel. -/
inductive Wakeup where
  | received (event : DamEvent)
  | ticked (readings : HealthReadings)

def Wakeup.timerFired : Wakeup → Bool
  | received _ => false
  | ticked _ => true

def Wakeup.received? : Wakeup → Option DamEvent
  | received event => some event
  | ticked _ => none

/-- The time at which a batch is made, and how the spool answers it. -/
structure SpoolCall where
  createdAt : ℤ
  enqueue : Bytes → Except SpoolError String

/-- A turn of the loop. -/
structure Turn where
  wakeup : Wakeup
  call : SpoolCall

/-- A batch, and what was passed to the spool with its answer. -/
structure Flushed where
  batch : DamBatch
  passed : Option (Bytes × Except SpoolError String)

/-- The spool took the batch. -/
def Flushed.stored (flushed : Flushed) : Bool :=
  match flushed.passed with
  | some (_, .ok _) => true
  | _ => false

/-- What happens along a run: an event is received, the sensor reports, or a batch is made. -/
inductive BatcherRecord where
  | received (event : DamEvent)
  | reported (event : DamEvent)
  | flushed (flushed : Flushed)

namespace BatcherRecord

def received? : BatcherRecord → Option DamEvent
  | received event => some event
  | _ => none

/-- The event that arrives. -/
def event? : BatcherRecord → Option DamEvent
  | received event => some event
  | reported event => some event
  | flushed _ => none

def flushed? : BatcherRecord → Option Flushed
  | flushed made => some made
  | _ => none

end BatcherRecord

/-- The events gathered, the instant of the last report, and the counters of the batcher. -/
structure Batcher where
  events : List DamEvent := []
  lastHealth : ℕ
  spoolDroppedEvents : UInt64
  batchesSpooled : UInt64

/-- `Duration::from_secs(60)`, in nanoseconds. -/
def HEALTH_INTERVAL : ℕ := 60 * 10 ^ 9

namespace Batcher

section Run

variable (lib : External) (serde : Serde) (config : BatcherConfig)

/-- Count the gathered events as dropped; the counter wraps. -/
def drop (b : Batcher) : Batcher :=
  { b with
    events := []
    spoolDroppedEvents := b.spoolDroppedEvents + UInt64.ofNat b.events.length }

/-- Count the gathered events as one stored batch. -/
def store (b : Batcher) : Batcher :=
  { b with events := [], batchesSpooled := b.batchesSpooled + 1 }

def flushBatch (call : SpoolCall) (b : Batcher) : Batcher × List BatcherRecord :=
  if b.events = [] then (b, [])
  else
    match Observer.flushBatch lib serde config.assignment call.createdAt b.events with
    -- the batch cannot be written
    | none =>
      (b.drop, [.flushed ⟨batchOf lib config.assignment call.createdAt b.events, none⟩])
    | some (batch, body) =>
      match call.enqueue body with
      | .ok id => (b.store, [.flushed ⟨batch, some (body, .ok id)⟩])
      | .error error => (b.drop, [.flushed ⟨batch, some (body, .error error)⟩])

/-- Gather an event. -/
def push (event : DamEvent) (b : Batcher) : Batcher := { b with events := b.events ++ [event] }

/-- A health report is due. -/
def healthDue (readings : HealthReadings) (b : Batcher) : Prop :=
  config.emitSensorHealth ∧ HEALTH_INTERVAL ≤ readings.elapsedAt - b.lastHealth

instance (readings : HealthReadings) (b : Batcher) : Decidable (b.healthDue config readings) :=
  inferInstanceAs (Decidable (_ ∧ _))

/-- The report that a tick makes. -/
def healthReport (readings : HealthReadings) (b : Batcher) : DamEvent :=
  sensorHealthEvent lib config.assignment readings.now readings.spoolBytes
    { readings.metrics with spoolDroppedEvents := b.spoolDroppedEvents.toNat }

/-- The arms of `select!`. -/
def wake (b : Batcher) : Wakeup → Batcher × List BatcherRecord
  | .received event => (b.push event, [.received event])
  | .ticked readings =>
    if b.healthDue config readings then
      ({ b.push (b.healthReport lib config readings) with lastHealth := readings.restartedAt },
        [.reported (b.healthReport lib config readings)])
    else (b, [])

/-- One turn of the loop. -/
def turn (b : Batcher) (t : Turn) : Batcher × List BatcherRecord :=
  let (woken, arrived) := b.wake lib config t.wakeup
  if config.maxEvents ≤ woken.events.length ∨ (t.wakeup.timerFired ∧ woken.events ≠ []) then
    let (settled, flushed) := woken.flushBatch lib serde config t.call
    (settled, arrived ++ flushed)
  else (woken, arrived)

/-- The state after some turns. -/
def afterTurns (turns : List Turn) (b : Batcher) : Batcher :=
  after (fun b t => (b.turn lib serde config t).1) b turns

/-- What happens in some turns. -/
def records (turns : List Turn) (b : Batcher) : List BatcherRecord :=
  outputs (fun b t => (b.turn lib serde config t).1) (fun b t => (b.turn lib serde config t).2) b
    turns

/-- `run_batcher` up to the closure of the channel, which makes the last batch. -/
def runBatcher (turns : List Turn) (closing : SpoolCall) (b : Batcher) :
    Batcher × List BatcherRecord :=
  let (closed, flushed) := (b.afterTurns lib serde config turns).flushBatch lib serde config closing
  (closed, b.records lib serde config turns ++ flushed)

end Run

/-! ### What a run makes of its events -/

/-- The events that arrived. -/
def arrivals (records : List BatcherRecord) : List DamEvent :=
  records.filterMap BatcherRecord.event?

/-- The batches that were made. -/
def batches (records : List BatcherRecord) : List Flushed :=
  records.filterMap BatcherRecord.flushed?

/-- The number of events in batches that were not stored. -/
def droppedCount (flushed : List Flushed) : ℕ :=
  ((flushed.filter fun flushed => !flushed.stored).map (·.batch.events.length)).sum

/-- The gathered events behind the batches that were made. -/
def batching (records : List BatcherRecord) (b : Batcher) : Batching DamEvent where
  batches := (batches records).map (·.batch.events)
  pending := b.events

variable {lib : External} {serde : Serde} {config : BatcherConfig} {b : Batcher}

/-- The gathered events become one batch, which is passed to the spool when it can be
written, and counted as dropped unless it is stored. -/
theorem flushBatch_spec (call : SpoolCall) (hevents : b.events ≠ []) :
    ∃ flushed, (b.flushBatch lib serde config call).2 = [.flushed flushed] ∧
      flushed.batch.events = b.events ∧
      flushed.passed.map Prod.fst = serde.encode (DamBatch.codec serde) flushed.batch ∧
      (b.flushBatch lib serde config call).1.events = [] ∧
      (b.flushBatch lib serde config call).1.spoolDroppedEvents =
        b.spoolDroppedEvents + UInt64.ofNat (droppedCount [flushed]) := by
  have hwritten : Observer.flushBatch lib serde config.assignment call.createdAt b.events =
      (serde.encode (DamBatch.codec serde)
        (batchOf lib config.assignment call.createdAt b.events)).map fun body =>
          (batchOf lib config.assignment call.createdAt b.events, body) := if_neg hevents
  unfold flushBatch
  rw [if_neg hevents, hwritten]
  cases hencode : serde.encode (DamBatch.codec serde)
      (batchOf lib config.assignment call.createdAt b.events) with
  | none => exact ⟨_, rfl, rfl, hencode.symm, rfl, rfl⟩
  | some body =>
    dsimp only [Option.map_some]
    cases hanswer : call.enqueue body with
    | ok id => exact ⟨_, rfl, rfl, hencode.symm, rfl, (UInt64.add_zero _).symm⟩
    | error error => exact ⟨_, rfl, rfl, hencode.symm, rfl, rfl⟩

theorem batches_append (past records : List BatcherRecord) :
    batches (past ++ records) = batches past ++ batches records := List.filterMap_append

theorem arrivals_append (past records : List BatcherRecord) :
    arrivals (past ++ records) = arrivals past ++ arrivals records := List.filterMap_append

theorem droppedCount_append (first second : List Flushed) :
    droppedCount (first ++ second) = droppedCount first + droppedCount second := by
  simp only [droppedCount, List.filter_append, List.map_append, List.sum_append]

/-- The records account for every event since the start: it was placed in one batch or is
still gathered, and the counter went up by the events of the batches that were not stored. -/
structure Balanced (serde : Serde) (config : BatcherConfig) (start : Batcher)
    (records : List BatcherRecord) (b : Batcher) : Prop where
  all : (batching records b).all = arrivals records
  dropped : b.spoolDroppedEvents =
    start.spoolDroppedEvents + UInt64.ofNat (droppedCount (batches records))
  passed : ∀ flushed ∈ batches records,
    flushed.passed.map Prod.fst = serde.encode (DamBatch.codec serde) flushed.batch

/-- A batch that is made takes the gathered events. -/
theorem batching_flushBatch (records : List BatcherRecord) (call : SpoolCall) :
    batching (records ++ (b.flushBatch lib serde config call).2)
        (b.flushBatch lib serde config call).1 = (batching records b).flush := by
  by_cases hevents : b.events = []
  · have hkept : b.flushBatch lib serde config call = (b, []) := if_pos hevents
    rw [hkept, List.append_nil]
    exact (if_pos hevents).symm
  · obtain ⟨flushed, hrecords, hbatch, -, hempty, -⟩ :=
      flushBatch_spec call hevents
    have htaken : (batching records b).flush = _ := if_neg hevents
    rw [htaken, hrecords]
    unfold batching
    rw [batches_append, List.map_append, hempty]
    exact congrArg (Batching.mk · []) (congrArg _ (congrArg (fun events => [events]) hbatch))

/-- Making a batch keeps the balance. -/
theorem Balanced.flushBatch {start : Batcher} {records : List BatcherRecord}
    (h : Balanced serde config start records b) (call : SpoolCall) :
    Balanced serde config start (records ++ (b.flushBatch lib serde config call).2)
      (b.flushBatch lib serde config call).1 := by
  by_cases hevents : b.events = []
  · have hkept : b.flushBatch lib serde config call = (b, []) := if_pos hevents
    rw [hkept, List.append_nil]
    exact h
  · obtain ⟨flushed, hrecords, -, hpassed, -, hdropped⟩ :=
      flushBatch_spec call hevents
    have harrivals : arrivals (records ++ (b.flushBatch lib serde config call).2) =
        arrivals records := by
      rw [arrivals_append, hrecords]
      exact List.append_nil _
    have hbatches : batches (records ++ (b.flushBatch lib serde config call).2) =
        batches records ++ [flushed] := by
      rw [batches_append, hrecords]
      rfl
    refine ⟨?_, ?_, ?_⟩
    · rw [batching_flushBatch, Batching.all_flush, harrivals]
      exact h.all
    · rw [hdropped, h.dropped, hbatches, droppedCount_append, UInt64.ofNat_add, UInt64.add_assoc]
    · rw [hbatches]
      intro other hmem
      rcases List.mem_append.mp hmem with hold | hnew
      · exact h.passed other hold
      · rw [List.mem_singleton.mp hnew]
        exact hpassed

/-- A wakeup adds one event to the gathered ones, or none. -/
theorem wake_spec (wakeup : Wakeup) :
    b.wake lib config wakeup = (b, []) ∨
      ∃ event lastHealth record, BatcherRecord.event? record = some event ∧
        record.flushed? = none ∧
        b.wake lib config wakeup = ({ b.push event with lastHealth }, [record]) := by
  cases wakeup with
  | received event => exact Or.inr ⟨event, b.lastHealth, .received event, rfl, rfl, rfl⟩
  | ticked readings =>
    by_cases hdue : b.healthDue config readings
    · exact Or.inr ⟨_, _, .reported _, rfl, rfl, if_pos hdue⟩
    · exact Or.inl (if_neg hdue)

/-- A record without a batch leaves the batches as they are. -/
theorem batches_append_of_none {record : BatcherRecord} (h : record.flushed? = none)
    (records : List BatcherRecord) : batches (records ++ [record]) = batches records := by
  have hnone : batches [record] = [] := by
    unfold batches
    rw [List.filterMap_cons_none h, List.filterMap_nil]
  rw [batches_append, hnone, List.append_nil]

theorem batching_push {record : BatcherRecord} (hnone : record.flushed? = none)
    (records : List BatcherRecord) (event : DamEvent) (lastHealth : ℕ) :
    batching (records ++ [record]) { b.push event with lastHealth } =
      (batching records b).push event := by
  unfold batching
  rw [batches_append_of_none hnone]
  rfl

/-- An arrival keeps the balance. -/
theorem Balanced.push {start : Batcher} {records : List BatcherRecord}
    (h : Balanced serde config start records b) {record : BatcherRecord} {event : DamEvent}
    (hevent : record.event? = some event) (hnone : record.flushed? = none) (lastHealth : ℕ) :
    Balanced serde config start (records ++ [record]) { b.push event with lastHealth } := by
  have harrived : arrivals [record] = [event] := by
    unfold arrivals
    rw [List.filterMap_cons_some hevent, List.filterMap_nil]
  refine ⟨?_, ?_, ?_⟩
  · rw [batching_push hnone, Batching.all_push, h.all, arrivals_append, harrived]
  · rw [batches_append_of_none hnone]
    exact h.dropped
  · rw [batches_append_of_none hnone]
    exact h.passed

/-- Behind a wakeup a batch is made when it is full or the timer fired. -/
theorem batching_turn (records : List BatcherRecord) (t : Turn) :
    batching (records ++ (b.turn lib serde config t).2) (b.turn lib serde config t).1 =
      (batching (records ++ (b.wake lib config t.wakeup).2)
        (b.wake lib config t.wakeup).1).settle config.maxEvents
          (t.wakeup.timerFired ∧ (b.wake lib config t.wakeup).1.events ≠ []) := by
  unfold turn
  dsimp only
  split
  · next hfull =>
    rw [← List.append_assoc, batching_flushBatch]
    exact (if_pos hfull).symm
  · next hroom => exact (if_neg hroom).symm

theorem Balanced.turn {start : Batcher} {records : List BatcherRecord}
    (h : Balanced serde config start records b) (t : Turn) :
    Balanced serde config start (records ++ (b.turn lib serde config t).2)
      (b.turn lib serde config t).1 := by
  have hwoken : Balanced serde config start (records ++ (b.wake lib config t.wakeup).2)
      (b.wake lib config t.wakeup).1 := by
    rcases wake_spec t.wakeup with hkept | ⟨event, lastHealth, record, hevent, hnone, hwake⟩
    · rw [hkept, List.append_nil]
      exact h
    · rw [hwake]
      exact h.push hevent hnone lastHealth
  unfold Batcher.turn
  dsimp only
  split
  · rw [← List.append_assoc]
    exact hwoken.flushBatch t.call
  · exact hwoken

/-- Batches stay within the limit. -/
theorem within_turn {records : List BatcherRecord}
    (h : (batching records b).Within config.maxEvents) (t : Turn) :
    (batching (records ++ (b.turn lib serde config t).2)
      (b.turn lib serde config t).1).Within config.maxEvents := by
  rw [batching_turn]
  rcases wake_spec t.wakeup with hkept | ⟨event, lastHealth, record, -, hnone, hwake⟩
  · rw [hkept, List.append_nil]
    exact h.settle _
  · rw [hwake, batching_push hnone]
    exact h.settle_push event _

/-- The balance and the limit hold after any turns. -/
theorem run_balanced (turns : List Turn) (hstart : b.events = []) :
    Balanced serde config b (b.records lib serde config turns)
        (b.afterTurns lib serde config turns) ∧
      (batching (b.records lib serde config turns)
        (b.afterTurns lib serde config turns)).Within config.maxEvents := by
  have hfirst : Balanced serde config b [] b ∧ (batching [] b).Within config.maxEvents := by
    refine ⟨⟨hstart, (UInt64.add_zero _).symm, nofun⟩, ⟨nofun, ?_⟩⟩
    change b.events.length < config.maxEvents
    rw [hstart]
    exact config.maxEvents_pos
  have halong : Along (fun b t => (b.turn lib serde config t).1) (fun _ _ => True) b turns :=
    along_of_forall (fun _ _ => trivial) b turns
  have hstep : ∀ (s : Batcher) (t : Turn) (past : List BatcherRecord), True →
      Balanced serde config b past s ∧ (batching past s).Within config.maxEvents →
      Balanced serde config b (past ++ (s.turn lib serde config t).2)
          (s.turn lib serde config t).1 ∧
        (batching (past ++ (s.turn lib serde config t).2)
          (s.turn lib serde config t).1).Within config.maxEvents :=
    fun _ t _ _ h => ⟨h.1.turn t, within_turn h.2 t⟩
  exact @outputs_invariant _ _ _ _ _ _
    (fun s past => Balanced serde config b past s ∧ (batching past s).Within config.maxEvents)
    hstep _ _ _ halong hfirst

/-- Making a batch receives nothing. -/
theorem received_flushBatch (call : SpoolCall) :
    (b.flushBatch lib serde config call).2.filterMap BatcherRecord.received? = [] := by
  by_cases hevents : b.events = []
  · have hkept : b.flushBatch lib serde config call = (b, []) := if_pos hevents
    rw [hkept]
    rfl
  · obtain ⟨flushed, hrecords, -⟩ := flushBatch_spec call hevents
    rw [hrecords]
    rfl

/-- A turn receives the event it was woken with. -/
theorem received_turn (t : Turn) :
    (b.turn lib serde config t).2.filterMap BatcherRecord.received? =
      t.wakeup.received?.toList := by
  have hwake : (b.wake lib config t.wakeup).2.filterMap BatcherRecord.received? =
      t.wakeup.received?.toList := by
    cases t.wakeup with
    | received event => rfl
    | ticked readings =>
      unfold wake
      dsimp only
      split <;> rfl
  unfold turn
  dsimp only
  split
  · rw [List.filterMap_append, received_flushBatch, List.append_nil, hwake]
  · exact hwake

/-- A run receives the events it was woken with, in their order. -/
theorem received_records (turns : List Turn) :
    (b.records lib serde config turns).filterMap BatcherRecord.received? =
      turns.filterMap (·.wakeup.received?) := by
  induction turns generalizing b with
  | nil => rfl
  | cons t rest ih =>
    have hrest : ((b.turn lib serde config t).1.records lib serde config rest).filterMap _ = _ :=
      ih
    unfold records at hrest ⊢
    rw [outputs, List.filterMap_append, received_turn, hrest]
    cases hwakeup : t.wakeup.received? <;> simp [hwakeup]

theorem received_runBatcher (turns : List Turn) (closing : SpoolCall) :
    (b.runBatcher lib serde config turns closing).2.filterMap BatcherRecord.received? =
      turns.filterMap (·.wakeup.received?) := by
  unfold runBatcher
  dsimp only
  rw [List.filterMap_append, received_records, received_flushBatch, List.append_nil]

/-- After the last batch nothing is gathered. -/
theorem runBatcher_balanced (turns : List Turn) (closing : SpoolCall) (hstart : b.events = []) :
    Balanced serde config b (b.runBatcher lib serde config turns closing).2
        (b.runBatcher lib serde config turns closing).1 ∧
      (batching (b.runBatcher lib serde config turns closing).2
        (b.runBatcher lib serde config turns closing).1).Within config.maxEvents ∧
      (b.runBatcher lib serde config turns closing).1.events = [] := by
  obtain ⟨hbalanced, hwithin⟩ : Balanced serde config b (b.records lib serde config turns)
      (b.afterTurns lib serde config turns) ∧ _ := run_balanced turns hstart
  have hflush : batching (b.runBatcher lib serde config turns closing).2
      (b.runBatcher lib serde config turns closing).1 =
        (batching (b.records lib serde config turns)
          (b.afterTurns lib serde config turns)).flush := batching_flushBatch _ closing
  refine ⟨hbalanced.flushBatch closing, ?_, ?_⟩
  · rw [hflush]
    exact hwithin.flush
  · exact (congrArg Batching.pending hflush).trans Batching.pending_flush

/-- The batcher neither loses nor duplicates events. Every batch is passed to the spool if it
can be written. -/
theorem runBatcher_accounts (lib : External) (serde : Serde) (config : BatcherConfig)
    (turns : List Turn) (closing : SpoolCall) (lastHealth : ℕ)
    (spoolDroppedEvents batchesSpooled : UInt64) :
    let start : Batcher := { lastHealth, spoolDroppedEvents, batchesSpooled }
    let run := start.runBatcher lib serde config turns closing
    run.2.filterMap BatcherRecord.received? = turns.filterMap (·.wakeup.received?) ∧
      ((batches run.2).map (·.batch.events)).flatten = arrivals run.2 ∧
      (∀ flushed ∈ batches run.2, 1 ≤ flushed.batch.events.length ∧
        flushed.batch.events.length ≤ config.maxEvents) ∧
      (∀ flushed ∈ batches run.2,
        flushed.passed.map Prod.fst = serde.encode (DamBatch.codec serde) flushed.batch) ∧
      run.1.spoolDroppedEvents = spoolDroppedEvents + UInt64.ofNat (droppedCount (batches run.2)) ∧
      run.1.events = [] := by
  intro start run
  obtain ⟨hbalanced, hwithin, hempty⟩ : Balanced serde config start run.2 run.1 ∧ _ :=
    runBatcher_balanced turns closing rfl
  refine ⟨received_runBatcher turns closing, ?_, ?_, hbalanced.passed, hbalanced.dropped, hempty⟩
  · have hall := hbalanced.all
    unfold Batching.all at hall
    rw [show (batching run.2 run.1).pending = [] from hempty, List.append_nil] at hall
    exact hall
  · intro flushed hmem
    exact hwithin.batches _ (List.mem_map_of_mem hmem)

/-- A batcher that passes on every event by itself. -/
private def singly : BatcherConfig where
  assignment := .sample
  maxEvents := 1
  emitSensorHealth := false
  maxEvents_pos := by decide

/-- An event observed one second before the year zero, which RFC 3339 cannot express. -/
private def prehistoric : DamEvent :=
  sensorHealthEvent (.ofDigests batchDigests) .sample (-62167219201 * 10 ^ 9) 0
    { bpfReady := true, bpfDroppedEvents := 0, userspaceDroppedEvents := 0
      spoolDroppedEvents := 0, parseErrors := 0 }

/-- A spool that takes everything, at the epoch. -/
private def acceptingCall : SpoolCall where
  createdAt := 0
  enqueue _ := .ok ""

/-- The text code of the batch of the same event, had it been observed at the epoch. -/
private def epochSerde : Serde := serdeOf (epochBatch [{ prehistoric with observedAt := 0 }])

/-- The event observed at the epoch is written and passed on. -/
example :
    (batches (runBatcher (.ofDigests batchDigests) epochSerde singly
      [⟨.received { prehistoric with observedAt := 0 }, acceptingCall⟩] acceptingCall
      ⟨[], 0, 0, 0⟩).2).map (·.passed.isSome) = [true] := by
  decide +kernel

/-- An event that cannot be written is not in any batch that is passed to the spool. -/
theorem prehistoric_not_passed :
    ¬∀ (lib : External) (serde : Serde) (config : BatcherConfig) (turns : List Turn)
      (closing : SpoolCall) (start : Batcher), start.events = [] →
      ∀ event ∈ arrivals (start.runBatcher lib serde config turns closing).2,
        ∃ flushed ∈ batches (start.runBatcher lib serde config turns closing).2,
          event ∈ flushed.batch.events ∧ flushed.passed.isSome := by
  intro h
  have hrun : (arrivals (runBatcher (.ofDigests batchDigests) epochSerde singly
      [⟨.received prehistoric, acceptingCall⟩] acceptingCall ⟨[], 0, 0, 0⟩).2 = [prehistoric]) ∧
      (batches (runBatcher (.ofDigests batchDigests) epochSerde singly
        [⟨.received prehistoric, acceptingCall⟩] acceptingCall ⟨[], 0, 0, 0⟩).2).all
          (·.passed.isNone) := by
    decide +kernel
  obtain ⟨flushed, hmem, -, hpassed⟩ := h (.ofDigests batchDigests) epochSerde singly
    [⟨.received prehistoric, acceptingCall⟩] acceptingCall ⟨[], 0, 0, 0⟩ rfl prehistoric
    (hrun.1 ▸ List.mem_singleton_self _)
  have hnone := List.all_eq_true.mp hrun.2 flushed hmem
  rw [Option.isNone_iff_eq_none.mp hnone] at hpassed
  cases hpassed

end Batcher

end MongoDam.Observer
