import MongoDam.Lib.Channel
import MongoDam.Observer.Batcher
import MongoDam.Observer.Cli
import MongoDam.Observer.Filters
import MongoDam.Observer.Ring

/-!
# The running observer

Three parties work side by side. The thread of the ring buffer offers every record to a
bounded channel and counts those it has no room for; the processor's task takes the records
off the channel one by one, and waits for room in a second channel with each event that is
enabled; the batcher takes the events off that channel. A step is one of the parties getting
on by a bit; when it cannot get on, the step changes nothing.
-/

namespace MongoDam.Observer

open Lib Schema

/-- What the observer is started with. -/
structure RuntimeConfig where
  processor : ProcessorConfig
  assignment : Assignment
  batchMaxEvents : ℕ
  enabledEventTypes : Option (List String)
  enabledMongodbCommands : Option (List String)
  batchMaxEvents_pos : 0 < batchMaxEvents

namespace RuntimeConfig

/-- The batcher makes health reports when they are enabled. -/
def batcher (config : RuntimeConfig) : BatcherConfig where
  assignment := config.assignment
  maxEvents := config.batchMaxEvents
  emitSensorHealth := eventTypeIsEnabled config.enabledEventTypes "sensor_health"
  maxEvents_pos := config.batchMaxEvents_pos

/-- The configuration that the command line asks for, with the two lists of names. -/
def ofCli (order : VisitOrder String) (cli : Cli)
    (enabledEventTypes enabledMongodbCommands : String) (principalHashSalt : Option String) :
    Except String RuntimeConfig := do
  cli.validateCli
  let enabledEventTypes ← parseEnabledEventTypes order enabledEventTypes
  let enabledMongodbCommands ← parseEnabledMongodbCommands enabledMongodbCommands
  if batchMaxEvents_pos : 0 < cli.batchMaxEvents then
    return {
      processor := cli.processorConfig principalHashSalt
      assignment := cli.assignment
      batchMaxEvents := cli.batchMaxEvents
      enabledEventTypes
      enabledMongodbCommands
      batchMaxEvents_pos }
  else throw "batch_max_events must be positive"

end RuntimeConfig

/-- The parties and what is between them. -/
structure Runtime where
  /-- The thread of the ring buffer has a sender of the first channel. -/
  ringOpen : Bool
  kernelEvents : Channel 8192 CapturedKernelEvent
  processor : EventProcessor
  /-- The events of the record at hand that the processor's task has not looked at. -/
  emitting : List DamEvent
  /-- The event the task waits with for room in the second channel. -/
  sending : Option DamEvent
  /-- The processor's task has the receiver of the first channel and the sender of the second. -/
  processing : Bool
  damEvents : Channel 4096 DamEvent
  batcher : Batcher
  /-- The batcher has the receiver of the second channel. -/
  batching : Bool
  ringEvents : UInt64
  malformedRingEvents : UInt64
  userspaceDroppedEvents : UInt64
  parseErrors : UInt64
  metadataEvents : UInt64

/-- What happens along a run. -/
inductive RuntimeRecord where
  /-- The bytes of a record are not those of a structure. -/
  | malformed
  /-- The first channel has no room for a record. -/
  | dropped (captured : CapturedKernelEvent)
  /-- The first channel takes a record. -/
  | taken (captured : CapturedKernelEvent)
  | processed (record : Record)
  /-- The second channel takes an event. -/
  | sent (event : DamEvent)
  | batched (record : BatcherRecord)

/-- What happened so far. -/
structure History where
  malformed : ℕ := 0
  dropped : List CapturedKernelEvent := []
  taken : List CapturedKernelEvent := []
  processed : List Record := []
  sent : List DamEvent := []
  batched : List BatcherRecord := []

def History.add (history : History) : RuntimeRecord → History
  | .malformed => { history with malformed := history.malformed + 1 }
  | .dropped captured => { history with dropped := history.dropped ++ [captured] }
  | .taken captured => { history with taken := history.taken ++ [captured] }
  | .processed record => { history with processed := history.processed ++ [record] }
  | .sent event => { history with sent := history.sent ++ [event] }
  | .batched record => { history with batched := history.batched ++ [record] }

/-- One of the parties gets on, with what it reads from outside. -/
inductive RuntimeStep where
  /-- The ring buffer hands a record to its callback. -/
  | ring (bytes : Bytes) (stackTraces : ℤ → Option Bytes)
  /-- The thread of the ring buffer ends. -/
  | ringEnds
  | process (hosts : ℕ → Host)
  | receive (call : SpoolCall)
  | tick (readings : HealthReadings) (call : SpoolCall)

/-- The addresses of a stack, up to the first that is zero. -/
def readStack (stackTraces : ℤ → Option Bytes) (stackId : ℤ) : List ℕ :=
  if stackId < 0 then []
  else
    match stackTraces stackId with
    | none => []
    | some bytes =>
      ((List.range (bytes.length / 8)).map fun i => KernelEvent.word bytes (8 * i) 8).takeWhile
        (· ≠ 0)

/-- A record with its stacks, which only samples have. -/
def captureStacks (stackTraces : ℤ → Option Bytes) (raw : KernelEvent) : CapturedKernelEvent :=
  if raw.operation = OP_CPU_SAMPLE then
    { raw
      userStackAddresses := readStack stackTraces
        (if -2 ^ 31 ≤ raw.result ∧ raw.result < 2 ^ 31 then raw.result else -1)
      kernelStackAddresses := readStack stackTraces raw.fd }
  else { raw }

namespace Runtime

section Steps

variable (lib : External) (serde : Serde) (config : RuntimeConfig)

/-- The observer before its first record. -/
def start (lastHealth : ℕ) : Runtime where
  ringOpen := true
  kernelEvents := .empty
  processor := .new config.processor
  emitting := []
  sending := none
  processing := true
  damEvents := .empty
  batcher := { lastHealth, spoolDroppedEvents := 0, batchesSpooled := 0 }
  batching := true
  ringEvents := 0
  malformedRingEvents := 0
  userspaceDroppedEvents := 0
  parseErrors := 0
  metadataEvents := 0

/-- An event is passed on. -/
def enabled (event : DamEvent) : Bool :=
  eventIsEnabled config.enabledEventTypes config.enabledMongodbCommands event.payload

/-- Offer a record to the first channel; a closed channel ends the thread. -/
def offer (captured : CapturedKernelEvent) (r : Runtime) : Runtime × List RuntimeRecord :=
  if r.processing then
    match r.kernelEvents.trySend captured with
    | some kernelEvents => ({ r with kernelEvents }, [.taken captured])
    | none =>
      ({ r with userspaceDroppedEvents := r.userspaceDroppedEvents + 1 }, [.dropped captured])
  else ({ r with ringOpen := false }, [])

/-- The callback of the ring buffer. -/
def ringCallback (bytes : Bytes) (stackTraces : ℤ → Option Bytes) (r : Runtime) :
    Runtime × List RuntimeRecord :=
  let r := { r with ringEvents := r.ringEvents + 1 }
  match KernelEvent.fromRingBytes bytes with
  | none => ({ r with malformedRingEvents := r.malformedRingEvents + 1 }, [.malformed])
  | some raw => r.offer (captureStacks stackTraces raw)

/-- Handle the next record; the task ends when the first channel is closed and empty. -/
def takeRecord (hosts : ℕ → Host) (r : Runtime) : Runtime × List RuntimeRecord :=
  match r.kernelEvents.recv with
  | none => (if r.ringOpen then r else { r with processing := false }, [])
  | some (captured, kernelEvents) =>
    match r.processor.process lib hosts captured with
    | (processor, .ok events) =>
      ({ r with kernelEvents, processor, emitting := events }, [.processed (hosts, captured)])
    | (processor, .error _) =>
      ({ r with kernelEvents, processor, parseErrors := r.parseErrors + 1 },
        [.processed (hosts, captured)])

/-- Look at the next event of the record at hand. -/
def nextEvent (event : DamEvent) (rest : List DamEvent) (r : Runtime) : Runtime :=
  if enabled config event then
    { r with emitting := rest, sending := some event, metadataEvents := r.metadataEvents + 1 }
  else { r with emitting := rest }

/-- Send an event when there is room for it; the task ends when the batcher is gone. -/
def sendEvent (event : DamEvent) (r : Runtime) : Runtime × List RuntimeRecord :=
  if r.batching then
    match r.damEvents.trySend event with
    | some damEvents => ({ r with damEvents, sending := none }, [.sent event])
    | none => (r, [])
  else ({ r with processing := false }, [])

/-- The processor's task. -/
def process (hosts : ℕ → Host) (r : Runtime) : Runtime × List RuntimeRecord :=
  if r.processing then
    match r.sending with
    | some event => r.sendEvent event
    | none =>
      match r.emitting with
      | event :: rest => (r.nextEvent config event rest, [])
      | [] => r.takeRecord lib hosts
  else (r, [])

/-- A turn of the batcher. -/
def batcherTurn (turn : Turn) (r : Runtime) : Runtime × List RuntimeRecord :=
  let (batcher, records) := r.batcher.turn lib serde config.batcher turn
  ({ r with batcher }, records.map .batched)

/-- The batcher takes an event; when the second channel is closed and empty it makes its last
batch and ends. -/
def receive (call : SpoolCall) (r : Runtime) : Runtime × List RuntimeRecord :=
  if r.batching then
    match r.damEvents.recv with
    | some (event, damEvents) =>
      { r with damEvents }.batcherTurn lib serde config ⟨.received event, call⟩
    | none =>
      if r.processing then (r, [])
      else
        let (batcher, records) := r.batcher.flushBatch lib serde config.batcher call
        ({ r with batcher, batching := false }, records.map .batched)
  else (r, [])

/-- The timer of the batcher fires. A health report reads the counters. -/
def tick (readings : HealthReadings) (call : SpoolCall) (r : Runtime) :
    Runtime × List RuntimeRecord :=
  if r.batching then
    let metrics := { readings.metrics with
      userspaceDroppedEvents := r.userspaceDroppedEvents.toNat
      parseErrors := r.parseErrors.toNat }
    r.batcherTurn lib serde config ⟨.ticked { readings with metrics }, call⟩
  else (r, [])

def step (r : Runtime) : RuntimeStep → Runtime × List RuntimeRecord
  | .ring bytes stackTraces => if r.ringOpen then r.ringCallback bytes stackTraces else (r, [])
  | .ringEnds => ({ r with ringOpen := false }, [])
  | .process hosts => r.process lib config hosts
  | .receive call => r.receive lib serde config call
  | .tick readings call => r.tick lib serde config readings call

/-- A step, with the history of what happened. -/
def advance (run : Runtime × History) (s : RuntimeStep) : Runtime × History :=
  let (r, records) := run.1.step lib serde config s
  (r, records.foldl History.add run.2)

/-- The observer after some steps, and what happened in them. -/
def run (lastHealth : ℕ) (steps : List RuntimeStep) : Runtime × History :=
  after (advance lib serde config) (start config lastHealth, {}) steps

end Steps

/-- The number of records that could not be handled. -/
def failures (lib : External) : EventProcessor → List Record → ℕ
  | _, [] => 0
  | p, record :: rest =>
    (if (p.process lib record.1 record.2).2.toOption.isNone then 1 else 0) +
      failures lib (p.process lib record.1 record.2).1 rest

end Runtime

end MongoDam.Observer
