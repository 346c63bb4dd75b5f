import MongoDam.Observer.Steps

/-!
# Runs of the processor

A run is a list of calls: a decoded message handed to `processMessage`, the
decoding half of an I/O chunk, or any other record. Handling a kernel record is
the run of its calls, so that a fact about every list of calls holds of every
sequence of records. Results about messages are stated over lists of calls,
results about records over lists of records.
-/

namespace MongoDam.Observer

open Lib Schema Protocol

/-- One call into the processor. -/
inductive Call where
  | message (host : Host) (raw : KernelEvent) (truncated : Bool) (message : DecodedMessage)
  | chunk (raw : KernelEvent)
  | record (host : Host) (captured : CapturedKernelEvent)

/-- A kernel record with the host's answers while it is handled. -/
abbrev Record := (ℕ → Host) × CapturedKernelEvent

/-- A host that answers nothing. -/
def Host.silent : Host where
  nowUtc := 0
  instant := 0
  processExecutable _ := none
  processCredentials _ := none
  processCommand _ := none
  podUid _ := none
  resolveSocketEndpoints _ _ := none
  pendingOrder := ⟨id, fun keys => .refl keys⟩

/-- The record of an I/O operation that moves a chunk of bytes. -/
def KernelEvent.ofChunk (timestampNs tgid connectionKey direction : ℕ) (chunk : Bytes) :
    KernelEvent where
  timestampNs
  connectionKey
  cgroupId := 0
  durationNs := 0
  bytes := chunk.length
  result := chunk.length
  pid := tgid
  tgid
  uid := 0
  gid := 0
  fd := -1
  capturedLen := min chunk.length MAX_CAPTURE_BYTES
  eventType := EVENT_IO_CHUNK
  direction
  source := 1
  operation := 0
  comm := List.replicate 16 0
  data := chunk.take MAX_CAPTURE_BYTES ++ List.replicate (MAX_CAPTURE_BYTES - chunk.length) 0
  data_length := by
    rw [List.length_append, List.length_take, List.length_replicate]
    omega

/-- Libraries whose digests on the listed inputs are the listed ones, and that
decompress nothing. -/
def External.ofDigests (digests : List (Bytes × Bytes)) : External where
  sha256 := .ofTable digests
  codecs :=
    { snappyLength := fun _ => .error ""
      snappy := fun _ => .error ""
      zlib := fun _ _ => .error ""
      zstd := fun _ _ => .error "" }

/-- SHA-256 digests of salted principals and of the first events of a run. -/
def sampleDigests : List (Bytes × Bytes) :=
  [
    (toUtf8 "salt" ++ 0 :: toUtf8 "alice",
      [59, 247, 206, 91, 208, 157, 19, 155, 37, 19, 194, 183, 54, 226, 9, 43, 200,
        132, 53, 252, 155, 81, 183, 176, 172, 145, 117, 81, 195, 180, 112, 137]),
    (toUtf8 "salt" ++ 0 :: toUtf8 "bob",
      [133, 80, 229, 128, 0, 106, 192, 43, 167, 2, 154, 77, 137, 63, 156, 64, 47, 239,
        133, 249, 2, 37, 121, 24, 100, 5, 155, 240, 132, 239, 15, 242]),
    (toUtf8 "n" ++ leBytes 8 1 ++ leBytes 8 1,
      [140, 60, 0, 150, 114, 153, 134, 98, 251, 126, 21, 64, 201, 193, 37, 170, 245,
        233, 177, 16, 220, 92, 138, 76, 184, 250, 85, 115, 112, 231, 240, 226]),
    (toUtf8 "n" ++ leBytes 8 1 ++ leBytes 8 2,
      [48, 57, 190, 104, 215, 229, 64, 1, 12, 88, 101, 252, 124, 154, 192, 208, 233,
        107, 203, 205, 148, 180, 206, 115, 224, 168, 124, 183, 193, 175, 206, 157]),
    (toUtf8 "n" ++ leBytes 8 1 ++ leBytes 8 3,
      [59, 95, 246, 63, 244, 3, 66, 73, 62, 214, 19, 69, 8, 52, 86, 85, 172, 148, 228,
        40, 146, 172, 21, 156, 214, 224, 124, 90, 84, 35, 21, 192]),
    (toUtf8 "n" ++ leBytes 8 1 ++ leBytes 8 4,
      [147, 191, 123, 137, 80, 194, 11, 169, 253, 229, 220, 127, 160, 190, 207, 233,
        216, 45, 202, 13, 184, 119, 59, 44, 87, 7, 192, 76, 202, 39, 168, 87])]

/-- The hash of `alice`. -/
def aliceHash : String :=
  "sha256:3bf7ce5bd09d139b2513c2b736e2092bc88435fc9b51b7b0ac917551c3b47089"

/-- A configuration that hashes principals and captures no queries. -/
def ProcessorConfig.sample : ProcessorConfig where
  customerId := "c"
  tenantId := "t"
  sourceId := "s"
  regionalCellId := "r"
  sensorId := "n"
  nodeName := "n"
  clusterName := "k"
  maxMessageBytes := 48000000
  cpuProfileHz := 49
  principalHashSalt := some "salt"
  captureQueryContent := false

/-- The record closes the connection. -/
def closesConnection (raw : KernelEvent) (key : ConnectionKey) : Prop :=
  raw.eventType = EVENT_CONNECTION ∧ raw.operation = OP_TCP_CLOSE ∧ raw.key = key

/-- The record ends the process. -/
def exitsProcess (raw : KernelEvent) (tgid : ℕ) : Prop :=
  raw.eventType = EVENT_PROCESS ∧ raw.operation = OP_PROCESS_EXIT ∧ raw.tgid = tgid

instance (raw : KernelEvent) (key : ConnectionKey) : Decidable (closesConnection raw key) :=
  inferInstanceAs (Decidable (_ ∧ _ ∧ _))

instance (raw : KernelEvent) (tgid : ℕ) : Decidable (exitsProcess raw tgid) :=
  inferInstanceAs (Decidable (_ ∧ _ ∧ _))

namespace Call

/-- The call closes the connection or ends its process. -/
def forgets (key : ConnectionKey) : Call → Prop
  | .record _ captured => closesConnection captured.raw key ∨ exitsProcess captured.raw key.1
  | _ => False

instance (key : ConnectionKey) : (call : Call) → Decidable (call.forgets key)
  | .record _ _ => inferInstanceAs (Decidable (_ ∨ _))
  | .message _ _ _ _ => inferInstanceAs (Decidable False)
  | .chunk _ => inferInstanceAs (Decidable False)

/-- The effect of a call. A record that fails emits nothing. -/
def step (lib : External) (p : EventProcessor) : Call → EventProcessor × List DamEvent
  | .message host raw truncated decoded => p.processMessage lib host raw truncated decoded
  | .chunk raw => ((p.decodeChunk lib raw).1, [])
  | .record host captured =>
    ((p.processRecord lib host captured).1, (p.processRecord lib host captured).2.toOption.getD [])

end Call

namespace EventProcessor

variable (lib : External)

/-- The processor after a list of calls. -/
def afterCalls (p : EventProcessor) (calls : List Call) : EventProcessor :=
  calls.foldl (fun p call => (call.step lib p).1) p

/-- The events a list of calls emits. -/
def emitted : EventProcessor → List Call → List DamEvent
  | _, [] => []
  | p, call :: rest => (call.step lib p).2 ++ emitted (call.step lib p).1 rest

/-- The calls of a chunk's messages. -/
def messageCalls (hosts : ℕ → Host) (raw : KernelEvent) (messages : List DecodedMessage) :
    List Call :=
  messages.zipIdx.map
    (fun entry => .message (hosts entry.2) raw (isTruncated raw) entry.1)

/-- The calls that handle one record. -/
def callsOf (p : EventProcessor) (record : Record) : List Call :=
  if record.2.raw.eventType = EVENT_IO_CHUNK then
    .chunk record.2.raw ::
      (match (p.decodeChunk lib record.2.raw).2 with
      | .error _ => []
      | .ok messages => messageCalls record.1 record.2.raw messages)
  else [.record (record.1 0) record.2]

/-- The processor after a list of records. -/
def afterRecords (p : EventProcessor) (records : List Record) : EventProcessor :=
  records.foldl (fun p record => (p.process lib record.1 record.2).1) p

/-- The events a list of records emits. -/
def emittedRecords : EventProcessor → List Record → List DamEvent
  | _, [] => []
  | p, record :: rest =>
    (p.process lib record.1 record.2).2.toOption.getD [] ++
      emittedRecords (p.process lib record.1 record.2).1 rest

/-- The calls a list of records leads to. -/
def trace : EventProcessor → List Record → List Call
  | _, [] => []
  | p, record :: rest => p.callsOf lib record ++ trace (p.process lib record.1 record.2).1 rest

variable {lib}

@[simp] theorem afterCalls_nil (p : EventProcessor) : p.afterCalls lib [] = p := rfl

@[simp] theorem afterCalls_cons (p : EventProcessor) (call : Call) (rest : List Call) :
    p.afterCalls lib (call :: rest) = (call.step lib p).1.afterCalls lib rest := rfl

@[simp] theorem afterCalls_append (p : EventProcessor) (calls more : List Call) :
    p.afterCalls lib (calls ++ more) = (p.afterCalls lib calls).afterCalls lib more :=
  List.foldl_append

@[simp] theorem emitted_append (p : EventProcessor) (calls more : List Call) :
    p.emitted lib (calls ++ more) =
      p.emitted lib calls ++ (p.afterCalls lib calls).emitted lib more := by
  induction calls generalizing p with
  | nil => rfl
  | cons call rest ih => simp [emitted, ih, List.append_assoc]

/-- An emitted event comes from one call of the run. -/
theorem mem_emitted {p : EventProcessor} {calls : List Call} {event : DamEvent}
    (h : event ∈ p.emitted lib calls) :
    ∃ before call after, calls = before ++ call :: after ∧
      event ∈ (call.step lib (p.afterCalls lib before)).2 := by
  induction calls generalizing p with
  | nil => cases h
  | cons call rest ih =>
    rcases List.mem_append.mp h with hfirst | hlater
    · exact ⟨[], call, rest, rfl, hfirst⟩
    · obtain ⟨before, later, after, hsplit, hevent⟩ := ih hlater
      exact ⟨call :: before, later, after, by rw [hsplit]; rfl, hevent⟩

/-! ### A record is the run of its calls -/

theorem processMessages_eq_run (raw : KernelEvent) (truncated : Bool) (p : EventProcessor)
    (messages : List (Host × DecodedMessage)) :
    processMessages lib raw truncated p messages =
      (p.afterCalls lib (messages.map (fun m => .message m.1 raw truncated m.2)),
        p.emitted lib (messages.map (fun m => .message m.1 raw truncated m.2))) := by
  induction messages generalizing p with
  | nil => rfl
  | cons m rest ih =>
    simp only [processMessages, ih, List.map_cons, afterCalls_cons, emitted, Call.step]

private theorem messageCalls_eq (hosts : ℕ → Host) (raw : KernelEvent)
    (messages : List DecodedMessage) :
    (messages.zipIdx.map (fun entry => (hosts entry.2, entry.1))).map
        (fun m => Call.message m.1 raw (isTruncated raw) m.2) =
      messageCalls hosts raw messages := by
  simp [messageCalls, Function.comp_def]

/-- Handling a record is running its calls. -/
theorem process_eq_run (p : EventProcessor) (record : Record) :
    (p.process lib record.1 record.2).1 = p.afterCalls lib (p.callsOf lib record) ∧
      (p.process lib record.1 record.2).2.toOption.getD [] =
        p.emitted lib (p.callsOf lib record) := by
  unfold process callsOf
  split
  · unfold processIoChunk
    rcases hdecode : p.decodeChunk lib record.2.raw with ⟨q, result⟩
    cases result with
    | error e => simp [Call.step, emitted, hdecode, Except.toOption]
    | ok messages =>
      simp only [afterCalls_cons, emitted, Call.step, hdecode, processMessages_eq_run,
        messageCalls_eq, Except.toOption, Option.getD_some, List.nil_append, and_self]
  · simp [Call.step, emitted]

/-- A run over records is the run of its calls. -/
theorem afterRecords_eq_afterCalls (p : EventProcessor) (records : List Record) :
    p.afterRecords lib records = p.afterCalls lib (p.trace lib records) := by
  induction records generalizing p with
  | nil => rfl
  | cons record rest ih =>
    simp only [trace, afterCalls_append, ← (process_eq_run p record).1]
    exact ih _

/-- A run over records emits what its calls emit. -/
theorem emittedRecords_eq_emitted (p : EventProcessor) (records : List Record) :
    p.emittedRecords lib records = p.emitted lib (p.trace lib records) := by
  induction records generalizing p with
  | nil => rfl
  | cons record rest ih =>
    simp only [trace, emitted_append, emittedRecords, ← (process_eq_run p record).1,
      ← (process_eq_run p record).2, ih]

/-! ### The correlation state along a run -/

section Records

variable (p : EventProcessor)

/-- Decoding a chunk touches the stream decoders only. -/
theorem decodeChunk_fst (lib : External) (raw : KernelEvent) :
    ∃ streams, (p.decodeChunk lib raw).1 = { p with streams := streams } := by
  unfold decodeChunk
  dsimp only
  split
  · exact ⟨p.streams, rfl⟩
  · split
    · exact ⟨_, rfl⟩
    · split <;> exact ⟨_, rfl⟩

/-- A chunk's decoding leaves the correlation state alone. -/
theorem waiting_chunk (raw : KernelEvent) (key : ConnectionKey) (requestId : ℤ) :
    ((Call.chunk raw).step lib p).1.waiting key requestId = p.waiting key requestId := by
  obtain ⟨streams, h⟩ := p.decodeChunk_fst lib raw
  simp only [Call.step, h]
  rfl

theorem connection_chunk (raw : KernelEvent) (key : ConnectionKey) :
    ((Call.chunk raw).step lib p).1.connection key = p.connection key := by
  obtain ⟨streams, h⟩ := p.decodeChunk_fst lib raw
  simp only [Call.step, h]
  rfl

private theorem session_measureConnection (raw : KernelEvent) (state : ConnectionState) :
    (measureConnection raw state).session = state.session := by
  unfold measureConnection
  split
  · rfl
  · split <;> rfl

/-- The step from `p` to `q` drops the pending requests and the sessions of the
connections that are gone, and keeps all others. -/
def Clears (gone : ConnectionKey → Prop) [DecidablePred gone] (p q : EventProcessor) : Prop :=
  q.pending = p.pending.filter (fun k _ => decide (¬ gone (k.1, k.2.1))) ∧
    ∀ key, (q.connection key).session =
      if gone key then (none, none) else (p.connection key).session

private theorem clears_nothing {p q : EventProcessor} (hpending : q.pending = p.pending)
    (hsession : ∀ key, (q.connection key).session = (p.connection key).session) :
    Clears (fun _ => False) p q := by
  refine ⟨?_, fun key => ?_⟩
  · rw [hpending, Table.filter_eq_self]
    simp
  · simpa using hsession key

private theorem clears_latency (host : Host) (captured : CapturedKernelEvent) :
    Clears (fun _ => False) p (p.processLatency lib host captured).1 := by
  unfold processLatency
  dsimp only
  split
  · exact clears_nothing rfl fun _ => rfl
  · split <;> exact clears_nothing rfl fun _ => rfl

private theorem clears_profile (host : Host) (captured : CapturedKernelEvent) :
    Clears (fun _ => False) p (p.processProfile lib host captured).1 := by
  unfold processProfile
  dsimp only
  split
  · exact clears_nothing rfl fun _ => rfl
  · split <;> exact clears_nothing rfl fun _ => rfl

private theorem clears_dns (host : Host) (captured : CapturedKernelEvent) :
    Clears (fun _ => False) p (p.processDns lib host captured).1 := by
  unfold processDns
  dsimp only
  split
  · exact clears_nothing rfl fun _ => rfl
  · have hstate : ∀ q : EventProcessor, q.pending = p.pending → q.connections = p.connections →
        Clears (fun _ => False) p (q.connectionMetadata host captured.raw).1 := by
      intro q hpending hconnections
      refine clears_nothing (by rw [connectionMetadata_pending, hpending]) fun key => ?_
      rw [connection_connectionMetadata]
      unfold connection
      rw [hconnections]
    split <;> exact hstate _ rfl rfl

private theorem clears_connection (host : Host) (captured : CapturedKernelEvent) :
    Clears (fun key => captured.raw.operation = OP_TCP_CLOSE ∧ captured.raw.key = key) p
      (p.processConnection lib host captured).1 := by
  have hmeasured : ∀ j, ((p.updateConnection captured.raw.key
      (measureConnection captured.raw)).connection j).session = (p.connection j).session := by
    intro j
    rw [connection_updateConnection]
    split
    · next h => rw [h, session_measureConnection]
    · rfl
  unfold processConnection
  dsimp only
  by_cases hclose : captured.raw.operation = OP_TCP_CLOSE
  · have hreport : connectionReport captured.raw = some ("closed", none, none) := by
      simp [connectionReport, hclose, OP_TCP_CONNECT, OP_TCP_ACCEPT, OP_TCP_CLOSE]
    simp only [hreport, hclose, if_true, true_and]
    refine ⟨?_, fun key => ?_⟩
    · simp only [event_fst, forgetConnection, connectionMetadata_pending, updateConnection_pending,
        ne_eq, eq_comm (a := captured.raw.key)]
    · refine (congrArg ConnectionState.session (connection_forgetConnection ..)).trans ?_
      rw [connection_connectionMetadata]
      by_cases hkey : key = captured.raw.key
      · simp only [hkey, if_true]
        rfl
      · simp only [hkey, Ne.symm hkey, if_false]
        exact hmeasured key
  · have hnothing : ∀ q : EventProcessor, Clears (fun _ => False) p q →
        Clears (fun key => captured.raw.operation = OP_TCP_CLOSE ∧ captured.raw.key = key) p q := by
      intro q hq
      simpa only [Clears, hclose, false_and] using hq
    apply hnothing
    simp only [hclose, if_false]
    split
    · exact clears_nothing (updateConnection_pending ..) hmeasured
    · refine clears_nothing ?_ fun key => ?_
      · simp only [event_fst, connectionMetadata_pending, updateConnection_pending]
      · refine Eq.trans ?_ (hmeasured key)
        exact congrArg ConnectionState.session (connection_connectionMetadata ..)

private theorem clears_lifecycle (host : Host) (captured : CapturedKernelEvent) :
    Clears (fun key => captured.raw.operation = OP_PROCESS_EXIT ∧ captured.raw.tgid = key.1) p
      (p.processLifecycle lib host captured).1 := by
  unfold processLifecycle
  dsimp only
  by_cases hexit : captured.raw.operation = OP_PROCESS_EXIT
  · simp only [hexit, or_true, if_true, true_and]
    refine ⟨?_, fun key => ?_⟩
    · simp only [event_fst, forgetProcess, ne_eq, eq_comm (a := captured.raw.tgid)]
    · refine (congrArg ConnectionState.session (connection_forgetProcess ..)).trans ?_
      by_cases hkey : key.1 = captured.raw.tgid
      · simp only [hkey, if_true]
        rfl
      · simp only [hkey, Ne.symm hkey, if_false]
  · have hnothing : ∀ q : EventProcessor, Clears (fun _ => False) p q →
        Clears (fun key => captured.raw.operation = OP_PROCESS_EXIT ∧ captured.raw.tgid = key.1)
          p q := by
      intro q hq
      simpa only [Clears, hexit, false_and] using hq
    apply hnothing
    simp only [hexit, or_false, if_false]
    split <;> exact clears_nothing rfl fun _ => rfl

/-- A record other than a chunk clears the connections it forgets. -/
theorem clears_record (host : Host) (captured : CapturedKernelEvent) :
    Clears (fun key => (Call.record host captured).forgets key) p
      ((Call.record host captured).step lib p).1 := by
  have hgone : ∀ (gone : ConnectionKey → Prop) [DecidablePred gone] (q : EventProcessor),
      (∀ key, (Call.record host captured).forgets key ↔ gone key) → Clears gone p q →
        Clears (fun key => (Call.record host captured).forgets key) p q := by
    intro gone _ q hiff hq
    simpa only [Clears, hiff] using hq
  simp only [Call.step]
  unfold processRecord
  dsimp only
  by_cases hlatency : captured.raw.eventType = EVENT_SYSCALL_LATENCY
  · rw [if_pos hlatency]
    refine hgone _ _ (fun key => ?_) (p.clears_latency host captured)
    simp [Call.forgets, closesConnection, exitsProcess, hlatency, EVENT_SYSCALL_LATENCY,
      EVENT_CONNECTION, EVENT_PROCESS]
  · rw [if_neg hlatency]
    by_cases hconnection : captured.raw.eventType = EVENT_CONNECTION
    · rw [if_pos hconnection]
      refine hgone _ _ (fun key => ?_) (p.clears_connection host captured)
      simp [Call.forgets, closesConnection, exitsProcess, hconnection, EVENT_CONNECTION,
        EVENT_PROCESS]
    · rw [if_neg hconnection]
      by_cases hprocess : captured.raw.eventType = EVENT_PROCESS
      · have hprofile : captured.raw.eventType ≠ EVENT_PROFILE := by
          rw [hprocess]
          decide
        rw [if_neg hprofile, if_pos hprocess]
        refine hgone _ _ (fun key => ?_) (p.clears_lifecycle host captured)
        simp [Call.forgets, closesConnection, exitsProcess, hprocess, EVENT_CONNECTION,
          EVENT_PROCESS]
      · have hkeeps : ∀ key, (Call.record host captured).forgets key ↔ False := by
          intro key
          simp [Call.forgets, closesConnection, exitsProcess, hconnection, hprocess]
        split
        · exact hgone _ _ hkeeps (p.clears_profile host captured)
        · split
          · exact hgone _ _ hkeeps (p.clears_dns host captured)
          · exact hgone _ _ hkeeps (clears_nothing rfl fun _ => rfl)

theorem waiting_record (host : Host) (captured : CapturedKernelEvent) (key : ConnectionKey)
    (requestId : ℤ) :
    ((Call.record host captured).step lib p).1.waiting key requestId =
      if (Call.record host captured).forgets key then none else p.waiting key requestId := by
  unfold waiting
  rw [(p.clears_record host captured).1, Table.get?_filterKey]
  by_cases h : (Call.record host captured).forgets key <;> simp [h]

theorem session_record (host : Host) (captured : CapturedKernelEvent) (key : ConnectionKey) :
    (((Call.record host captured).step lib p).1.connection key).session =
      if (Call.record host captured).forgets key then (none, none)
      else (p.connection key).session :=
  (p.clears_record host captured).2 key

/-- A record other than a chunk reports no activity. -/
theorem processRecord_activities (host : Host) (captured : CapturedKernelEvent) :
    ((p.processRecord lib host captured).2.toOption.getD []).filterMap DamEvent.activity? = [] := by
  unfold processRecord succeed
  dsimp only
  split
  · unfold processLatency
    dsimp only
    split
    · rfl
    · split <;> rfl
  · split
    · unfold processConnection
      dsimp only
      split <;> rfl
    · split
      · unfold processProfile
        dsimp only
        split
        · rfl
        · split <;> rfl
      · split
        · unfold processLifecycle
          dsimp only
          split <;> rfl
        · split
          · unfold processDns
            dsimp only
            split <;> rfl
          · rfl

/-- The configuration never changes. -/
@[simp] theorem step_config (call : Call) : (call.step lib p).1.config = p.config := by
  cases call with
  | chunk raw =>
    obtain ⟨streams, h⟩ := p.decodeChunk_fst lib raw
    simp only [Call.step, h]
  | message host raw truncated decoded =>
    exact p.processMessage_config lib host raw truncated decoded
  | record host captured =>
    simp only [Call.step]
    unfold processRecord succeed
    dsimp only
    split
    · unfold processLatency
      dsimp only
      split
      · rfl
      · split <;> rfl
    · split
      · unfold processConnection
        dsimp only
        split
        · rfl
        · split <;> simp [forgetConnection]
      · split
        · unfold processProfile
          dsimp only
          split
          · rfl
          · split <;> rfl
        · split
          · unfold processLifecycle
            dsimp only
            split
            · split <;> rfl
            · rfl
          · split
            · unfold processDns
              dsimp only
              split
              · rfl
              · split <;> simp [rememberDns]
            · rfl

@[simp] theorem afterCalls_config (calls : List Call) :
    (p.afterCalls lib calls).config = p.config := by
  induction calls generalizing p with
  | nil => rfl
  | cons call rest ih => rw [afterCalls_cons, ih, step_config]

end Records

end EventProcessor

end MongoDam.Observer
