import MongoDam.Observer.Provenance
import MongoDam.Protocol.Encode
import MongoDam.Schema.Json

/-!
# Batches

`flushBatch` gathers events into a batch and writes it as text for the spool. The
exporter and Outpost read that text back before they do anything else with it. The
writer nests as deep as the captured query; the reader gives up at its limit. So
whether a batch can be read back is decided by the queries of its events, and those
are the queries of the requests that were decoded along the run.
-/

namespace MongoDam.Observer

open Lib Schema Protocol

/-- The identity under which a sensor reports. -/
structure Assignment where
  customerId : String
  tenantId : String
  sourceId : String
  regionalCellId : String
  sensorId : String
  nodeName : String
  deriving DecidableEq

/-- The counters that a health report reads. -/
structure RuntimeMetrics where
  bpfReady : Bool
  bpfDroppedEvents : ℕ
  userspaceDroppedEvents : ℕ
  spoolDroppedEvents : ℕ
  parseErrors : ℕ

/-- `unix_timestamp_nanos().to_le_bytes()`: 128 bits in two's complement. -/
def unixNanosBytes (time : ℤ) : Bytes := leBytes 16 (time % 2 ^ 128).toNat

/-- The batch of a list of events. -/
def batchOf (lib : External) (assignment : Assignment) (createdAt : ℤ) (events : List DamEvent) :
    DamBatch where
  schemaVersion := BATCH_SCHEMA_VERSION
  batchId := "batch-" ++ encodeHex ((lib.sha256.digest (toUtf8 assignment.sensorId ++
    unixNanosBytes createdAt ++ events.flatMap (fun event => toUtf8 event.eventId))).take 16)
  customerId := assignment.customerId
  tenantId := assignment.tenantId
  sourceId := assignment.sourceId
  regionalCellId := assignment.regionalCellId
  createdAt
  events

/-- The batch and the text that `flush_batch` hands to the spool: nothing when there are no
events, or when the batch cannot be written. -/
def flushBatch (lib : External) (serde : Serde) (assignment : Assignment) (createdAt : ℤ)
    (events : List DamEvent) : Option (DamBatch × Bytes) :=
  if events = [] then none
  else
    let batch := batchOf lib assignment createdAt events
    (serde.encode (DamBatch.codec serde) batch).map fun body => (batch, body)

/-- The periodic health report. -/
def sensorHealthEvent (lib : External) (assignment : Assignment) (now : ℤ) (spoolBytes : ℕ)
    (metrics : RuntimeMetrics) : DamEvent where
  schemaVersion := EVENT_SCHEMA_VERSION
  eventId := "health-" ++ encodeHex
    ((lib.sha256.digest (toUtf8 assignment.sensorId ++ unixNanosBytes now)).take 16)
  observedAt := now
  monotonicTimestampNs := 0
  customerId := assignment.customerId
  tenantId := assignment.tenantId
  sourceId := assignment.sourceId
  regionalCellId := assignment.regionalCellId
  capture :=
    { sensorId := assignment.sensorId
      nodeName := assignment.nodeName
      source := .sensor
      confidence := .complete
      metadataOnly := true
      truncated := false }
  kubernetes := none
  process := none
  identity := none
  payload := .sensorHealth
    { status := if metrics.bpfReady then "ok" else "degraded"
      component := "observer"
      reason := "periodic sensor status"
      droppedEvents := saturatingAdd
        (saturatingAdd metrics.bpfDroppedEvents metrics.userspaceDroppedEvents)
        metrics.spoolDroppedEvents
      parseErrors := metrics.parseErrors
      spoolBytes }

/-- An event that reaches the batcher: one of the run, or a health report. -/
def Batched (lib : External) (assignment : Assignment) (emitted : List DamEvent)
    (event : DamEvent) : Prop :=
  event ∈ emitted ∨
    ∃ now spoolBytes metrics, event = sensorHealthEvent lib assignment now spoolBytes metrics

/-- The text is read back as a batch with the same id and as many events. -/
def ReadBack (serde : Serde) (batch : DamBatch) (body : Bytes) : Prop :=
  ∃ parsed, serde.decode (DamBatch.codec serde) body = some parsed ∧
    parsed.batchId = batch.batchId ∧ parsed.events.length = batch.events.length

/-- The query a call's message carries is nested at most `depth` levels. -/
def Call.QueryWithin (depth : ℕ) : Call → Prop
  | .message _ _ _ decoded =>
    ∀ command ∈ decoded.command, ∀ query ∈ command.query, query.depth ≤ depth
  | _ => True

/-- The query a call's message carries satisfies a property. -/
def Call.QuerySatisfies (P : JsonValue → Prop) : Call → Prop
  | .message _ _ _ decoded =>
    ∀ command ∈ decoded.command, ∀ query ∈ command.query, P query
  | _ => True

theorem Call.QueryWithin.satisfies {depth : ℕ} {call : Call} (h : call.QueryWithin depth) :
    call.QuerySatisfies (·.depth ≤ depth) := by
  cases call with
  | message host raw truncated decoded => exact h
  | chunk raw => trivial
  | record host captured => trivial

/-! ### Where a query comes from -/

namespace EventProcessor

variable {lib : External} {p : EventProcessor} {request : PendingRequest} {P : JsonValue → Prop}

/-- A request keeps the query of the message that opened it. -/
private theorem query_of_opens {call : Call} (hsatisfies : call.QuerySatisfies P)
    (hopens : call.opens lib p = some request) : ∀ query ∈ request.command.query, P query := by
  cases call with
  | chunk raw => cases hopens
  | record host captured => cases hopens
  | message host raw truncated decoded =>
    simp only [Call.opens] at hopens
    split at hopens
    · obtain ⟨command, hcommand, rfl⟩ := Option.map_eq_some_iff.mp hopens
      exact hsatisfies command hcommand
    · cases hopens

/-- A completed request was opened by a call of the run or by the completing call itself. -/
private theorem query_of_completed {config : ProcessorConfig} {calls : List Call} {call : Call}
    (hsatisfies : ∀ earlier ∈ calls ++ [call], earlier.QuerySatisfies P)
    (hcompleted : call.completed lib ((EventProcessor.new config).afterCalls lib calls) =
      some request) :
    ∀ query ∈ request.command.query, P query := by
  have hcall : call.QuerySatisfies P :=
    hsatisfies call (List.mem_append_right _ (List.mem_singleton_self _))
  cases call with
  | chunk raw => cases hcompleted
  | record host captured => cases hcompleted
  | message host raw truncated decoded =>
    simp only [Call.completed] at hcompleted
    split at hcompleted
    · split at hcompleted
      · obtain ⟨command, hcommand, rfl⟩ := Option.map_eq_some_iff.mp hcompleted
        exact hcall command hcommand
      · cases hcompleted
    · obtain ⟨before, opener, after, rfl, -, hopens, -⟩ := waiting_origin hcompleted
      have hopener : opener.QuerySatisfies P := hsatisfies opener (by simp)
      exact query_of_opens hopener hopens

/-- An emitted event carries a query only while capture is on, and then the query of a
message of the run. -/
theorem query_of_emitted {config : ProcessorConfig} {calls : List Call}
    (hsatisfies : config.captureQueryContent = true → ∀ call ∈ calls, call.QuerySatisfies P)
    {event : DamEvent} (hevent : event ∈ (EventProcessor.new config).emitted lib calls) :
    ∀ query ∈ event.query, P query := by
  intro query hquery
  obtain ⟨activity, hactivity, hquery⟩ := Option.bind_eq_some_iff.mp hquery
  obtain ⟨before, call, after, rfl, hstep⟩ := mem_emitted hevent
  have hreported : activity ∈ (call.step lib ((EventProcessor.new config).afterCalls lib
      before)).2.filterMap DamEvent.activity? :=
    List.mem_filterMap.mpr ⟨event, hstep, hactivity⟩
  rw [step_activities] at hreported
  obtain ⟨request, hcompleted, rfl⟩ := Option.map_eq_some_iff.mp (Option.mem_toList.mp hreported)
  by_cases hcapture : config.captureQueryContent = true
  · have hrequest : request.command.query = some query := by
      simpa [activityOf, afterCalls_config, EventProcessor.new, hcapture] using hquery
    refine query_of_completed (fun earlier hearlier => hsatisfies hcapture earlier ?_) hcompleted
      query hrequest
    rcases List.mem_append.mp hearlier with hmem | hmem
    · exact List.mem_append_left _ hmem
    · rw [List.mem_singleton] at hmem
      simp [hmem]
  · simp [activityOf, afterCalls_config, EventProcessor.new, hcapture] at hquery

end EventProcessor

/-! ### Reading a batch back -/

/-- A flushed batch is read back exactly when no query of its events is nested too deep. -/
theorem readBack_iff {lib : External} {serde : Serde} (hlimit : 6 ≤ serde.limit)
    {assignment : Assignment} {createdAt : ℤ} {events : List DamEvent} {batch : DamBatch}
    {body : Bytes}
    (hflush : flushBatch lib serde assignment createdAt events = some (batch, body)) :
    ReadBack serde batch body ↔
      ∀ event ∈ events, ∀ query ∈ event.query, query.depth + 4 ≤ serde.limit := by
  unfold flushBatch at hflush
  split at hflush
  · cases hflush
  · obtain ⟨written, hwritten, hpair⟩ := Option.map_eq_some_iff.mp hflush
    cases hpair
    unfold ReadBack
    rw [Serde.decode_encode hwritten]
    refine Iff.trans ?_ ((batchOf lib assignment createdAt events).codec_depth_le serde hlimit)
    split
    · rename_i hdepth
      simp [hdepth]
    · rename_i hdepth
      simp [hdepth]

/-- In a run in which every decoded query leaves room for the four levels around it, or in
which queries are not captured, every flushed batch is read back with its id and all its
events. -/
theorem flushed_readBack {lib : External} {serde : Serde} (hlimit : 6 ≤ serde.limit)
    {config : ProcessorConfig} {records : List Record}
    (hwithin : config.captureQueryContent = true →
      ∀ call ∈ (EventProcessor.new config).trace lib records, call.QueryWithin (serde.limit - 4))
    {assignment : Assignment} {createdAt : ℤ} {events : List DamEvent}
    (hevents : ∀ event ∈ events,
      Batched lib assignment ((EventProcessor.new config).emittedRecords lib records) event)
    {batch : DamBatch} {body : Bytes}
    (hflush : flushBatch lib serde assignment createdAt events = some (batch, body)) :
    ReadBack serde batch body := by
  rw [readBack_iff hlimit hflush]
  intro event hevent query hquery
  rcases hevents event hevent with hrun | ⟨now, spoolBytes, metrics, rfl⟩
  · rw [EventProcessor.emittedRecords_eq_emitted] at hrun
    have hdepth := EventProcessor.query_of_emitted
      (fun hcapture call hcall => (hwithin hcapture call hcall).satisfies) hrun query hquery
    omega
  · cases hquery

/-! ### Concrete batches -/

instance (depth : ℕ) : (call : Call) → Decidable (call.QueryWithin depth)
  | .message _ _ _ decoded =>
    inferInstanceAs (Decidable (∀ command ∈ decoded.command, ∀ query ∈ command.query,
      query.depth ≤ depth))
  | .chunk _ => inferInstanceAs (Decidable True)
  | .record _ _ => inferInstanceAs (Decidable True)

/-- A configuration that captures queries. -/
def ProcessorConfig.capturing : ProcessorConfig :=
  { ProcessorConfig.sample with captureQueryContent := true }

/-- The assignment of the sample configuration. -/
def Assignment.sample : Assignment where
  customerId := "c"
  tenantId := "t"
  sourceId := "s"
  regionalCellId := "r"
  sensorId := "n"
  nodeName := "n"

/-- The sample digests, and the digest of a batch with the first event of a run. -/
def batchDigests : List (Bytes × Bytes) :=
  (toUtf8 "n" ++ unixNanosBytes 0 ++ toUtf8 "evt-8c3c009672998662fb7e1540c9c125aa",
      [239, 151, 74, 234, 249, 142, 44, 121, 40, 17, 52, 3, 64, 185, 66, 84, 53, 45, 201, 224,
        127, 86, 68, 192, 29, 215, 122, 140, 139, 79, 82, 22]) ::
    sampleDigests

/-- Documents inside each other, under empty keys. -/
def nestedElements : ℕ → Bytes
  | 0 => []
  | depth + 1 => encodeEmbedded "" (nestedElements depth)

/-- An unacknowledged insert of one document that nests `depth` others. -/
def nestedInsert (depth : ℕ) : Bytes :=
  encodeOpMsg 1 0 2 (encodeBody (encodeString "insert" "t" ++
    encodeElement 0x04 "documents" (encodeDocument (encodeEmbedded "0" (nestedElements depth)))))

/-- The run over one captured insert. -/
def nestedRecords (depth : ℕ) : List Record :=
  [(fun _ => .silent, { raw := .ofChunk 1 7 8 0 (nestedInsert depth) })]

/-- The events of that run. -/
def nestedEvents (depth : ℕ) : List DamEvent :=
  (EventProcessor.new .capturing).emittedRecords (.ofDigests batchDigests) (nestedRecords depth)

/-- The batch of some events, written at the epoch. -/
def epochBatch (events : List DamEvent) : DamBatch :=
  batchOf (.ofDigests batchDigests) .sample 0 events

/-- The document of a batch written at the epoch. -/
def documentOf (batch : DamBatch) : JsonValue :=
  ((DamBatch.codec (.ofDocument .null 0)).write batch).getD .null

/-- The text of a batch written at the epoch. -/
def textOf (batch : DamBatch) : Bytes := toUtf8 ((documentOf batch).render fun _ => "")

/-- The text code for one batch, with the parser's limit of 127 open containers. -/
def serdeOf (batch : DamBatch) : Serde := .ofDocument (documentOf batch) 127

/-- The limit is that of the parser. -/
theorem serdeOf_limit (batch : DamBatch) : (serdeOf batch).limit = 127 := rfl

/-- A batch written at the epoch is encoded to its text. -/
theorem encode_serdeOf {batch : DamBatch}
    (h : ((DamBatch.codec (.ofDocument .null 0)).write batch).isSome) :
    (serdeOf batch).encode (DamBatch.codec (serdeOf batch)) batch = some (textOf batch) := by
  have hwrite : (DamBatch.codec (serdeOf batch)).write batch = some (documentOf batch) := by
    obtain ⟨document, hdocument⟩ := Option.isSome_iff_exists.mp h
    have hsame : (DamBatch.codec (serdeOf batch)).write batch = some document := hdocument
    rw [hsame, documentOf, hdocument, Option.getD_some]
  rw [Serde.encode, hwrite]
  simp [serdeOf, textOf, Serde.ofDocument]

/-- One event that can be written, with a query of the given depth. -/
def oneQuery (depth : ℕ) : List DamEvent → Bool
  | [event] => ((DamBatch.codec (.ofDocument .null 0)).write (epochBatch [event])).isSome &&
      event.query.map JsonValue.depth == some depth
  | _ => false

/-- One event with a query is flushed to the text of its batch. -/
theorem flushBatch_of_oneQuery {depth : ℕ} {events : List DamEvent}
    (h : oneQuery depth events) :
    flushBatch (.ofDigests batchDigests) (serdeOf (epochBatch events)) .sample 0 events =
        some (epochBatch events, textOf (epochBatch events)) ∧
      ∃ event ∈ events, ∃ query ∈ event.query, query.depth = depth := by
  unfold oneQuery at h
  split at h
  · rename_i event
    rw [Bool.and_eq_true, beq_iff_eq] at h
    obtain ⟨query, hquery, hdepth⟩ := Option.map_eq_some_iff.mp h.2
    refine ⟨?_, event, List.mem_singleton_self _, query, hquery, hdepth⟩
    unfold flushBatch
    rw [if_neg (List.cons_ne_nil _ _)]
    exact congrArg (Option.map _) (encode_serdeOf h.1)
  · cases h

/-- The insert of an empty document has a query of three levels. -/
theorem nestedEvents_flat : oneQuery 3 (nestedEvents 0) := by
  decide +kernel

private theorem nestedEvents_deep : oneQuery 128 (nestedEvents 125) := by
  decide +kernel

/-- An insert of an empty document: its batch is read back. -/
theorem nestedInsert_readBack :
    ReadBack (serdeOf (epochBatch (nestedEvents 0))) (epochBatch (nestedEvents 0))
      (textOf (epochBatch (nestedEvents 0))) := by
  have hlimit : 6 ≤ (serdeOf (epochBatch (nestedEvents 0))).limit := by
    rw [serdeOf_limit]
    decide
  have hwithin : ∀ call ∈ (EventProcessor.new .capturing).trace (.ofDigests batchDigests)
      (nestedRecords 0), call.QueryWithin ((serdeOf (epochBatch (nestedEvents 0))).limit - 4) := by
    rw [serdeOf_limit]
    decide +kernel
  exact flushed_readBack hlimit (fun _ => hwithin) (fun _ hevent => Or.inl hevent)
    (flushBatch_of_oneQuery nestedEvents_flat).1

/-- An insert whose document nests 125 others fits the capture. Its batch is written, with
a query 128 levels deep, and never read back. -/
theorem nestedInsert_not_readBack :
    (nestedInsert 125).length ≤ MAX_CAPTURE_BYTES ∧
      (∀ event ∈ nestedEvents 125, Batched (.ofDigests batchDigests) .sample
        ((EventProcessor.new .capturing).emittedRecords (.ofDigests batchDigests)
          (nestedRecords 125)) event) ∧
      flushBatch (.ofDigests batchDigests) (serdeOf (epochBatch (nestedEvents 125))) .sample 0
          (nestedEvents 125) =
        some (epochBatch (nestedEvents 125), textOf (epochBatch (nestedEvents 125))) ∧
      ¬ReadBack (serdeOf (epochBatch (nestedEvents 125))) (epochBatch (nestedEvents 125))
        (textOf (epochBatch (nestedEvents 125))) := by
  obtain ⟨hflush, event, hevent, query, hquery, hdepth⟩ := flushBatch_of_oneQuery nestedEvents_deep
  have hlimit : 6 ≤ (serdeOf (epochBatch (nestedEvents 125))).limit := by
    rw [serdeOf_limit]
    decide
  refine ⟨by decide +kernel, fun _ hevent => Or.inl hevent, hflush, ?_⟩
  rw [readBack_iff hlimit hflush, serdeOf_limit]
  intro hshallow
  have hquery := hshallow event hevent query hquery
  omega

end MongoDam.Observer
