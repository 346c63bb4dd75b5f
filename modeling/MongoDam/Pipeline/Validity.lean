import MongoDam.Observer.Cli
import MongoDam.Observer.Confidence
import MongoDam.Outpost.Acceptance
import MongoDam.Protocol.QueryShape

/-!
# From Observer's batches to Outpost's checks

Observer and Outpost check the same schema at the two ends of a request. A batch of one
run carries the assignment of the command line throughout, and an event has query
content exactly when it says so. Two things can still make Outpost refuse it: the sensor
id is not checked on the command line, and a deep query is written but not read.
-/

namespace MongoDam.Pipeline

open Lib Schema Protocol Spool FileSystem Program Observer Outpost

/-! ### Queries of a run -/

section Queries

variable {lib : External} {p : EventProcessor} {records : List Record}

/-- Every message that a chunk completes has an object as its query, if it has a query. -/
private theorem hasObjectQuery_of_decodeChunk {raw : KernelEvent} {messages : List DecodedMessage}
    (h : (p.decodeChunk lib raw).2 = .ok messages) :
    ∀ message ∈ messages, message.HasObjectQuery := by
  unfold EventProcessor.decodeChunk at h
  dsimp only at h
  split at h
  · cases h
    exact fun _ hmem => absurd hmem List.not_mem_nil
  split at h
  · split at h
    · cases h
    · rename_i message hmessage
      cases h
      intro other hother
      rw [List.mem_singleton.mp hother]
      exact StreamDecoder.pushTruncated_object hmessage
  · split at h
    · cases h
    · rename_i decoder decoded hdecoded
      cases h
      exact StreamDecoder.pushBoundedPrefix_object hdecoded

/-- Every query of a run is an object. -/
private theorem objectQuery_of_mem_trace {call : Observer.Call} (h : call ∈ p.trace lib records) :
    call.QuerySatisfies fun query => ∃ members, query = .object members := by
  cases call with
  | chunk raw => trivial
  | record host captured => trivial
  | message host raw truncated decoded =>
    obtain ⟨earlier, record, later, -, -, -, -, messages, hmessages, hmem⟩ :=
      EventProcessor.handsOn_of_mem_trace h
    exact hasObjectQuery_of_decodeChunk hmessages decoded hmem

end Queries

/-! ### Batches of a command line -/

section Batches

variable {lib : External} {serde : Serde} {cli : Cli} {salt : Option String}
  {records : List Record} {createdAt : ℤ} {events : List DamEvent} {batch : DamBatch} {body : Bytes}

/-- The sensor id is not blank, if it was given. -/
def SensorNamed (cli : Cli) : Prop := ∀ sensorId ∈ cli.sensorId, isBlank sensorId = false

/-- The queries leave room for the levels that a batch puts around them. -/
def QueriesFit (serde : Serde) (events : List DamEvent) : Prop :=
  ∀ event ∈ events, ∀ query ∈ event.query, query.depth + 4 ≤ serde.limit

/-- An Outpost with the four ids of the command line. -/
structure SameAssignment (cli : Cli) (config : OutpostConfig) : Prop where
  customerId : config.customerId = cli.customerId
  tenantId : config.tenantId = cli.tenantId
  sourceId : config.sourceId = cli.sourceId
  regionalCellId : config.regionalCellId = cli.regionalCellId

/-- A flushed batch passes every check of an Outpost with the same ids, whatever else it is
configured with, whatever it runs on, and whichever file operations fail. -/
structure Acceptable (serde : Serde) (cli : Cli) (batch : DamBatch) (body : Bytes) : Prop where
  valid : batch.validate = .ok ()
  assigned : ∀ config, SameAssignment cli config → config.assigns batch = true
  consistent : ∀ event ∈ batch.events, event.captureConsistent = true
  answered : ∀ (deps : Dependencies) config surroundings headers faults fs response fs',
    deps.serde = serde → SameAssignment cli config →
    Ends (ExecWith faults) (acceptBatch deps config surroundings headers body) fs
        (.ok response) fs' →
    response.status ∉ [400, 403]

/-- An event of the run or a health report, as `validate` sees it. -/
private theorem batched_stampedBy {event : DamEvent} (hbatched : Batched lib cli.assignment
    ((EventProcessor.new (cli.processorConfig salt)).emittedRecords lib records) event) :
    StampedBy (cli.processorConfig salt) event := by
  rcases hbatched with hrun | ⟨now, spoolBytes, metrics, rfl⟩
  · rw [EventProcessor.emittedRecords_eq_emitted] at hrun
    exact EventProcessor.emitted_stampedBy hrun
  · exact ⟨rfl, isBlank_append _ (by decide), rfl, rfl, rfl, rfl, rfl, rfl, rfl⟩

/-- No query in a batch is a null value. -/
private theorem batched_nonnull {event : DamEvent} (hbatched : Batched lib cli.assignment
    ((EventProcessor.new (cli.processorConfig salt)).emittedRecords lib records) event) :
    ∀ query ∈ event.query, query ≠ .null := by
  rcases hbatched with hrun | ⟨now, spoolBytes, metrics, rfl⟩
  · rw [EventProcessor.emittedRecords_eq_emitted] at hrun
    intro query hquery
    obtain ⟨members, rfl⟩ := EventProcessor.query_of_emitted
      (fun _ call hcall => objectQuery_of_mem_trace hcall) hrun query hquery
    nofun
  · nofun

theorem flushBatch_eq_some {assignment : Assignment}
    (hflush : flushBatch lib serde assignment createdAt events = some (batch, body)) :
    events ≠ [] ∧ batch = batchOf lib assignment createdAt events ∧
      serde.encode (DamBatch.codec serde) batch = some body := by
  unfold flushBatch at hflush
  split at hflush
  · cases hflush
  · rename_i hevents
    obtain ⟨written, hwritten, hpair⟩ := Option.map_eq_some_iff.mp hflush
    cases hpair
    exact ⟨hevents, rfl, hwritten⟩

/-- A flushed batch of an accepted command line is valid exactly when the sensor is named. -/
private theorem valid_iff (hcli : cli.validateCli = .ok ()) (hnonempty : events ≠ [])
    (hevents : ∀ event ∈ events, Batched lib cli.assignment
      ((EventProcessor.new (cli.processorConfig salt)).emittedRecords lib records) event) :
    (batchOf lib cli.assignment createdAt events).Valid ↔ SensorNamed cli := by
  obtain ⟨htexts, -, -, -⟩ := Cli.validateCli_eq_ok.mp hcli
  have hrequired : ∀ name value, (name, value) ∈ cli.requiredTexts → isBlank value = false :=
    fun name value hmem => htexts (name, value) hmem
  rw [SensorNamed, ← Cli.isBlank_sensorIdOrDefault]
  constructor
  · intro hvalid
    obtain ⟨event, hevent⟩ := List.exists_mem_of_ne_nil events hnonempty
    have hsensor := (hvalid.events event hevent).sensorId
    rwa [(batched_stampedBy (hevents event hevent)).sensorId] at hsensor
  · intro hsensor
    have hcustomer := hrequired "customer_id" cli.customerId (by simp [Cli.requiredTexts])
    have htenant := hrequired "tenant_id" cli.tenantId (by simp [Cli.requiredTexts])
    have hsource := hrequired "source_id" cli.sourceId (by simp [Cli.requiredTexts])
    have hcell := hrequired "regional_cell_id" cli.regionalCellId (by simp [Cli.requiredTexts])
    refine ⟨rfl, isBlank_append _ (by decide), hcustomer, htenant, hsource, hcell, hnonempty, ?_⟩
    intro event hevent
    have hstamped := batched_stampedBy (hevents event hevent)
    have hnode : isBlank event.capture.nodeName = false := by
      rw [hstamped.nodeName]
      exact hrequired "node_name" _ (by simp [Cli.requiredTexts, Cli.processorConfig])
    have hnamed : isBlank event.capture.sensorId = false := by
      rw [hstamped.sensorId]
      exact hsensor
    exact ⟨hstamped.schemaVersion, hstamped.eventId, hnamed, hnode, hstamped.customerId,
      hstamped.tenantId, hstamped.sourceId, hstamped.regionalCellId, hstamped.captureConsistent⟩

private theorem assigns_of_sameAssignment {config : OutpostConfig} {batch : DamBatch}
    (hsame : SameAssignment cli config) (hcustomer : batch.customerId = cli.customerId)
    (htenant : batch.tenantId = cli.tenantId) (hsource : batch.sourceId = cli.sourceId)
    (hcell : batch.regionalCellId = cli.regionalCellId) : config.assigns batch = true := by
  simp [OutpostConfig.assigns, hsame.customerId, hsame.tenantId, hsame.sourceId,
    hsame.regionalCellId, hcustomer, htenant, hsource, hcell]

/-- A request whose body is read as a valid batch of this Outpost is not refused for it. -/
private theorem status_of_valid {deps : Dependencies} {config : OutpostConfig}
    {surroundings : Surroundings} {headers : HeaderMap} {faults : FileOp Place Name → Prop}
    {fs fs' : Disk} {response : Response} {parsed : DamBatch}
    (hread : deps.serde.decode (DamBatch.codec deps.serde) body = some parsed)
    (hvalid : parsed.validate = .ok ()) (hassigned : config.assigns parsed = true)
    (hends : Ends (ExecWith faults) (acceptBatch deps config surroundings headers body) fs
      (.ok response) fs') : response.status ∉ [400, 403] := by
  have hlook : ∀ place s result s',
      ExecWith faults (.readDir place : FileOp Place Name) s result s' → s' = s := by
    rintro place s result s' (hexec | ⟨-, hfails⟩)
    · exact hexec.1
    · obtain ⟨-, -, rfl⟩ := hfails
      rfl
  refine Always.ends (I := fun _ => True)
    (Q := fun result _ => ∀ answer, result = .ok answer → answer.status ∉ [400, 403])
    (acceptBatch_ensures hlook ?_ ?_ ?_) hends response rfl
  · intro refusal hrefusal answer hanswer
    cases hanswer
    unfold checkBatch at hrefusal
    split at hrefusal
    · simp [hread, hvalid, hassigned] at hrefusal
    · cases hrefusal
      decide
  · intro accepted _ answer hanswer
    cases hanswer
    simp [Response.status]
  · intro accepted encoded _ _
    refine (enqueue_outcome deps.sha256 config.spoolMaxBytes).mono (fun _ _ => trivial) ?_
    intro receipt s _
    refine ⟨trivial, fun answer hanswer => ?_⟩
    cases hanswer
    cases receipt with
    | ok id => simp [enqueueResponse, Response.status]
    | error error => simp [enqueueResponse, Response.status]

/-- An Outpost that wants no credential, with the ids of the command line. -/
private def openOutpost (cli : Cli) : OutpostConfig where
  customerId := cli.customerId
  tenantId := cli.tenantId
  sourceId := cli.sourceId
  regionalCellId := cli.regionalCellId
  clusterName := cli.clusterName
  internalToken := none
  spoolMaxBytes := 0
  identityMappingFile := none

/-- The text code with some hash and no messages. -/
private def Dependencies.plain (serde : Serde) : Dependencies where
  serde
  sha256 := .ofTable []
  invalidBatch _ := ""
  unwritableBatch _ := ""
  ioMessage _ := ""

/-- A body that cannot be read is refused as invalid. -/
private theorem refused_of_unread (hread : serde.decode (DamBatch.codec serde) body = none) :
    Ends (ExecWith fun _ => False)
      (acceptBatch (Dependencies.plain serde) (openOutpost cli) .bare [] body) (.empty : Disk)
      (.ok (.error 400 "invalid DAM batch: ")) .empty := by
  have hcheck : checkBatch (Dependencies.plain serde) (openOutpost cli) [] body =
      .error (.error 400 "invalid DAM batch: ") := by
    simp [checkBatch, OutpostConfig.authorizes, openOutpost, Dependencies.plain, hread]
  unfold acceptBatch
  rw [hcheck]
  exact .done

/-- Outpost takes the batch of an accepted command line exactly when the sensor is named and
the queries fit. -/
theorem flushed_acceptable (hlimit : 6 ≤ serde.limit) (hcli : cli.validateCli = .ok ())
    (hevents : ∀ event ∈ events, Batched lib cli.assignment
      ((EventProcessor.new (cli.processorConfig salt)).emittedRecords lib records) event)
    (hflush : flushBatch lib serde cli.assignment createdAt events = some (batch, body)) :
    Acceptable serde cli batch body ↔ SensorNamed cli ∧ QueriesFit serde events := by
  obtain ⟨hnonempty, rfl, hwritten⟩ := flushBatch_eq_some hflush
  have hvalid : (batchOf lib cli.assignment createdAt events).Valid ↔ SensorNamed cli :=
    valid_iff hcli hnonempty hevents
  have hread := Serde.decode_encode hwritten
  have hdepth := (batchOf lib cli.assignment createdAt events).codec_depth_le serde hlimit
  constructor
  · intro hacceptable
    refine ⟨hvalid.mp (DamBatch.validate_eq_ok.mp hacceptable.valid), hdepth.mp ?_⟩
    by_contra hdeep
    rw [if_neg hdeep] at hread
    have hstatus := hacceptable.answered _ _ _ _ _ _ _ _ rfl ⟨rfl, rfl, rfl, rfl⟩
      (refused_of_unread hread)
    exact hstatus (by decide)
  · rintro ⟨hnamed, hfit⟩
    rw [if_pos (hdepth.mpr hfit)] at hread
    have hbatch := hvalid.mpr hnamed
    refine ⟨DamBatch.validate_eq_ok.mpr hbatch, ?_, ?_, ?_⟩
    · exact fun config hsame => assigns_of_sameAssignment hsame rfl rfl rfl rfl
    · exact fun event hevent => (hbatch.events event hevent).captureConsistent
    · rintro deps config surroundings headers faults fs response fs' rfl hsame hends
      have hreread := hbatch.reread deps.serde fun event hevent =>
        batched_nonnull (hevents event hevent)
      exact status_of_valid hread (DamBatch.validate_eq_ok.mpr hreread)
        (assigns_of_sameAssignment hsame rfl rfl rfl rfl) hends

end Batches

/-! ### Concrete command lines -/

/-- The command line of the sample configuration. -/
def sampleCli : Cli where
  customerId := "c"
  tenantId := "t"
  sourceId := "s"
  regionalCellId := "r"
  clusterName := "k"
  nodeName := "n"
  sensorId := some "n"
  outpostUrl := "http://mongodb-dam-outpost:8090/v1/observer/batches"
  batchMaxEvents := 200
  captureQueryContent := true
  maxMessageBytes := 48000000
  cpuProfileHz := 49
  mongodbPort := 27017

/-- The batch of a captured insert is accepted. -/
theorem nestedInsert_acceptable :
    Acceptable (serdeOf (epochBatch (nestedEvents 0))) sampleCli (epochBatch (nestedEvents 0))
      (textOf (epochBatch (nestedEvents 0))) := by
  have hlimit : 6 ≤ (serdeOf (epochBatch (nestedEvents 0))).limit := by
    rw [serdeOf_limit]
    decide
  have hfit : QueriesFit (serdeOf (epochBatch (nestedEvents 0))) (nestedEvents 0) := by
    unfold QueriesFit
    rw [serdeOf_limit]
    decide +kernel
  have hevents : ∀ event ∈ nestedEvents 0, Batched (.ofDigests batchDigests) sampleCli.assignment
      ((EventProcessor.new (sampleCli.processorConfig (some "salt"))).emittedRecords
        (.ofDigests batchDigests) (nestedRecords 0)) event := fun _ hevent => Or.inl hevent
  refine (flushed_acceptable hlimit (by decide) hevents
    (flushBatch_of_oneQuery nestedEvents_flat).1).mpr ⟨?_, hfit⟩
  intro sensorId hgiven
  cases hgiven
  decide

/-- The same command line with an empty sensor id. -/
def unnamedCli : Cli := { sampleCli with sensorId := some "" }

/-- Digests of a health report without a sensor id, and of its batch. -/
def unnamedDigests : List (Bytes × Bytes) :=
  [(unixNanosBytes 0,
      [55, 71, 8, 255, 247, 113, 157, 213, 151, 158, 200, 117, 213, 108, 210, 40, 111, 109, 60, 247,
        236, 49, 122, 59, 37, 99, 42, 171, 40, 236, 55, 187]),
    (unixNanosBytes 0 ++ toUtf8 "health-374708fff7719dd5979ec875d56cd228",
      [29, 175, 204, 171, 73, 173, 122, 106, 14, 50, 35, 118, 12, 222, 157, 102, 134, 162, 200, 95,
        92, 19, 210, 192, 9, 115, 99, 243, 88, 157, 154, 69])]

/-- A health report before the kernel programs are loaded. -/
def unnamedHealth : DamEvent :=
  sensorHealthEvent (.ofDigests unnamedDigests) unnamedCli.assignment 0 0
    { bpfReady := false, bpfDroppedEvents := 0, userspaceDroppedEvents := 0,
      spoolDroppedEvents := 0, parseErrors := 0 }

/-- The batch of that report. -/
def unnamedBatch : DamBatch :=
  batchOf (.ofDigests unnamedDigests) unnamedCli.assignment 0 [unnamedHealth]

private theorem unnamedBatch_flushed :
    flushBatch (.ofDigests unnamedDigests) (serdeOf unnamedBatch) unnamedCli.assignment 0
      [unnamedHealth] = some (unnamedBatch, textOf unnamedBatch) := by
  have hwritten : ((DamBatch.codec (.ofDocument .null 0)).write unnamedBatch).isSome := by
    decide +kernel
  unfold flushBatch
  rw [if_neg (List.cons_ne_nil _ _)]
  exact congrArg (Option.map _) (encode_serdeOf hwritten)

/-- An empty sensor id passes the command line check, and every batch is then refused. -/
theorem unnamedCli_not_acceptable :
    unnamedCli.validateCli = .ok () ∧
      (∀ event ∈ [unnamedHealth], Batched (.ofDigests unnamedDigests) unnamedCli.assignment
        ((EventProcessor.new (unnamedCli.processorConfig none)).emittedRecords
          (.ofDigests unnamedDigests) []) event) ∧
      flushBatch (.ofDigests unnamedDigests) (serdeOf unnamedBatch) unnamedCli.assignment 0
        [unnamedHealth] = some (unnamedBatch, textOf unnamedBatch) ∧
      ¬Acceptable (serdeOf unnamedBatch) unnamedCli unnamedBatch (textOf unnamedBatch) := by
  refine ⟨by decide, ?_, unnamedBatch_flushed, ?_⟩
  · intro event hevent
    exact Or.inr ⟨_, _, _, List.mem_singleton.mp hevent⟩
  · intro hacceptable
    have hsensor := (DamBatch.validate_eq_ok.mp hacceptable.valid).events unnamedHealth
      (List.mem_singleton_self _)
    exact absurd hsensor.sensorId (by decide)

end MongoDam.Pipeline
