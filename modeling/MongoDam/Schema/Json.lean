import MongoDam.Lib.Codec
import MongoDam.Schema.Events

/-!
# Events and batches as JSON

The derived writers and readers of the schema, one field a line. Absent optional
fields are not written, and the payload of an event is flattened into it as its type
and its details. A batch that is read back is the written one, except that its
dynamic values went through their text. Only captured queries can be nested deep.
-/

namespace MongoDam.Schema

open Lib Codec

/-! ### Parts of an event -/

def CaptureSource.name : CaptureSource → String
  | .cleartextSyscall => "cleartext_syscall"
  | .openSslUprobe => "open_ssl_uprobe"
  | .userUprobe => "user_uprobe"
  | .kernelTracepoint => "kernel_tracepoint"
  | .perfEvent => "perf_event"
  | .sensor => "sensor"

def CaptureConfidence.name : CaptureConfidence → String
  | .complete => "complete"
  | .partialCapture => "partial"
  | .inferred => "inferred"
  | .unknown => "unknown"

def CaptureSource.codec : Codec CaptureSource :=
  enumeration CaptureSource.name
    [.cleartextSyscall, .openSslUprobe, .userUprobe, .kernelTracepoint, .perfEvent, .sensor]
    (by intro source; cases source <;> decide)

def CaptureConfidence.codec : Codec CaptureConfidence :=
  enumeration CaptureConfidence.name [.complete, .partialCapture, .inferred, .unknown]
    (by intro confidence; cases confidence <;> decide)

def CaptureMetadata.codec : Codec CaptureMetadata :=
  Fields.record
    (Fields.start CaptureMetadata.mk
      |>.field "sensor_id" string.required (·.sensorId)
      |>.field "node_name" string.required (·.nodeName)
      |>.field "source" CaptureSource.codec.required (·.source)
      |>.field "confidence" CaptureConfidence.codec.required (·.confidence)
      |>.field "metadata_only" bool.required (·.metadataOnly)
      |>.field "truncated" bool.required (·.truncated))
    (by decide)

def KubernetesMetadata.codec : Codec KubernetesMetadata :=
  Fields.record
    (Fields.start KubernetesMetadata.mk
      |>.field "cluster_name" string.optional (·.clusterName)
      |>.field "namespace" string.optional (·.nameSpace)
      |>.field "pod_name" string.optional (·.podName)
      |>.field "pod_uid" string.optional (·.podUid)
      |>.field "container_name" string.optional (·.containerName)
      |>.field "workload_kind" string.optional (·.workloadKind)
      |>.field "workload_name" string.optional (·.workloadName)
      |>.field "labels" texts.optional (·.labels))
    (by decide)

def ProcessMetadata.codec : Codec ProcessMetadata :=
  Fields.record
    (Fields.start ProcessMetadata.mk
      |>.field "pid" (unsigned 32).required (·.pid)
      |>.field "tgid" (unsigned 32).required (·.tgid)
      |>.field "uid" (unsigned 32).optional (·.uid)
      |>.field "gid" (unsigned 32).optional (·.gid)
      |>.field "cgroup_id" (unsigned 64).optional (·.cgroupId)
      |>.field "command" string.required (·.command)
      |>.field "executable" string.optional (·.executable))
    (by decide)

def ExternalIdentity.codec : Codec ExternalIdentity :=
  Fields.record
    (Fields.start ExternalIdentity.mk
      |>.field "provider" string.required (·.provider)
      |>.field "principal_type" string.required (·.principalType)
      |>.field "principal_arn" string.required (·.principalArn)
      |>.field "account_id" string.required (·.accountId)
      |>.field "credential_source" string.required (·.credentialSource)
      |>.field "credential_resource" string.required (·.credentialResource))
    (by decide)

def NetworkEndpoint.codec : Codec NetworkEndpoint :=
  Fields.record
    (Fields.start NetworkEndpoint.mk
      |>.field "address" string.optional (·.address)
      |>.field "port" (unsigned 16).optional (·.port))
    (by decide)

def ConnectionMetadata.codec : Codec ConnectionMetadata :=
  Fields.record
    (Fields.start ConnectionMetadata.mk
      |>.field "connection_id" string.required (·.connectionId)
      |>.field "fd" (signed 32).required (·.fd)
      |>.field "local" NetworkEndpoint.codec.optional (·.localEndpoint)
      |>.field "remote" NetworkEndpoint.codec.optional (·.remoteEndpoint)
      |>.field "tcp_srtt_us" (unsigned 32).optional (·.tcpSrttUs)
      |>.field "retransmits" (unsigned 32).optional (·.retransmits)
      |>.field "tls" bool.optional (·.tls))
    (by decide)

/-! ### Payloads -/

def MongodbActivity.codec (serde : Serde) : Codec MongodbActivity :=
  Fields.record
    (Fields.start MongodbActivity.mk
      |>.field "command" string.required (·.command)
      |>.field "database" string.optional (·.database)
      |>.field "collection" string.optional (·.collection)
      |>.field "principal" string.optional (·.principal)
      |>.field "principal_hashed" (bool.defaulted false) (·.principalHashed)
      |>.field "delete_scope" string.optional (·.deleteScope)
      |>.field "delete_statements" (unsigned 32).optional (·.deleteStatements)
      |>.field "affected_documents" (unsigned 64).optional (·.affectedDocuments)
      |>.field "query" (Slot.dynamic serde.readDouble) (·.query)
      |>.field "request_id" (signed 32).required (·.requestId)
      |>.field "response_id" (signed 32).optional (·.responseId)
      |>.field "request_bytes" (unsigned 32).required (·.requestBytes)
      |>.field "response_bytes" (unsigned 32).optional (·.responseBytes)
      |>.field "duration_us" (unsigned 64).optional (·.durationUs)
      |>.field "succeeded" bool.optional (·.succeeded)
      |>.field "error_code" (signed 32).optional (·.errorCode)
      |>.field "error_name" string.optional (·.errorName)
      |>.field "expects_response" bool.required (·.expectsResponse)
      |>.field "compressed" bool.required (·.compressed)
      |>.field "connection" ConnectionMetadata.codec.required (·.connection))
    (by simp [Fields.field, Fields.start])

def MongodbConnection.codec : Codec MongodbConnection :=
  Fields.record
    (Fields.start MongodbConnection.mk
      |>.field "state" string.required (·.state)
      |>.field "connection" ConnectionMetadata.codec.required (·.connection)
      |>.field "duration_us" (unsigned 64).optional (·.durationUs)
      |>.field "reason" string.optional (·.reason))
    (by decide)

def MongodbAuth.codec : Codec MongodbAuth :=
  Fields.record
    (Fields.start MongodbAuth.mk
      |>.field "mechanism" string.required (·.mechanism)
      |>.field "principal" string.optional (·.principal)
      |>.field "principal_hashed" bool.required (·.principalHashed)
      |>.field "succeeded" bool.optional (·.succeeded)
      |>.field "connection_id" string.required (·.connectionId))
    (by decide)

def DnsActivity.codec : Codec DnsActivity :=
  Fields.record
    (Fields.start DnsActivity.mk
      |>.field "operation" string.required (·.operation)
      |>.field "transport" string.required (·.transport)
      |>.field "query_id" (unsigned 16).required (·.queryId)
      |>.field "name" string.optional (·.name)
      |>.field "record_type" string.optional (·.recordType)
      |>.field "response_code" (unsigned 8).optional (·.responseCode)
      |>.field "answer_count" (unsigned 16).optional (·.answerCount)
      |>.field "duration_us" (unsigned 64).optional (·.durationUs)
      |>.field "connection" ConnectionMetadata.codec.required (·.connection))
    (by decide)

def HostIo.codec : Codec HostIo :=
  Fields.record
    (Fields.start HostIo.mk
      |>.field "operation" string.required (·.operation)
      |>.field "duration_us" (unsigned 64).required (·.durationUs)
      |>.field "bytes" (unsigned 64).optional (·.bytes)
      |>.field "fd" (signed 32).optional (·.fd)
      |>.field "result" (signed 64).required (·.result))
    (by decide)

def ProfileSample.codec : Codec ProfileSample :=
  Fields.record
    (Fields.start ProfileSample.mk
      |>.field "profile_type" string.required (·.profileType)
      |>.field "period_hz" (unsigned 32).required (·.periodHz)
      |>.field "count" (unsigned 64).required (·.count)
      |>.field "user_stack_id" (signed 32).required (·.userStackId)
      |>.field "kernel_stack_id" (signed 32).required (·.kernelStackId)
      |>.field "duration_us" (unsigned 64).optional (·.durationUs)
      |>.field "user_stack_addresses" (unsigned 64).nonempty (·.userStackAddresses)
      |>.field "kernel_stack_addresses" (unsigned 64).nonempty (·.kernelStackAddresses))
    (by decide)

def ProcessLifecycle.codec : Codec ProcessLifecycle :=
  Fields.record
    (Fields.start ProcessLifecycle.mk
      |>.field "state" string.required (·.state)
      |>.field "executable" string.optional (·.executable))
    (by decide)

def SensorHealth.codec : Codec SensorHealth :=
  Fields.record
    (Fields.start SensorHealth.mk
      |>.field "status" string.required (·.status)
      |>.field "component" string.required (·.component)
      |>.field "reason" string.required (·.reason)
      |>.field "dropped_events" (unsigned 64).required (·.droppedEvents)
      |>.field "parse_errors" (unsigned 64).required (·.parseErrors)
      |>.field "spool_bytes" (unsigned 64).required (·.spoolBytes))
    (by decide)

/-- Details of one variant, under its name. -/
def EventPayload.writeVariant (name : String) (codec : Codec α) (details : α) :
    Option (String × JsonValue) :=
  (codec.write details).map fun document => (name, document)

private theorem EventPayload.writeVariant_eq_some {name variant : String} {codec : Codec α}
    {details : α} {document : JsonValue}
    (h : writeVariant name codec details = some (variant, document)) :
    variant = name ∧ codec.write details = some document := by
  obtain ⟨written, hwritten, h⟩ := Option.map_eq_some_iff.mp h
  cases h
  exact ⟨rfl, hwritten⟩

def EventPayload.union (serde : Serde) : Variants EventPayload where
  write
    | .mongodbActivity details =>
      writeVariant "mongodb_activity" (MongodbActivity.codec serde) details
    | .mongodbConnection details =>
      writeVariant "mongodb_connection" MongodbConnection.codec details
    | .mongodbAuth details => writeVariant "mongodb_auth" MongodbAuth.codec details
    | .dnsActivity details => writeVariant "dns_activity" DnsActivity.codec details
    | .hostIo details => writeVariant "host_io" HostIo.codec details
    | .profile details => writeVariant "profile" ProfileSample.codec details
    | .processLifecycle details => writeVariant "process_lifecycle" ProcessLifecycle.codec details
    | .sensorHealth details => writeVariant "sensor_health" SensorHealth.codec details
  read name document :=
    match name with
    | "mongodb_activity" => ((MongodbActivity.codec serde).read document).map .mongodbActivity
    | "mongodb_connection" => (MongodbConnection.codec.read document).map .mongodbConnection
    | "mongodb_auth" => (MongodbAuth.codec.read document).map .mongodbAuth
    | "dns_activity" => (DnsActivity.codec.read document).map .dnsActivity
    | "host_io" => (HostIo.codec.read document).map .hostIo
    | "profile" => (ProfileSample.codec.read document).map .profile
    | "process_lifecycle" => (ProcessLifecycle.codec.read document).map .processLifecycle
    | "sensor_health" => (SensorHealth.codec.read document).map .sensorHealth
    | _ => none
  reread
    | .mongodbActivity details => .mongodbActivity ((MongodbActivity.codec serde).reread details)
    | .mongodbConnection details => .mongodbConnection (MongodbConnection.codec.reread details)
    | .mongodbAuth details => .mongodbAuth (MongodbAuth.codec.reread details)
    | .dnsActivity details => .dnsActivity (DnsActivity.codec.reread details)
    | .hostIo details => .hostIo (HostIo.codec.reread details)
    | .profile details => .profile (ProfileSample.codec.reread details)
    | .processLifecycle details => .processLifecycle (ProcessLifecycle.codec.reread details)
    | .sensorHealth details => .sensorHealth (SensorHealth.codec.reread details)
  depth
    | .mongodbActivity details => (MongodbActivity.codec serde).depth details
    | .mongodbConnection details => MongodbConnection.codec.depth details
    | .mongodbAuth details => MongodbAuth.codec.depth details
    | .dnsActivity details => DnsActivity.codec.depth details
    | .hostIo details => HostIo.codec.depth details
    | .profile details => ProfileSample.codec.depth details
    | .processLifecycle details => ProcessLifecycle.codec.depth details
    | .sensorHealth details => SensorHealth.codec.depth details
  read_write := by
    intro payload name document h
    cases payload <;> obtain ⟨rfl, hwritten⟩ := writeVariant_eq_some h
    all_goals simp only [Codec.read_write _ hwritten, Option.map_some]
  depth_write := by
    intro payload name document h
    cases payload <;> obtain ⟨-, hwritten⟩ := writeVariant_eq_some h
    all_goals exact Codec.depth_write _ hwritten

/-! ### Events and batches -/

def DamEvent.codec (serde : Serde) : Codec DamEvent :=
  Fields.object
    (Fields.start DamEvent.mk
      |>.field "schema_version" (unsigned 16).required (·.schemaVersion)
      |>.field "event_id" string.required (·.eventId)
      |>.field "observed_at" (time serde).required (·.observedAt)
      |>.field "monotonic_timestamp_ns" (unsigned 64).required (·.monotonicTimestampNs)
      |>.field "customer_id" string.required (·.customerId)
      |>.field "tenant_id" string.required (·.tenantId)
      |>.field "source_id" string.required (·.sourceId)
      |>.field "regional_cell_id" string.required (·.regionalCellId)
      |>.field "capture" CaptureMetadata.codec.required (·.capture)
      |>.field "kubernetes" KubernetesMetadata.codec.optional (·.kubernetes)
      |>.field "process" ProcessMetadata.codec.optional (·.process)
      |>.field "identity" ExternalIdentity.codec.optional (·.identity)
      |>.tagged "event_type" "details" (EventPayload.union serde) (·.payload))
    (by simp [Fields.field, Fields.tagged, Fields.start])

def DamBatch.codec (serde : Serde) : Codec DamBatch :=
  Fields.record
    (Fields.start DamBatch.mk
      |>.field "schema_version" (unsigned 16).required (·.schemaVersion)
      |>.field "batch_id" string.required (·.batchId)
      |>.field "customer_id" string.required (·.customerId)
      |>.field "tenant_id" string.required (·.tenantId)
      |>.field "source_id" string.required (·.sourceId)
      |>.field "regional_cell_id" string.required (·.regionalCellId)
      |>.field "created_at" (time serde).required (·.createdAt)
      |>.field "events" (DamEvent.codec serde).list.required (·.events))
    (by simp [Fields.field, Fields.start])

/-- The query an event carries, if it carries one. -/
def DamEvent.query (event : DamEvent) : Option JsonValue :=
  event.activity?.bind (·.query)

/-! ### What is read back -/

section Reread

variable (serde : Serde)

@[simp] theorem DamBatch.reread_batchId (batch : DamBatch) :
    ((codec serde).reread batch).batchId = batch.batchId := rfl

@[simp] theorem DamBatch.reread_events (batch : DamBatch) :
    ((codec serde).reread batch).events = batch.events.map (DamEvent.codec serde).reread := rfl

@[simp] theorem DamEvent.reread_eventId (event : DamEvent) :
    ((codec serde).reread event).eventId = event.eventId := rfl

/-- An event whose query is no null value is read back with a query exactly when it had one. -/
private theorem DamEvent.reread_captureConsistent {event : DamEvent}
    (hquery : ∀ query ∈ event.query, query ≠ .null) :
    ((codec serde).reread event).captureConsistent = event.captureConsistent := by
  cases hpayload : event.payload with
  | mongodbActivity activity =>
    have hsome : ((MongodbActivity.codec serde).reread activity).query.isSome =
        activity.query.isSome := by
      change ((Slot.dynamic serde.readDouble).reread activity.query).isSome = _
      cases hactivity : activity.query with
      | none => rfl
      | some document =>
        have hsame : event.query = some document := by
          simp [DamEvent.query, activity?, hpayload, hactivity]
        have hnonnull : document ≠ .null := hquery document hsame
        cases document with
        | null => exact absurd rfl hnonnull
        | _ => rfl
    have hreread : ((codec serde).reread event).payload =
        .mongodbActivity ((MongodbActivity.codec serde).reread activity) := by
      change (EventPayload.union serde).reread event.payload = _
      rw [hpayload]
      rfl
    unfold captureConsistent
    rw [hreread, hpayload]
    dsimp only
    rw [hsome]
    rfl
  | _ =>
    have hreread : ((codec serde).reread event).payload =
        (EventPayload.union serde).reread event.payload := rfl
    unfold captureConsistent
    rw [hreread, hpayload]
    rfl

/-- A valid batch whose queries are no null values is valid when it is read back. -/
theorem DamBatch.Valid.reread {batch : DamBatch} (hvalid : batch.Valid)
    (hqueries : ∀ event ∈ batch.events, ∀ query ∈ event.query, query ≠ .null) :
    ((codec serde).reread batch).Valid where
  schemaVersion := hvalid.schemaVersion
  batchId := hvalid.batchId
  customerId := hvalid.customerId
  tenantId := hvalid.tenantId
  sourceId := hvalid.sourceId
  regionalCellId := hvalid.regionalCellId
  nonempty := by simp [hvalid.nonempty]
  events := by
    intro event hevent
    rw [reread_events] at hevent
    obtain ⟨written, hwritten, rfl⟩ := List.mem_map.mp hevent
    have hwas : written.ValidIn batch := hvalid.events written hwritten
    have hconsistent := DamEvent.reread_captureConsistent serde (hqueries written hwritten)
    exact ⟨hwas.schemaVersion, hwas.eventId, hwas.sensorId, hwas.nodeName, hwas.customerId,
      hwas.tenantId, hwas.sourceId, hwas.regionalCellId, hconsistent.trans hwas.captureConsistent⟩

end Reread

/-! ### Nesting -/

private theorem connectionMetadata_depth (n : ℕ) (connection : ConnectionMetadata) :
    ConnectionMetadata.codec.depth connection ≤ n + 2 := by
  have hendpoint (endpoint : NetworkEndpoint) : NetworkEndpoint.codec.depth endpoint ≤ n + 1 := by
    simp [NetworkEndpoint.codec]
  simp [ConnectionMetadata.codec, hendpoint]

private theorem addresses_depth (addresses : List ℕ) :
    (unsigned 64).nonempty.depth addresses ≤ 1 :=
  nonempty_depth_le (list_depth_le.mpr fun _ _ => Nat.zero_le 0)

/-- Without a query the details of an event are at most three levels deep. -/
private theorem union_depth (serde : Serde) {n : ℕ} (hn : 2 ≤ n) (payload : EventPayload) :
    (EventPayload.union serde).depth payload ≤ n + 1 ↔
      ∀ details, payload = .mongodbActivity details → ∀ query ∈ details.query, query.depth ≤ n := by
  have hconnection (connection : ConnectionMetadata) :
      ConnectionMetadata.codec.depth connection ≤ n :=
    Nat.le_trans (connectionMetadata_depth 0 connection) hn
  have haddresses (addresses : List ℕ) : (unsigned 64).nonempty.depth addresses ≤ n :=
    Nat.le_trans (addresses_depth addresses) (by omega)
  cases payload <;>
    simp [EventPayload.union, MongodbActivity.codec, MongodbConnection.codec, MongodbAuth.codec,
      DnsActivity.codec, HostIo.codec, ProfileSample.codec, ProcessLifecycle.codec,
      SensorHealth.codec, hconnection, haddresses]

private theorem event_depth (serde : Serde) {n : ℕ} (hn : 2 ≤ n) (event : DamEvent) :
    (DamEvent.codec serde).depth event ≤ n + 2 ↔ ∀ query ∈ event.query, query.depth ≤ n := by
  have hcapture : CaptureMetadata.codec.depth event.capture ≤ n + 1 := by
    simp [CaptureMetadata.codec, CaptureSource.codec, CaptureConfidence.codec]
  have hkubernetes (kubernetes : KubernetesMetadata) :
      KubernetesMetadata.codec.depth kubernetes ≤ n + 1 := by
    simp [KubernetesMetadata.codec]
    intros
    omega
  have hprocess (process : ProcessMetadata) : ProcessMetadata.codec.depth process ≤ n + 1 := by
    simp [ProcessMetadata.codec]
  have hidentity (identity : ExternalIdentity) : ExternalIdentity.codec.depth identity ≤ n + 1 := by
    simp [ExternalIdentity.codec]
  have hquery : (∀ query ∈ event.query, query.depth ≤ n) ↔
      ∀ details, event.payload = .mongodbActivity details →
        ∀ query ∈ details.query, query.depth ≤ n := by
    unfold DamEvent.query DamEvent.activity?
    cases event.payload <;> simp
  rw [hquery, ← union_depth serde hn]
  simp [DamEvent.codec, hcapture, hkubernetes, hprocess, hidentity]

/-- A batch nests four levels around the queries of its events, and at most six levels
without them. -/
theorem DamBatch.codec_depth_le (serde : Serde) {limit : ℕ} (hlimit : 6 ≤ limit)
    (batch : DamBatch) :
    (DamBatch.codec serde).depth batch ≤ limit ↔
      ∀ event ∈ batch.events, ∀ query ∈ event.query, query.depth + 4 ≤ limit := by
  obtain ⟨n, rfl⟩ : ∃ n, limit = n + 4 := ⟨limit - 4, by omega⟩
  have hevents : (DamBatch.codec serde).depth batch ≤ n + 4 ↔
      ∀ event ∈ batch.events, (DamEvent.codec serde).depth event ≤ n + 2 := by
    simp [DamBatch.codec]
  rw [hevents]
  refine forall₂_congr fun event _ => ?_
  rw [event_depth serde (by omega)]
  refine forall₂_congr fun query _ => ?_
  omega

end MongoDam.Schema
