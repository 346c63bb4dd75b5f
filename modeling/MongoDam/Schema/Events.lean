import MongoDam.Lib.Json

/-!
# Events and batches

The records Observer exports and Outpost accepts, with the validation every batch
has to pass. Times are nanoseconds since the Unix epoch.
-/

namespace MongoDam.Schema

open Lib

def EVENT_SCHEMA_VERSION : ℕ := 1

def BATCH_SCHEMA_VERSION : ℕ := 1

/-- Where captured data comes from. -/
inductive CaptureSource where
  | cleartextSyscall
  | openSslUprobe
  | userUprobe
  | kernelTracepoint
  | perfEvent
  | sensor
  deriving DecidableEq, Repr

/-- How much of the observed operation was captured. -/
inductive CaptureConfidence where
  | complete
  | partialCapture
  | inferred
  | unknown
  deriving DecidableEq, Repr

structure CaptureMetadata where
  sensorId : String
  nodeName : String
  source : CaptureSource
  confidence : CaptureConfidence
  metadataOnly : Bool
  truncated : Bool
  deriving DecidableEq, Repr

structure KubernetesMetadata where
  clusterName : Option String := none
  nameSpace : Option String := none
  podName : Option String := none
  podUid : Option String := none
  containerName : Option String := none
  workloadKind : Option String := none
  workloadName : Option String := none
  labels : Option (List (String × String)) := none
  deriving DecidableEq, Repr

structure ProcessMetadata where
  pid : ℕ
  tgid : ℕ
  uid : Option ℕ
  gid : Option ℕ
  cgroupId : Option ℕ
  command : String
  executable : Option String
  deriving DecidableEq, Repr

structure ExternalIdentity where
  provider : String
  principalType : String
  principalArn : String
  accountId : String
  credentialSource : String
  credentialResource : String
  deriving DecidableEq, Repr

structure NetworkEndpoint where
  address : Option String := none
  port : Option ℕ := none
  deriving DecidableEq, Repr

structure ConnectionMetadata where
  connectionId : String
  fd : ℤ
  localEndpoint : Option NetworkEndpoint
  remoteEndpoint : Option NetworkEndpoint
  tcpSrttUs : Option ℕ
  retransmits : Option ℕ
  tls : Option Bool
  deriving DecidableEq, Repr

structure MongodbActivity where
  command : String
  database : Option String
  collection : Option String
  principal : Option String
  principalHashed : Bool
  deleteScope : Option String
  deleteStatements : Option ℕ
  affectedDocuments : Option ℕ
  query : Option JsonValue
  requestId : ℤ
  responseId : Option ℤ
  requestBytes : ℕ
  responseBytes : Option ℕ
  durationUs : Option ℕ
  succeeded : Option Bool
  errorCode : Option ℤ
  errorName : Option String
  expectsResponse : Bool
  compressed : Bool
  connection : ConnectionMetadata
  deriving DecidableEq, Repr

structure MongodbConnection where
  state : String
  connection : ConnectionMetadata
  durationUs : Option ℕ
  reason : Option String
  deriving DecidableEq, Repr

structure MongodbAuth where
  mechanism : String
  principal : Option String
  principalHashed : Bool
  succeeded : Option Bool
  connectionId : String
  deriving DecidableEq, Repr

structure DnsActivity where
  operation : String
  transport : String
  queryId : ℕ
  name : Option String
  recordType : Option String
  responseCode : Option ℕ
  answerCount : Option ℕ
  durationUs : Option ℕ
  connection : ConnectionMetadata
  deriving DecidableEq, Repr

structure HostIo where
  operation : String
  durationUs : ℕ
  bytes : Option ℕ
  fd : Option ℤ
  result : ℤ
  deriving DecidableEq, Repr

structure ProfileSample where
  profileType : String
  periodHz : ℕ
  count : ℕ
  userStackId : ℤ
  kernelStackId : ℤ
  durationUs : Option ℕ
  userStackAddresses : List ℕ
  kernelStackAddresses : List ℕ
  deriving DecidableEq, Repr

structure ProcessLifecycle where
  state : String
  executable : Option String
  deriving DecidableEq, Repr

structure SensorHealth where
  status : String
  component : String
  reason : String
  droppedEvents : ℕ
  parseErrors : ℕ
  spoolBytes : ℕ
  deriving DecidableEq, Repr

/-- What an event is about. -/
inductive EventPayload where
  | mongodbActivity (details : MongodbActivity)
  | mongodbConnection (details : MongodbConnection)
  | mongodbAuth (details : MongodbAuth)
  | dnsActivity (details : DnsActivity)
  | hostIo (details : HostIo)
  | profile (details : ProfileSample)
  | processLifecycle (details : ProcessLifecycle)
  | sensorHealth (details : SensorHealth)
  deriving DecidableEq, Repr

structure DamEvent where
  schemaVersion : ℕ
  eventId : String
  observedAt : ℤ
  monotonicTimestampNs : ℕ
  customerId : String
  tenantId : String
  sourceId : String
  regionalCellId : String
  capture : CaptureMetadata
  kubernetes : Option KubernetesMetadata
  process : Option ProcessMetadata
  identity : Option ExternalIdentity
  payload : EventPayload
  deriving DecidableEq, Repr

structure DamBatch where
  schemaVersion : ℕ
  batchId : String
  customerId : String
  tenantId : String
  sourceId : String
  regionalCellId : String
  createdAt : ℤ
  events : List DamEvent
  deriving DecidableEq, Repr

/-- The activity an event reports, if it reports one. -/
def DamEvent.activity? (event : DamEvent) : Option MongodbActivity :=
  match event.payload with
  | .mongodbActivity details => some details
  | _ => none

/-- A Unicode white-space character. -/
def isWhitespace (c : Char) : Bool :=
  let n := c.toNat
  (0x09 ≤ n ∧ n ≤ 0x0d) ∨ (0x2000 ≤ n ∧ n ≤ 0x200a) ∨
    n ∈ [0x20, 0x85, 0xa0, 0x1680, 0x2028, 0x2029, 0x202f, 0x205f, 0x3000]

/-- Nothing is left of a text once white space is trimmed. -/
def isBlank (text : String) : Bool := text.toList.all isWhitespace

/-- Query content is present exactly when the capture says it is not metadata only. -/
def DamEvent.captureConsistent (event : DamEvent) : Bool :=
  match event.payload with
  | .mongodbActivity details => details.query.isSome != event.capture.metadataOnly
  | _ => event.capture.metadataOnly

def DamBatch.validate (batch : DamBatch) : Except String Unit :=
  if batch.schemaVersion ≠ BATCH_SCHEMA_VERSION then .error "unsupported batch schema_version"
  else if isBlank batch.batchId ∨ isBlank batch.customerId ∨ isBlank batch.tenantId ∨
      isBlank batch.sourceId ∨ isBlank batch.regionalCellId then
    .error "batch identity fields must not be empty"
  else if batch.events = [] then .error "batch must contain at least one event"
  else if batch.events.any (fun event => event.schemaVersion ≠ EVENT_SCHEMA_VERSION) then
    .error "unsupported event schema_version"
  else if batch.events.any (fun event => isBlank event.eventId ∨ isBlank event.capture.sensorId ∨
      isBlank event.capture.nodeName) then
    .error "event identity fields must not be empty"
  else if batch.events.any (fun event => event.customerId ≠ batch.customerId ∨
      event.tenantId ≠ batch.tenantId ∨ event.sourceId ≠ batch.sourceId ∨
      event.regionalCellId ≠ batch.regionalCellId) then
    .error "event identity does not match batch identity"
  else if batch.events.any (fun event => !event.captureConsistent) then
    .error "capture metadata does not match MongoDB query-content presence"
  else .ok ()

/-! ### Valid batches -/

/-- An event of a valid batch. -/
structure DamEvent.ValidIn (batch : DamBatch) (event : DamEvent) : Prop where
  schemaVersion : event.schemaVersion = EVENT_SCHEMA_VERSION
  eventId : isBlank event.eventId = false
  sensorId : isBlank event.capture.sensorId = false
  nodeName : isBlank event.capture.nodeName = false
  customerId : event.customerId = batch.customerId
  tenantId : event.tenantId = batch.tenantId
  sourceId : event.sourceId = batch.sourceId
  regionalCellId : event.regionalCellId = batch.regionalCellId
  captureConsistent : event.captureConsistent = true

/-- A batch that passes validation. -/
structure DamBatch.Valid (batch : DamBatch) : Prop where
  schemaVersion : batch.schemaVersion = BATCH_SCHEMA_VERSION
  batchId : isBlank batch.batchId = false
  customerId : isBlank batch.customerId = false
  tenantId : isBlank batch.tenantId = false
  sourceId : isBlank batch.sourceId = false
  regionalCellId : isBlank batch.regionalCellId = false
  nonempty : batch.events ≠ []
  events : ∀ event ∈ batch.events, event.ValidIn batch

private theorem ifThenError_eq_ok {p : Prop} [Decidable p] {error : String}
    {next : Except String Unit} :
    (if p then .error error else next) = .ok () ↔ ¬p ∧ next = .ok () := by
  by_cases h : p
  · simp [h]
  · simp [h]

theorem DamBatch.validate_eq_ok {batch : DamBatch} : batch.validate = .ok () ↔ batch.Valid := by
  unfold validate
  simp only [ifThenError_eq_ok, List.any_eq_true, not_exists, not_and, decide_eq_true_eq, not_or,
    Bool.not_eq_true, ne_eq, Decidable.not_not, Bool.not_eq_eq_eq_not, Bool.not_true,
    Bool.not_eq_false]
  constructor
  · rintro ⟨hversion, ⟨hbatch, hcustomer, htenant, hsource, hcell⟩, hnonempty, hversions, hids,
      hassigned, hconsistent, -⟩
    refine ⟨hversion, hbatch, hcustomer, htenant, hsource, hcell, hnonempty, fun event hevent => ?_⟩
    obtain ⟨hid, hsensor, hnode⟩ := hids event hevent
    obtain ⟨hcustomer, htenant, hsource, hcell⟩ := hassigned event hevent
    exact ⟨hversions event hevent, hid, hsensor, hnode, hcustomer, htenant, hsource, hcell,
      hconsistent event hevent⟩
  · intro h
    refine ⟨h.schemaVersion, ⟨h.batchId, h.customerId, h.tenantId, h.sourceId, h.regionalCellId⟩,
      h.nonempty, ?_, ?_, ?_, ?_, trivial⟩
    · exact fun event hevent => (h.events event hevent).schemaVersion
    · exact fun event hevent => ⟨(h.events event hevent).eventId, (h.events event hevent).sensorId,
        (h.events event hevent).nodeName⟩
    · exact fun event hevent => ⟨(h.events event hevent).customerId,
        (h.events event hevent).tenantId, (h.events event hevent).sourceId,
        (h.events event hevent).regionalCellId⟩
    · exact fun event hevent => (h.events event hevent).captureConsistent

end MongoDam.Schema
