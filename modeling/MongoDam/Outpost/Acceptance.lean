import MongoDam.Outpost.Intake

/-!
# What Outpost accepts

Whatever a request carries, the spool gains at most one item, and only with the right
credential. The item is a valid batch of this Outpost with the submitted events; its
identities come from the mapping alone. Enriching it again would change nothing.
-/

namespace MongoDam.Outpost

open Lib Schema Spool FileSystem Program

variable {deps : Dependencies} {config : OutpostConfig} {surroundings : Surroundings}
  {headers : HeaderMap} {body : Bytes}

/-! ### Enrichment -/

/-- What enrichment does to one event. -/
def enrichEvent (deps : Dependencies) (config : OutpostConfig) (surroundings : Surroundings)
    (event : DamEvent) : DamEvent :=
  enrichKubernetes config.clusterName surroundings.kubernetes
    (enrichExternalIdentity (currentIdentities deps config surroundings) event)

theorem enrichBatch_eq (batch : DamBatch) :
    enrichBatch deps config surroundings batch =
      { batch with events := batch.events.map (enrichEvent deps config surroundings) } := by
  unfold enrichBatch enrichExternalIdentities
  dsimp only
  rw [List.map_map]
  rfl

/-- Enriching metadata again changes nothing. -/
theorem enrichMetadata_idem (clusterName : String) (cache : Table String KubernetesMetadata)
    (existing : Option KubernetesMetadata) :
    enrichMetadata clusterName cache (some (enrichMetadata clusterName cache existing)) =
      enrichMetadata clusterName cache existing := by
  cases hpod : (existing.getD {}).podUid.bind cache.get? with
  | none => simp [enrichMetadata, hpod]
  | some enriched =>
    cases hcontainer : (existing.getD {}).containerName with
    | none => simp [enrichMetadata, hpod, hcontainer]
    | some container => simp [enrichMetadata, hpod, hcontainer]

theorem enrichEvent_idem (event : DamEvent) :
    enrichEvent deps config surroundings (enrichEvent deps config surroundings event) =
      enrichEvent deps config surroundings event := by
  simp [enrichEvent, enrichKubernetes, enrichExternalIdentity, enrichMetadata_idem]

theorem enrichBatch_idem (batch : DamBatch) :
    enrichBatch deps config surroundings (enrichBatch deps config surroundings batch) =
      enrichBatch deps config surroundings batch := by
  simp [enrichBatch_eq, enrichEvent_idem]

/-- Enrichment does not change whether a batch is valid. -/
theorem enrichBatch_validate (batch : DamBatch) :
    (enrichBatch deps config surroundings batch).validate = batch.validate := by
  have hconsistent : ∀ event : DamEvent,
      (enrichEvent deps config surroundings event).captureConsistent = event.captureConsistent :=
    fun _ => rfl
  rw [enrichBatch_eq]
  unfold DamBatch.validate
  simp only [List.any_map, Function.comp_def, hconsistent, List.map_eq_nil_iff]
  rfl

/-! ### Checks -/

/-- A batch that passes the checks. -/
structure Passes (deps : Dependencies) (config : OutpostConfig) (headers : HeaderMap)
    (body : Bytes) (batch : DamBatch) : Prop where
  credential : ∀ token, config.internalToken = some token → providedToken headers = some token
  submitted : deps.serde.decode (DamBatch.codec deps.serde) body = some batch
  valid : batch.validate = .ok ()
  assigned : config.assigns batch = true

theorem checkBatch_ok {batch : DamBatch} :
    checkBatch deps config headers body = .ok batch ↔ Passes deps config headers body batch := by
  have hcredential : config.authorizes headers = true ↔
      ∀ token, config.internalToken = some token → providedToken headers = some token := by
    unfold OutpostConfig.authorizes
    cases config.internalToken with
    | none => simp
    | some token => simp
  unfold checkBatch
  constructor
  · intro h
    split at h
    · rename_i hauthorized
      split at h
      · cases h
      · rename_i parsed hparsed
        split at h
        · cases h
        · rename_i hvalid
          split at h
          · rename_i hassigned
            cases h
            exact ⟨hcredential.mp hauthorized, hparsed, hvalid, hassigned⟩
          · cases h
    · cases h
  · intro h
    rw [if_pos (hcredential.mpr h.credential), h.submitted]
    simp [h.valid, h.assigned]

/-! ### The contract -/

/-- The event is an activity or an authentication of a hashed principal. -/
inductive NamesPrincipal : EventPayload → String → Prop
  | activity {activity : MongodbActivity} {principal : String} (hhashed : activity.principalHashed)
      (hprincipal : activity.principal = some principal) :
      NamesPrincipal (.mongodbActivity activity) principal
  | auth {auth : MongodbAuth} {principal : String} (hhashed : auth.principalHashed)
      (hprincipal : auth.principal = some principal) :
      NamesPrincipal (.mongodbAuth auth) principal

/-- The mapping file can be used, and one of its entries maps the principal to the identity. -/
def MapsTo (deps : Dependencies) (config : OutpostConfig) (surroundings : Surroundings)
    (principal : String) (identity : ExternalIdentity) : Prop :=
  ∃ path encoded identities document, config.identityMappingFile = some path ∧
    surroundings.readFile path = .ok encoded ∧
    parseIdentityMappings deps.serde encoded = .ok identities ∧
    deps.serde.decode IdentityMappingDocument.codec encoded = some document ∧
    Mapped document.mappings principal identity

/-- An accepted event is the submitted one where it matters. -/
structure SameObservation (submitted stored : DamEvent) : Prop where
  eventId : stored.eventId = submitted.eventId
  capture : stored.capture = submitted.capture
  process : stored.process = submitted.process
  payload : stored.payload = submitted.payload

/-- What a stored batch has to do with the request and the configuration. -/
structure Stores (deps : Dependencies) (config : OutpostConfig) (surroundings : Surroundings)
    (headers : HeaderMap) (body : Bytes) (submitted stored : DamBatch) (encoded : Bytes) :
    Prop where
  credential : ∀ token, config.internalToken = some token → providedToken headers = some token
  parsed : deps.serde.decode (DamBatch.codec deps.serde) body = some submitted
  written : deps.serde.encode (DamBatch.codec deps.serde) stored = some encoded
  valid : stored.validate = .ok ()
  assigned : config.assigns stored = true
  eventsAssigned : ∀ event ∈ stored.events, event.customerId = config.customerId ∧
    event.tenantId = config.tenantId ∧ event.sourceId = config.sourceId ∧
    event.regionalCellId = config.regionalCellId
  batchId : stored.batchId = submitted.batchId
  events : List.Forall₂ SameObservation submitted.events stored.events
  identities : ∀ event ∈ stored.events, ∀ identity, event.identity = some identity ↔
    ∃ principal, NamesPrincipal event.payload principal ∧
      MapsTo deps config surroundings principal identity

/-- The spool gains at most one item, a refused request leaves everything as it was, and
enrichment is idempotent. -/
structure Contract (deps : Dependencies) (config : OutpostConfig) (surroundings : Surroundings)
    (headers : HeaderMap) (body : Bytes) (fs : Disk) (result : Except SpoolError Response)
    (fs' : Disk) : Prop where
  responds : ∃ response, result = .ok response
  stored : held fs' = held fs ∨ ∃ submitted stored encoded,
    Stores deps config surroundings headers body submitted stored encoded ∧
      held fs' = (held fs).set .root (bodyId deps.sha256 encoded) (some encoded)
  refused : ∀ response, result = .ok response → response.status ∈ [401, 400, 403] → fs' = fs
  idempotent : ∀ batch, enrichBatch deps config surroundings
      (enrichBatch deps config surroundings batch) = enrichBatch deps config surroundings batch

theorem hashedPrincipal_eq_some {payload : EventPayload} {principal : String} :
    hashedPrincipal payload = some principal ↔ NamesPrincipal payload principal := by
  constructor
  · intro h
    unfold hashedPrincipal at h
    split at h
    · split at h
      · rename_i hhashed
        exact .activity hhashed h
      · cases h
    · split at h
      · rename_i hhashed
        exact .auth hhashed h
      · cases h
    · cases h
  · rintro (⟨hhashed, hprincipal⟩ | ⟨hhashed, hprincipal⟩)
    · exact (if_pos hhashed).trans hprincipal
    · exact (if_pos hhashed).trans hprincipal

theorem currentIdentities_get? {principal : String} {identity : ExternalIdentity} :
    (currentIdentities deps config surroundings).get? principal = some identity ↔
      MapsTo deps config surroundings principal identity := by
  constructor
  · intro h
    unfold currentIdentities at h
    split at h
    · cases h
    · rename_i path hpath
      split at h
      · rename_i identities hload
        unfold loadIdentityMappings at hload
        split at hload
        · rename_i encoded hencoded
          obtain ⟨document, hdocument, -, -, hmapped⟩ := parseIdentityMappings_get? hload
          exact ⟨path, encoded, identities, document, hpath, hencoded, hload, hdocument,
            (hmapped _ _).mp h⟩
        · cases hload
          cases h
        · cases hload
      · cases h
  · rintro ⟨path, encoded, identities, document, hpath, hencoded, hparse, hdocument, hmapped⟩
    obtain ⟨document', hdocument', -, -, hget⟩ := parseIdentityMappings_get? hparse
    have hsame : document' = document := Option.some.inj (hdocument'.symm.trans hdocument)
    rw [hsame] at hget
    unfold currentIdentities loadIdentityMappings
    simp only [hpath, hencoded, hparse]
    exact (hget _ _).mpr hmapped

/-- What the checks and enrichment make of a request. -/
private theorem stores_of_passes {batch : DamBatch} {encoded : Bytes}
    (hpasses : Passes deps config headers body batch)
    (hencoded : deps.serde.encode (DamBatch.codec deps.serde)
      (enrichBatch deps config surroundings batch) = some encoded) :
    Stores deps config surroundings headers body batch
      (enrichBatch deps config surroundings batch) encoded := by
  have hvalid : (enrichBatch deps config surroundings batch).validate = .ok () := by
    rw [enrichBatch_validate]
    exact hpasses.valid
  have hassigned : config.assigns (enrichBatch deps config surroundings batch) = true :=
    hpasses.assigned
  have hids : batch.customerId = config.customerId ∧ batch.tenantId = config.tenantId ∧
      batch.sourceId = config.sourceId ∧ batch.regionalCellId = config.regionalCellId := by
    simpa [OutpostConfig.assigns] using hpasses.assigned
  obtain ⟨hcustomer, htenant, hsource, hcell⟩ := hids
  refine ⟨hpasses.credential, hpasses.submitted, hencoded, hvalid, hassigned, ?_, rfl, ?_, ?_⟩
  · intro event hevent
    have hevent := (DamBatch.validate_eq_ok.mp hvalid).events event hevent
    exact ⟨hevent.customerId.trans hcustomer, hevent.tenantId.trans htenant,
      hevent.sourceId.trans hsource, hevent.regionalCellId.trans hcell⟩
  · rw [enrichBatch_eq]
    dsimp only
    rw [List.forall₂_map_right_iff]
    exact List.forall₂_same.mpr fun event _ => ⟨rfl, rfl, rfl, rfl⟩
  · intro event hevent identity
    rw [enrichBatch_eq] at hevent
    obtain ⟨submitted, -, rfl⟩ := List.mem_map.mp hevent
    change (hashedPrincipal submitted.payload).bind _ = some identity ↔ _
    rw [Option.bind_eq_some_iff]
    simp only [hashedPrincipal_eq_some, currentIdentities_get?]
    rfl

/-- A refusal before the spool is reached is the only way to these statuses. -/
private theorem enqueueResponse_status {batch : DamBatch} {receipt : Except SpoolError String} :
    (enqueueResponse deps batch receipt).status ∉ [401, 400, 403] := by
  cases receipt with
  | ok id => simp [enqueueResponse, Response.status]
  | error error => simp [enqueueResponse, Response.status]

/-- Every request keeps the contract, whatever it carries and whichever file operations fail. -/
theorem acceptBatch_contract {faults : FileOp Place Name → Prop} {fs fs' : Disk}
    {result : Except SpoolError Response} (hnumbered : Numbered fs)
    (hends : Ends (ExecWith faults) (acceptBatch deps config surroundings headers body) fs
      result fs') :
    Contract deps config surroundings headers body fs result fs' := by
  have hread : ∀ place s result s',
      ExecWith faults (.readDir place : FileOp Place Name) s result s' → s' = s := by
    rintro place s result s' (hexec | ⟨-, hfails⟩)
    · exact hexec.1
    · obtain ⟨-, -, rfl⟩ := hfails
      rfl
  refine Always.ends (I := fun _ => True) (acceptBatch_ensures hread ?_ ?_ ?_) hends
  · intro response hresponse
    exact ⟨⟨response, rfl⟩, Or.inl rfl, fun _ _ _ => rfl, enrichBatch_idem⟩
  · intro batch hbatch
    refine ⟨⟨_, rfl⟩, Or.inl rfl, fun response hresponse hstatus => ?_, enrichBatch_idem⟩
    cases hresponse
    simp [Response.status] at hstatus
  · intro batch encoded hbatch hencoded
    have hstores : Stores deps config surroundings headers body batch
        (enrichBatch deps config surroundings batch) encoded :=
      stores_of_passes (checkBatch_ok.mp hbatch) hencoded
    refine (enqueue_outcome deps.sha256 config.spoolMaxBytes).mono (fun _ _ => trivial) ?_
    intro receipt s houtcome
    refine ⟨trivial, ⟨_, rfl⟩, ?_, fun response hresponse hstatus => ?_, enrichBatch_idem⟩
    · have hheld : held s = held fs ∨
          held s = (held fs).set .root (bodyId deps.sha256 encoded) (some encoded) := by
        cases houtcome with
        | kept _ => exact Or.inl rfl
        | unlisted _ => exact Or.inl rfl
        | full _ _ => exact Or.inl rfl
        | stored _ _ hstored =>
          cases hstored with
          | occupied _ => exact Or.inl rfl
          | uncreated _ => exact Or.inl rfl
          | unwritten _ _ => exact Or.inl hnumbered.held_written
          | unsynced _ _ => exact Or.inl hnumbered.held_written
          | unmoved _ _ => exact Or.inl hnumbered.held_written
          | undurable _ _ => exact Or.inr hnumbered.held_stored
          | done _ => exact Or.inr hnumbered.held_stored
      rcases hheld with hsame | hadded
      · exact Or.inl hsame
      · exact Or.inr ⟨batch, _, encoded, hstores, hadded⟩
    · cases hresponse
      exact absurd hstatus enqueueResponse_status

/-! ### A concrete request -/

/-- An event of a pod. -/
def podEvent : DamEvent where
  schemaVersion := EVENT_SCHEMA_VERSION
  eventId := "evt-0"
  observedAt := 0
  monotonicTimestampNs := 0
  customerId := "c"
  tenantId := "t"
  sourceId := "s"
  regionalCellId := "r"
  capture :=
    { sensorId := "n"
      nodeName := "n"
      source := .kernelTracepoint
      confidence := .inferred
      metadataOnly := true
      truncated := false }
  kubernetes := some { clusterName := some "k", podUid := some "p" }
  process := none
  identity := none
  payload := .processLifecycle { state := "exec", executable := none }

/-- A batch of one event. -/
def podBatch : DamBatch where
  schemaVersion := BATCH_SCHEMA_VERSION
  batchId := "batch-0"
  customerId := "c"
  tenantId := "t"
  sourceId := "s"
  regionalCellId := "r"
  createdAt := 0
  events := [podEvent]

/-- The document of a batch written at the epoch. -/
def epochDocument (batch : DamBatch) : JsonValue :=
  ((DamBatch.codec (.ofDocument .null 0)).write batch).getD .null

/-- The text of a batch written at the epoch. -/
def epochText (batch : DamBatch) : Bytes := toUtf8 ((epochDocument batch).render fun _ => "")

/-- An Outpost that wants a token. -/
def OutpostConfig.sample : OutpostConfig where
  customerId := "c"
  tenantId := "t"
  sourceId := "s"
  regionalCellId := "r"
  clusterName := "k"
  internalToken := some "secret"
  spoolMaxBytes := 2048
  identityMappingFile := none

/-- The text code for some batches, and the digests of some bodies. -/
def Dependencies.ofBatches (digests : List (Bytes × Bytes)) (batches : List DamBatch)
    (hdistinct : ((batches.map epochDocument).map fun document =>
      toUtf8 (document.render fun _ => "")).Nodup) : Dependencies where
  serde := .ofDocuments (batches.map epochDocument) 127 hdistinct
  sha256 := .ofTable digests
  invalidBatch _ := ""
  unwritableBatch _ := ""
  ioMessage _ := ""

/-- No pods and no files. -/
def Surroundings.bare : Surroundings where
  kubernetes := .empty
  readFile _ := .error .notFound

/-- The right credential. -/
def bearerHeaders : HeaderMap := [("authorization", toUtf8 "Bearer secret")]

/-- The digest of the sample batch. -/
def podDigest : Bytes × Bytes :=
  (epochText podBatch,
    [197, 207, 156, 30, 197, 247, 218, 240, 153, 151, 150, 201, 12, 118, 154, 43, 91, 192, 172, 39,
      245, 149, 194, 177, 218, 105, 102, 184, 172, 137, 42, 181])

/-- The run of a request with the sample batch on an empty spool. -/
def podRequest : Except SpoolError Response × Disk :=
  Program.run perform (acceptBatch (.ofBatches [podDigest] [podBatch] (List.nodup_singleton _))
    .sample .bare bearerHeaders (epochText podBatch)) (.empty : Disk)

/-- The sample batch is accepted, and the contract holds of it. -/
theorem podRequest_contract :
    podRequest.1.toOption.map Response.status = some 202 ∧
      Contract (.ofBatches [podDigest] [podBatch] (List.nodup_singleton _)) .sample .bare
        bearerHeaders (epochText podBatch) (.empty : Disk) podRequest.1 podRequest.2 := by
  have hnumbered : Numbered (.empty : Disk) := by
    intro path file hget
    cases hget
  have hends := ends_run exec_perform (acceptBatch (.ofBatches [podDigest] [podBatch]
    (List.nodup_singleton _)) .sample .bare bearerHeaders (epochText podBatch)) (.empty : Disk)
  have hfaulty := hends.mono fun op s result s' hexec =>
    (Or.inl hexec : ExecWith (fun _ => False) op s result s')
  exact ⟨by decide +kernel, acceptBatch_contract hnumbered hfaulty⟩

end MongoDam.Outpost
