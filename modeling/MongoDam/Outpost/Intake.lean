import MongoDam.Outpost.Mapping
import MongoDam.Spool.Faults

/-!
# Intake

Outpost accepts a batch over HTTP. It checks the credential, reads and validates the
batch, compares its assignment with its own, replaces the identities and adds
Kubernetes metadata, and writes the result to its spool. Only then does it answer
that the batch was accepted.
-/

namespace MongoDam.Outpost

open Lib Schema Spool FileSystem Program

/-! ### Configuration and state -/

structure OutpostConfig where
  customerId : String
  tenantId : String
  sourceId : String
  regionalCellId : String
  clusterName : String
  internalToken : Option String
  spoolMaxBytes : ℕ
  identityMappingFile : Option String

/-- The third-party code: the text of documents, the hash of a body, and messages. -/
structure Dependencies where
  serde : Serde
  sha256 : Digest32
  invalidBatch : Bytes → String
  unwritableBatch : DamBatch → String
  ioMessage : IoError → String

/-- What a request finds: the pods by their uid, and the files of the host. -/
structure Surroundings where
  kubernetes : Table String KubernetesMetadata
  readFile : String → Except IoError Bytes

/-- The headers of a request, by lower-case name. -/
abbrev HeaderMap := List (String × Bytes)

/-- An answer to a request. -/
inductive Response where
  | error (status : ℕ) (error : String)
  | accepted (batchId receiptId : String)
  deriving DecidableEq, Repr

def Response.status : Response → ℕ
  | error status _ => status
  | accepted _ _ => 202

/-! ### Checks -/

/-- `HeaderValue::to_str`: the text of a value of visible ASCII characters. -/
def headerText (value : Bytes) : Option String :=
  if value.all fun b => b = 9 ∨ (32 ≤ b ∧ b < 127) then
    some (String.ofList (value.map fun b => Char.ofNat b.toNat))
  else none

/-- `str::strip_prefix`. -/
def stripPrefix (text lead : String) : Option String :=
  (lead.toList.isPrefixOf? text.toList).map String.ofList

/-- The token a request presents. -/
def providedToken (headers : HeaderMap) : Option String := do
  let value ← headers.lookup "authorization"
  let text ← headerText value
  stripPrefix text "Bearer "

/-- The token is the configured one, when one is configured. -/
def OutpostConfig.authorizes (config : OutpostConfig) (headers : HeaderMap) : Bool :=
  match config.internalToken with
  | none => true
  | some expected => providedToken headers = some expected

/-- The batch is for this Outpost. -/
def OutpostConfig.assigns (config : OutpostConfig) (batch : DamBatch) : Bool :=
  batch.customerId = config.customerId ∧ batch.tenantId = config.tenantId ∧
    batch.sourceId = config.sourceId ∧ batch.regionalCellId = config.regionalCellId

/-- `accept_batch` up to the assignment check: the batch, or the refusal. -/
def checkBatch (deps : Dependencies) (config : OutpostConfig) (headers : HeaderMap)
    (body : Bytes) : Except Response DamBatch :=
  if config.authorizes headers then
    match deps.serde.decode (DamBatch.codec deps.serde) body with
    | none => .error (.error 400 ("invalid DAM batch: " ++ deps.invalidBatch body))
    | some batch =>
      match batch.validate with
      | .error error => .error (.error 400 error)
      | .ok _ =>
        if config.assigns batch then .ok batch
        else .error (.error 403 "batch identity does not match this Outpost assignment")
  else .error (.error 401 "missing or invalid Observer credential")

/-! ### Enrichment -/

/-- The identities in force; none while the mapping cannot be used. -/
def currentIdentities (deps : Dependencies) (config : OutpostConfig)
    (surroundings : Surroundings) : Identities :=
  match config.identityMappingFile with
  | none => .empty
  | some path =>
    match loadIdentityMappings deps.serde surroundings.readFile path with
    | .ok identities => identities
    | .error _ => .empty

/-- The hashed principal of an activity or an authentication. -/
def hashedPrincipal : EventPayload → Option String
  | .mongodbActivity activity => if activity.principalHashed then activity.principal else none
  | .mongodbAuth auth => if auth.principalHashed then auth.principal else none
  | _ => none

/-- The event with the identity of its principal, whatever it had before. -/
def enrichExternalIdentity (identities : Identities) (event : DamEvent) : DamEvent :=
  { event with identity := (hashedPrincipal event.payload).bind identities.get? }

def enrichExternalIdentities (batch : DamBatch) (identities : Identities) : DamBatch :=
  { batch with events := batch.events.map (enrichExternalIdentity identities) }

/-- The metadata of an event's pod: that of the cache where it has the pod, but the uid, and the
container when there was one. -/
def enrichMetadata (clusterName : String) (cache : Table String KubernetesMetadata)
    (existing : Option KubernetesMetadata) : KubernetesMetadata :=
  let existing := existing.getD {}
  let existing := { existing with clusterName := some (existing.clusterName.getD clusterName) }
  match existing.podUid.bind cache.get? with
  | none => existing
  | some enriched =>
    { enriched with
      podUid := existing.podUid
      containerName := existing.containerName.or enriched.containerName }

def enrichKubernetes (clusterName : String) (cache : Table String KubernetesMetadata)
    (event : DamEvent) : DamEvent :=
  { event with kubernetes := some (enrichMetadata clusterName cache event.kubernetes) }

def enrichBatch (deps : Dependencies) (config : OutpostConfig) (surroundings : Surroundings)
    (batch : DamBatch) : DamBatch :=
  let batch := enrichExternalIdentities batch (currentIdentities deps config surroundings)
  { batch with
    events := batch.events.map (enrichKubernetes config.clusterName surroundings.kubernetes) }

/-! ### Acceptance -/

/-- The text of a spool error. -/
def describe (deps : Dependencies) : SpoolError → String
  | .capacityExceeded currentBytes incomingBytes maxBytes =>
    "spool capacity exceeded: current=" ++ toString currentBytes ++ ", incoming=" ++
      toString incomingBytes ++ ", maximum=" ++ toString maxBytes
  | .io error => "spool I/O failed: " ++ deps.ioMessage error

/-- Perform an action and return how it ended. -/
def caught (action : Action α) : Action (Except SpoolError α) :=
  Program.bind action fun result => .done (.ok result)

/-- Look at both directories; an error is ignored. -/
def refreshSpoolMetrics : Action Unit := do
  let _ ← caught stats
  let _ ← caught quarantineStats
  return ()

/-- The answer to a batch that was handed to the spool. -/
def enqueueResponse (deps : Dependencies) (batch : DamBatch) :
    Except SpoolError String → Response
  | .ok receiptId => .accepted batch.batchId receiptId
  | .error error => .error 507 (describe deps error)

def acceptBatch (deps : Dependencies) (config : OutpostConfig) (surroundings : Surroundings)
    (headers : HeaderMap) (body : Bytes) : Action Response :=
  match checkBatch deps config headers body with
  | .error response => pure response
  | .ok batch =>
    let batch := enrichBatch deps config surroundings batch
    match deps.serde.encode (DamBatch.codec deps.serde) batch with
    | none => pure (.error 500 (deps.unwritableBatch batch))
    | some encoded => do
      let receipt ← caught (enqueue deps.sha256 config.spoolMaxBytes encoded)
      refreshSpoolMetrics
      return enqueueResponse deps batch receipt

/-! ### Running a request -/

section Rules

variable {exec : Meaning (FileOp Place Name) (fun op => Except IoError op.Value) Disk}
  {I : Disk → Prop} {fs : Disk}

theorem ensures_caught_bind {action : Action α} {f : Except SpoolError α → Action β}
    {Q : Except SpoolError β → Disk → Prop}
    (h : action.Ensures exec I (fun result s => (f result).Ensures exec I Q s) fs) :
    (caught action >>= f).Ensures exec I Q fs := by
  refine ensures_bind (always_bind (h.mono (fun _ hI => hI) fun result s hresult => ?_))
  exact hresult

/-- Looking at the directories changes nothing. -/
private theorem refreshSpoolMetrics_ensures {Q : Except SpoolError Unit → Disk → Prop}
    (hread : ∀ place s result s', exec (.readDir place) s result s' → s' = s) (hI : I fs)
    (hQ : Q (.ok ()) fs) : refreshSpoolMetrics.Ensures exec I Q fs := by
  have hstats : ∀ place {R : Except SpoolError SpoolStats → Disk → Prop},
      (∀ result, R result fs) → (directoryStats place).Ensures exec I R fs := by
    intro place R hR
    refine ensures_io_bind fun result s' hexec => ?_
    rw [hread place fs result s' hexec]
    refine ⟨hI, ?_⟩
    cases result with
    | ok names => exact ensures_pure (hR _)
    | error error => exact hR _
  refine ensures_caught_bind (hstats .root fun _ => ?_)
  exact ensures_caught_bind (hstats .quarantine fun _ => ensures_pure hQ)

variable {deps : Dependencies} {config : OutpostConfig} {surroundings : Surroundings}
  {headers : HeaderMap} {body : Bytes}

/-- A request is refused, or cannot be written, or is handed to the spool. -/
theorem acceptBatch_ensures {Q : Except SpoolError Response → Disk → Prop}
    (hread : ∀ place s result s', exec (.readDir place) s result s' → s' = s)
    (hrefused : ∀ response, checkBatch deps config headers body = .error response →
      Q (.ok response) fs)
    (hunwritable : ∀ batch, checkBatch deps config headers body = .ok batch →
      Q (.ok (.error 500 (deps.unwritableBatch (enrichBatch deps config surroundings batch)))) fs)
    (henqueue : ∀ batch encoded, checkBatch deps config headers body = .ok batch →
      deps.serde.encode (DamBatch.codec deps.serde) (enrichBatch deps config surroundings batch) =
        some encoded →
      (enqueue deps.sha256 config.spoolMaxBytes encoded).Ensures exec I (fun receipt s =>
        I s ∧ Q (.ok (enqueueResponse deps (enrichBatch deps config surroundings batch) receipt)) s)
        fs) :
    (acceptBatch deps config surroundings headers body).Ensures exec I Q fs := by
  unfold acceptBatch
  split
  · rename_i response hcheck
    exact ensures_pure (hrefused response hcheck)
  · rename_i batch hcheck
    dsimp only
    split
    · exact ensures_pure (hunwritable batch hcheck)
    · rename_i encoded hencoded
      refine ensures_caught_bind ((henqueue batch encoded hcheck hencoded).mono
        (fun _ hI => hI) fun receipt s hreceipt => ?_)
      obtain ⟨hI, hQ⟩ := hreceipt
      exact ensures_bind (refreshSpoolMetrics_ensures hread hI (ensures_pure hQ))

end Rules

end MongoDam.Outpost
