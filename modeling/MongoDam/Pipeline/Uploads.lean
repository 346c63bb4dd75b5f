import Mathlib.Tactic.MkIffOfInductiveProp
import MongoDam.Pipeline.AtLeastOnce
import MongoDam.Pipeline.Ndjson

/-!
# What reaches the destination

Outpost sends the destination nothing but batches from its spool, each under its own id.
In S3 it writes a batch again and again to one key, whatever is lost, repeated or late and
wherever a process crashes. A flushed batch that has left both spools is one object there,
as long as no two batches that were submitted share an id.
-/

namespace MongoDam.Pipeline

open Lib Schema Spool Outpost

/-! ### Batches and bodies -/

/-- The body was written from the batch, or is read as it. -/
def Bears (serde : Serde) (body : Bytes) (batch : DamBatch) : Prop :=
  serde.encode (DamBatch.codec serde) batch = some body ∨
    serde.decode (DamBatch.codec serde) body = some batch

/-- Two batches are one, up to what Outpost adds to the events. -/
structure SameBatch (batch other : DamBatch) : Prop where
  manifest : manifestOf batch = manifestOf other
  customerId : batch.customerId = other.customerId
  tenantId : batch.tenantId = other.tenantId
  sourceId : batch.sourceId = other.sourceId
  regionalCellId : batch.regionalCellId = other.regionalCellId
  createdAt : batch.createdAt = other.createdAt

namespace SameBatch

variable {batch other third : DamBatch}

theorem symm (h : SameBatch batch other) : SameBatch other batch :=
  ⟨h.manifest.symm, h.customerId.symm, h.tenantId.symm, h.sourceId.symm, h.regionalCellId.symm,
    h.createdAt.symm⟩

theorem trans (h : SameBatch batch other) (h' : SameBatch other third) : SameBatch batch third :=
  ⟨h.manifest.trans h'.manifest, h.customerId.trans h'.customerId, h.tenantId.trans h'.tenantId,
    h.sourceId.trans h'.sourceId, h.regionalCellId.trans h'.regionalCellId,
    h.createdAt.trans h'.createdAt⟩

/-- One batch has one key. -/
theorem s3ObjectKey_eq (h : SameBatch batch other) (encoders : Encoders)
    (destination : S3DestinationConfig) :
    s3ObjectKey encoders destination batch = s3ObjectKey encoders destination other := by
  have hid : batch.batchId = other.batchId := congrArg Manifest.batchId h.manifest
  unfold s3ObjectKey
  rw [h.customerId, h.tenantId, h.sourceId, h.regionalCellId, h.createdAt, hid]

end SameBatch

/-- What is read from a body is every batch that the body bears. -/
theorem Bears.sameBatch {serde : Serde} {body : Bytes} {batch other : DamBatch}
    (h : Bears serde body batch)
    (hdecode : serde.decode (DamBatch.codec serde) body = some other) : SameBatch batch other := by
  rcases h with hwritten | hread
  · rw [Serde.decode_encode hwritten] at hdecode
    split at hdecode
    · cases hdecode
      constructor
      · simp [manifestOf]
      all_goals rfl
    · cases hdecode
  · rw [hread] at hdecode
    cases hdecode
    exact ⟨rfl, rfl, rfl, rfl, rfl, rfl⟩

/-- Enrichment adds to the events only. -/
theorem sameBatch_enrichBatch (deps : Dependencies) (config : OutpostConfig)
    (surroundings : Surroundings) (batch : DamBatch) :
    SameBatch batch (enrichBatch deps config surroundings batch) := by
  refine ⟨(manifestOf_enrichBatch batch).symm, ?_, ?_, ?_, ?_, ?_⟩ <;> rw [enrichBatch_eq]

section Submitted

variable (setup : Setup) (used posted : Bytes → Prop)

/-- Observer wrote the batch to a body in use. -/
def Wrote (batch : DamBatch) (body : Bytes) : Prop :=
  used body ∧ ∃ createdAt events, Observer.flushBatch setup.lib setup.deps.serde setup.assignment
    createdAt events = some (batch, body)

/-- The body was submitted: Observer wrote it, or somebody posted it to Outpost. -/
def Submitted (body : Bytes) : Prop := posted body ∨ ∃ batch, Wrote setup used batch body

/-- The body was submitted, or Outpost wrote it when it accepted one that was. -/
def Stems (body : Bytes) : Prop :=
  Submitted setup used posted body ∨
    ∃ original batch surroundings, Submitted setup used posted original ∧
      setup.deps.serde.decode (DamBatch.codec setup.deps.serde) original = some batch ∧
      setup.deps.serde.encode (DamBatch.codec setup.deps.serde)
        (enrichBatch setup.deps setup.config surroundings batch) = some body

/-- Submitted batches that share an id are one. -/
def NamesOne : Prop :=
  ∀ body body' batch batch', Submitted setup used posted body → Submitted setup used posted body' →
    Bears setup.deps.serde body batch → Bears setup.deps.serde body' batch' →
      batch.batchId = batch'.batchId → SameBatch batch batch'

variable {setup used posted} {batch stored : DamBatch} {own body : Bytes}

theorem Wrote.bears (h : Wrote setup used batch own) : Bears setup.deps.serde own batch := by
  obtain ⟨-, createdAt, events, hflush⟩ := h
  unfold Observer.flushBatch at hflush
  split at hflush
  · cases hflush
  · obtain ⟨written, hwritten, hpair⟩ := Option.map_eq_some_iff.mp hflush
    cases hpair
    exact .inl hwritten

/-- A batch in use with the id of one that Observer wrote is that one. -/
theorem Stems.sameBatch (hnames : NamesOne setup used posted)
    (hstems : Stems setup used posted body) (hwrote : Wrote setup used batch own)
    (hdecode : setup.deps.serde.decode (DamBatch.codec setup.deps.serde) body = some stored)
    (hid : batch.batchId = stored.batchId) : SameBatch batch stored := by
  have hown : Submitted setup used posted own := .inr ⟨batch, hwrote⟩
  rcases hstems with hsubmitted | ⟨original, first, surroundings, hsubmitted, hfirst, hwritten⟩
  · exact hnames own body batch stored hown hsubmitted hwrote.bears (.inr hdecode) hid
  · have hstored : SameBatch first stored :=
      (sameBatch_enrichBatch _ _ surroundings first).trans (Bears.sameBatch (.inl hwritten) hdecode)
    have hfirstId : stored.batchId = first.batchId :=
      (congrArg Manifest.batchId hstored.manifest).symm
    exact (hnames own original batch first hown hsubmitted hwrote.bears (.inr hfirst)
      (hid.trans hfirstId)).trans hstored

end Submitted

/-- The last part of a key is a file with the id. -/
private theorem s3ObjectKey_file (encoders : Encoders) (destination : S3DestinationConfig)
    (batch : DamBatch) : ∃ lead, (s3ObjectKey encoders destination batch).toList =
      lead ++ '/' :: ((encodeS3KeySegment batch.batchId).toList ++ ".ndjson.gz".toList) := by
  have hslash : "/".toList = ['/'] := rfl
  obtain ⟨lead, hlead⟩ : ∃ lead, s3ObjectKey encoders destination batch =
      lead ++ "/" ++ encodeS3KeySegment batch.batchId ++ ".ndjson.gz" := ⟨_, rfl⟩
  refine ⟨lead.toList, ?_⟩
  rw [hlead]
  simp only [String.toList_append, hslash, List.append_assoc, List.cons_append, List.nil_append]

private theorem slash_notMem_file (value : String) :
    '/' ∉ (encodeS3KeySegment value).toList ++ ".ndjson.gz".toList := by
  intro hmem
  have hnone : '/' ∉ ".ndjson.gz".toList := by decide
  rcases List.mem_append.mp hmem with hsegment | hending
  · exact slash_notMem_encodeS3KeySegment value hsegment
  · exact hnone hending

/-- The key of an object tells the batch, whatever prefix stands in front. -/
theorem batchId_of_s3ObjectKey {encoders encoders' : Encoders}
    {destination destination' : S3DestinationConfig} {batch batch' : DamBatch}
    (h : s3ObjectKey encoders destination batch = s3ObjectKey encoders' destination' batch') :
    batch.batchId = batch'.batchId := by
  obtain ⟨lead, hlead⟩ := s3ObjectKey_file encoders destination batch
  obtain ⟨lead', hlead'⟩ := s3ObjectKey_file encoders' destination' batch'
  rw [h, hlead'] at hlead
  obtain ⟨-, hfile⟩ :=
    append_cons_inj_last (slash_notMem_file _) (slash_notMem_file _) hlead
  exact (encodeS3KeySegment_toList_inj (List.append_cancel_right hfile)).symm

/-! ### Requests of Outpost -/

section Requests

variable (setup : Setup) (used : Bytes → Prop)

/-- The request with which Outpost delivers a batch that it has read from a body. -/
inductive Delivers (batch : DamBatch) (body : Bytes) : Request → Prop
  | http {destination : HttpDestinationConfig}
      (hdestination : setup.destination = .http destination) :
      Delivers batch body
        (.post destination.endpoint (some destination.bearerToken) batch.batchId body)
  | s3 {destination : S3DestinationConfig} {object : Bytes}
      (hdestination : setup.destination = .s3 destination)
      (hobject : encodeS3Ndjson setup.encoders batch = some object) :
      Delivers batch body
        (.putObject destination.bucket (s3ObjectKey setup.encoders destination batch) object)

/-- The request delivers a batch of the spool. -/
def FromSpool (request : Request) : Prop :=
  ∃ body batch, used body ∧
    setup.deps.serde.decode (DamBatch.codec setup.deps.serde) body = some batch ∧
    Delivers setup batch body request

/-- Nothing has to be known about the other tasks. -/
structure NoKnowledge where

instance : Preorder NoKnowledge where
  le _ _ := True
  le_refl _ := trivial
  le_trans _ _ _ _ _ := trivial

/-- The terms on which a process sends requests: Outpost delivers what it has read. -/
def sending (side : Side) : Terms ErrandOp ErrandOp.Result NoKnowledge where
  requires
    | .send request, _ => side = .outpost → FromSpool setup used request
    | _, _ => True
  grants
    | .call (.read _), .ok body, _ => used body
    | .call (.enqueue body), .ok _, _ => used body
    | _, _, _ => True
  requires_mono _ hrequires := hrequires

/-- A batch that is reported as flushed was written. -/
def Reported : Report → NoKnowledge → Prop
  | .flushed batch, _ => ∃ body, Wrote setup used batch body
  | _, _ => True

variable {setup used}

/-- Observer may send what it likes. -/
private theorem sending_observer {α : Type} {Q : α → NoKnowledge → Prop} (hQ : ∀ value, Q value ⟨⟩)
    (program : Program ErrandOp ErrandOp.Result α) :
    program.Keeps (sending setup used .observer) Q ⟨⟩ := by
  induction program with
  | done value => exact hQ value
  | perform op next ih =>
    constructor
    · cases op with
      | call spoolCall => trivial
      | send request => nofun
    · exact fun result _ _ _ => ih result

private theorem flushTask_sending {createdAt : ℤ} {events : List DamEvent} {batch : DamBatch}
    {body : Bytes} (hflush : Observer.flushBatch setup.lib setup.deps.serde setup.assignment
      createdAt events = some (batch, body)) :
    (flushTask batch body).Keeps (sending setup used .observer) (Reported setup used) ⟨⟩ := by
  refine ⟨trivial, fun result _ _ hused => ?_⟩
  cases result with
  | error error => trivial
  | ok id => exact ⟨body, hused, createdAt, events, hflush⟩

private theorem acceptTask_sending (surroundings : Surroundings) (headers : HeaderMap)
    (request : Request) (body : Bytes) :
    (acceptTask setup surroundings headers request body).Keeps (sending setup used .outpost)
      (Reported setup used) ⟨⟩ := by
  refine Program.keeps_bind ?_
  unfold acceptErrand
  split
  · trivial
  · dsimp only
    split
    · trivial
    · exact ⟨trivial, fun _ _ _ _ => ⟨trivial, fun _ _ _ _ => ⟨trivial, fun _ _ _ _ => trivial⟩⟩⟩

/-- Outpost sends what it has read from an item. -/
private theorem deliverPendingItem_sending (item : PendingItem) :
    (Errand.deliverPendingItem setup.encoders setup.destination setup.destination.client
      item).Keeps (sending setup used .outpost) (fun _ _ => True) ⟨⟩ := by
  refine Errand.keeps_call_bind trivial fun result _ _ hread => ?_
  cases result with
  | error error => trivial
  | ok body =>
    dsimp only
    split
    · exact Errand.keeps_fail trivial
    · rename_i batch hdecode
      split
      · rename_i destination hdestination _
        refine Errand.keeps_bind (Errand.keeps_send_bind
          (fun _ => ⟨body, batch, hread, hdecode, .http hdestination⟩) fun result _ _ _ => ?_)
        cases result with
        | error error => trivial
        | ok status =>
          dsimp only
          split
          · exact Errand.keeps_pure (Errand.keeps_call trivial fun _ _ => trivial)
          · split
            · exact Errand.keeps_pure (Errand.keeps_call trivial fun _ _ => trivial)
            · exact Errand.keeps_fail trivial
      · rename_i destination hdestination _
        refine Errand.keeps_bind ?_
        unfold Errand.deliverS3Batch
        dsimp only
        split
        · exact Errand.keeps_fail trivial
        · rename_i object hobject
          have hfrom : FromSpool setup used _ :=
            ⟨body, batch, hread, hdecode, .s3 hdestination hobject⟩
          refine Errand.keeps_send_bind (fun _ => hfrom) fun result _ _ _ => ?_
          cases result with
          | error error => trivial
          | ok status => exact Errand.keeps_pure (Errand.keeps_call trivial fun _ _ => trivial)
      · exact Errand.keeps_fail trivial

/-- Every task that a process starts keeps the terms. -/
private theorem Starts.keeps_sending {requests : List Request} {side : Side} {task : Task}
    (h : Starts setup requests side task) :
    task.Keeps (sending setup used side) (Reported setup used) ⟨⟩ := by
  cases h with
  | flush hflush => exact flushTask_sending hflush
  | deliverObserver =>
    exact Program.keeps_bind (sending_observer (fun _ => trivial) _)
  | accept surroundings headers hsent => exact acceptTask_sending _ _ _ _
  | deliverOutpost =>
    have hpass : (Errand.deliverPending setup.encoders setup.destination
        setup.destination.client).Keeps (sending setup used .outpost) (fun _ _ => True) ⟨⟩ :=
      Errand.keeps_pass trivial fun item _ => deliverPendingItem_sending item
    exact Program.keeps_bind (Program.Keeps.mono (fun _ _ _ => trivial) hpass)
  | health => exact ⟨trivial, fun _ _ _ _ => ⟨trivial, fun _ _ _ _ => trivial⟩⟩

end Requests

/-! ### The invariant -/

section Invariant

variable {setup : Setup} {used : Bytes → Prop}

/-- The tasks keep the terms, what Outpost has sent and the destination has accepted is from the
spool, and so are the flushed batches. -/
structure Deployment.Sends (setup : Setup) (used : Bytes → Prop) (d : Deployment) : Prop where
  tasks : ∀ side, (d.party side).tasks.Keeps (sending setup used side) (Reported setup used) ⟨⟩
  requests : ∀ request ∈ d.requests .outpost, FromSpool setup used request
  accepted : ∀ request ∈ d.accepted, FromSpool setup used request
  flushed : ∀ batch ∈ d.flushed, ∃ body, Wrote setup used batch body

namespace Deployment.Sends

variable {d : Deployment} {side : Side}

theorem initial : Deployment.initial.Sends setup used where
  tasks _ := Pool.keeps_empty
  requests _ hmem := absurd hmem List.not_mem_nil
  accepted _ hmem := absurd hmem List.not_mem_nil
  flushed _ hmem := absurd hmem List.not_mem_nil

/-- A process has changed. -/
theorem setParty {party : Party} (h : d.Sends setup used)
    (htasks : party.tasks.Keeps (sending setup used side) (Reported setup used) ⟨⟩) :
    (d.setParty side party).Sends setup used := by
  refine ⟨fun other => ?_, h.requests, h.accepted, h.flushed⟩
  by_cases hside : other = side
  · subst hside
    rwa [Deployment.setParty_party]
  · rw [Deployment.setParty_party_of_ne hside]
    exact h.tasks other

/-- A request is sent that the terms allow. -/
theorem send {request : Request} (h : d.Sends setup used)
    (hrequest : side = .outpost → FromSpool setup used request) :
    (d.send side request).Sends setup used := by
  refine ⟨h.tasks, fun other hmem => ?_, h.accepted, h.flushed⟩
  cases side with
  | observer => exact h.requests other hmem
  | outpost =>
    rcases List.mem_cons.mp hmem with rfl | hmem
    · exact hrequest rfl
    · exact h.requests other hmem

theorem answer {request : Request} {status : ℕ} (h : d.Sends setup used) :
    (d.answer side request status).Sends setup used :=
  ⟨h.tasks, h.requests, h.accepted, h.flushed⟩

theorem accept {request : Request} (h : d.Sends setup used)
    (hsent : request ∈ d.requests .outpost) :
    Deployment.Sends setup used { d with accepted := request :: d.accepted } := by
  refine ⟨h.tasks, h.requests, fun other hmem => ?_, h.flushed⟩
  rcases List.mem_cons.mp hmem with rfl | hmem
  · exact h.requests other hsent
  · exact h.accepted other hmem

/-- A task that keeps the terms goes on or ends. -/
theorem resume {task : Task} (h : d.Sends setup used)
    (htask : task.Keeps (sending setup used side) (Reported setup used) ⟨⟩) :
    (d.resume side task).Sends setup used := by
  cases task with
  | perform op next => exact h.setParty ((h.tasks side).add htask)
  | done report =>
    cases report with
    | finished => exact h
    | flushed batch =>
      refine ⟨h.tasks, h.requests, h.accepted, fun other hmem => ?_⟩
      rcases List.mem_cons.mp hmem with rfl | hmem
      · exact htask
      · exact h.flushed other hmem
    | answered request response => exact h.answer

/-- What waited for an operation goes on. -/
theorem returned {op : ErrandOp} {result : op.Result} {next : op.Result → Task} {spool : Machine}
    {tasks : Pool ErrandOp ErrandOp.Result Report} (h : d.Sends setup used)
    (hreturns : Pool.Returns op next (d.party side).tasks tasks)
    (hgrants : (sending setup used side).grants op result ⟨⟩) :
    ((d.setParty side { spool, tasks }).resume side (next result)).Sends setup used :=
  (h.setParty ((h.tasks side).returns hreturns)).resume
    ((h.tasks side).next hreturns le_rfl hgrants)

end Deployment.Sends

variable (hinjective : ∀ a b, used a → used b →
  setup.deps.sha256.digest a = setup.deps.sha256.digest b → a = b)

include hinjective

variable {d d' : Deployment}

/-- What a call returned is in use. -/
private theorem sending_grants {side : Side} {disk : Disk} {owed : Bytes → Prop} {call : Call}
    {result : Except SpoolError call.Result} (h : d.Sound setup used)
    (hspool : (d.party side).spool = ⟨disk, .running call (.done result), owed⟩) :
    (sending setup used side).grants (.call call) result ⟨⟩ := by
  have hreachable := h.spools side
  have hreturns := returns_of_reachable hinjective hreachable (congrArg Machine.phase hspool)
  rw [hspool] at hreachable
  have hkept := kept_of_reachable hinjective (hreachable.step .finish)
  cases result with
  | error error => cases call <;> trivial
  | ok value =>
    cases call with
    | enqueue body =>
      obtain ⟨place, hplace⟩ := hkept.held body (Or.inr rfl)
      exact (hkept.named _ _ _ hplace).2
    | read item => exact hreturns.2
    | _ => trivial

/-- Every step keeps the invariant. -/
private theorem DeploymentStep.sends (hstep : DeploymentStep setup used d d')
    (hsound : d.Sound setup used) (h : d.Sends setup used) : d'.Sends setup used := by
  cases hstep with
  | start hup hstarts => exact h.resume hstarts.keeps_sending
  | @call side _ _ _ _ _ hspool hused hbegins => exact h.setParty ((h.tasks side).begins hbegins)
  | @finish side _ _ _ _ _ _ hspool hreturns =>
    exact h.returned hreturns (sending_grants hinjective hsound hspool)
  | @perform side => exact h.setParty (h.tasks side)
  | @restart side => exact h.setParty (h.tasks side)
  | @opened side => exact h.setParty (h.tasks side)
  | crash hspool hcrash => exact h.setParty Pool.keeps_empty
  | @send side request _ _ hbegins =>
    exact (h.setParty ((h.tasks side).begins hbegins)).send ((h.tasks side).requires hbegins)
  | receive hreturns hanswer => exact h.returned hreturns trivial
  | timeout error hreturns => exact h.returned hreturns trivial
  | foreign request => exact h.send nofun
  | refuse hsent hrefused => exact h.answer
  | accept hsent => exact h.accept hsent
  | answer hsent hheld => exact h.answer

theorem ReachableDeployment.sends (h : ReachableDeployment setup used d) :
    d.Sends setup used := by
  induction h with
  | initial => exact .initial
  | step hd hstep ih => exact hstep.sends hinjective (hd.sound hinjective) ih

end Invariant

/-! ### The bucket -/

/-- What a bucket holds at a key after some requests, the newest in front: a later object takes
the place of an earlier one. -/
def bucketObject (bucket key : String) : List Request → Option Bytes
  | [] => none
  | .post .. :: older => bucketObject bucket key older
  | .putObject otherBucket otherKey body :: older =>
    if otherBucket = bucket ∧ otherKey = key then some body else bucketObject bucket key older

theorem mem_of_bucketObject {bucket key : String} {requests : List Request} {object : Bytes}
    (h : bucketObject bucket key requests = some object) :
    .putObject bucket key object ∈ requests := by
  induction requests with
  | nil => cases h
  | cons request older ih =>
    cases request with
    | post => exact List.mem_cons_of_mem _ (ih h)
    | putObject otherBucket otherKey body =>
      rw [bucketObject] at h
      split at h
      · rename_i hsame
        obtain ⟨rfl, rfl⟩ := hsame
        cases h
        exact List.mem_cons_self
      · exact List.mem_cons_of_mem _ (ih h)

theorem bucketObject_isSome {bucket key : String} {requests : List Request} {object : Bytes}
    (h : .putObject bucket key object ∈ requests) :
    ∃ newest, bucketObject bucket key requests = some newest := by
  induction requests with
  | nil => cases h
  | cons request older ih =>
    cases request with
    | post =>
      rcases List.mem_cons.mp h with heq | hmem
      · cases heq
      · exact ih hmem
    | putObject otherBucket otherKey body =>
      rw [bucketObject]
      split
      · exact ⟨body, rfl⟩
      · rename_i hdiffers
        rcases List.mem_cons.mp h with heq | hmem
        · cases heq
          exact absurd ⟨rfl, rfl⟩ hdiffers
        · exact ih hmem

/-- What the destination holds at a key of a bucket. -/
def Deployment.object (d : Deployment) (bucket key : String) : Option Bytes :=
  bucketObject bucket key d.accepted

section Bucket

variable {setup : Setup} {used posted : Bytes → Prop} {d : Deployment}
  {destination : S3DestinationConfig} {batch : DamBatch}

/-- Every object is the text of a batch of the spool, at the key of that batch. -/
private theorem Deployment.Sends.object_eq {bucket key : String} {object : Bytes}
    (h : d.Sends setup used) (hdestination : setup.destination = .s3 destination)
    (hobject : d.object bucket key = some object) :
    ∃ body stored, used body ∧
      setup.deps.serde.decode (DamBatch.codec setup.deps.serde) body = some stored ∧
      bucket = destination.bucket ∧ key = s3ObjectKey setup.encoders destination stored ∧
      encodeS3Ndjson setup.encoders stored = some object := by
  obtain ⟨body, stored, hused, hdecode, hdelivers⟩ :=
    h.accepted _ (mem_of_bucketObject hobject)
  cases hdelivers with
  | s3 hother hencoded =>
    rw [hdestination] at hother
    cases hother
    exact ⟨body, stored, hused, hdecode, rfl, rfl, hencoded⟩

/-- A batch that some accepted request conveys is at its key. -/
private theorem Deployment.Sends.object_of_delivered (h : d.Sends setup used)
    (hdestination : setup.destination = .s3 destination)
    (hsame : ∀ {body stored}, used body →
      setup.deps.serde.decode (DamBatch.codec setup.deps.serde) body = some stored →
        batch.batchId = stored.batchId → SameBatch batch stored)
    (hdelivered : d.Delivered setup (manifestOf batch)) :
    ∃ object, d.object destination.bucket (s3ObjectKey setup.encoders destination batch) =
      some object := by
  obtain ⟨request, haccepted, hconveys⟩ := hdelivered
  obtain ⟨body, stored, hused, hdecode, hdelivers⟩ := h.accepted request haccepted
  cases hdelivers with
  | http hother =>
    rw [hdestination] at hother
    cases hother
  | s3 hother hobject =>
    rw [hdestination] at hother
    cases hother
    obtain ⟨_, conveyed, -, hkey, -, hmanifest⟩ := hconveys
    have hid : batch.batchId = stored.batchId :=
      (congrArg Manifest.batchId hmanifest).symm.trans (batchId_of_s3ObjectKey hkey).symm
    rw [(hsame hused hdecode hid).s3ObjectKey_eq]
    exact bucketObject_isSome haccepted

/-- A spool holds what it owes. -/
private theorem Deployment.Sound.spooled {side : Side} {manifest : Manifest}
    (hinjective : ∀ a b, used a → used b →
      setup.deps.sha256.digest a = setup.deps.sha256.digest b → a = b)
    (h : d.Sound setup used) (howes : d.Owes setup side manifest) :
    ∃ place, d.Spooled setup side place manifest := by
  obtain ⟨body, howed, hconveys⟩ := howes
  obtain ⟨place, hplace⟩ := (kept_of_reachable hinjective (h.spools side)).held body howed
  obtain ⟨file, hget, hdata⟩ := holdings_eq_some.mp hplace
  exact ⟨place, body, file, hconveys, hget, hdata⟩

/-- The bucket holds the batch as one object: at its key, and under its id at no other. -/
structure Deployment.HoldsOnce (setup : Setup) (d : Deployment) (destination : S3DestinationConfig)
    (batch : DamBatch) : Prop where
  there : ∃ stored object, SameBatch batch stored ∧
    encodeS3Ndjson setup.encoders stored = some object ∧
    d.object destination.bucket (s3ObjectKey setup.encoders destination batch) = some object
  nowhereElse : ∀ other, other.batchId = batch.batchId →
    (d.object destination.bucket (s3ObjectKey setup.encoders destination other)).isSome →
      s3ObjectKey setup.encoders destination other = s3ObjectKey setup.encoders destination batch

/-- In every state that Observer, Outpost and an S3 bucket can reach, over lost, late and repeated
requests, changing surroundings and crashes at any step, a flushed batch is in one of the spools
or the bucket holds it once. -/
theorem flushed_uploaded
    (hinjective : ∀ a b, used a → used b →
      setup.deps.sha256.digest a = setup.deps.sha256.digest b → a = b)
    (hstems : ∀ body, used body → Stems setup used posted body)
    (hnames : NamesOne setup used posted) (hdestination : setup.destination = .s3 destination)
    (h : ReachableDeployment setup used d) (hflushed : batch ∈ d.flushed) :
    (∃ side place, d.Spooled setup side place (manifestOf batch)) ∨
      d.HoldsOnce setup destination batch := by
  have hsound := h.sound hinjective
  have hsends := h.sends hinjective
  obtain ⟨own, hwrote⟩ := hsends.flushed batch hflushed
  have hsame : ∀ {body stored}, used body →
      setup.deps.serde.decode (DamBatch.codec setup.deps.serde) body = some stored →
        batch.batchId = stored.batchId → SameBatch batch stored :=
    fun hused hdecode hid => (hstems _ hused).sameBatch hnames hwrote hdecode hid
  rcases hsound.flushed batch hflushed with hobserver | houtpost | hdelivered
  · exact .inl ⟨.observer, hsound.spooled hinjective hobserver⟩
  · exact .inl ⟨.outpost, hsound.spooled hinjective houtpost⟩
  · right
    constructor
    · obtain ⟨object, hobject⟩ :=
        hsends.object_of_delivered hdestination hsame hdelivered
      obtain ⟨body, stored, hused, hdecode, -, hkey, hstored⟩ :=
        hsends.object_eq hdestination hobject
      exact ⟨stored, object, hsame hused hdecode (batchId_of_s3ObjectKey hkey), hstored, hobject⟩
    · intro other hid hsome
      obtain ⟨object, hobject⟩ := Option.isSome_iff_exists.mp hsome
      obtain ⟨body, stored, hused, hdecode, -, hkey, -⟩ := hsends.object_eq hdestination hobject
      have hstored := hsame hused hdecode (hid.symm.trans (batchId_of_s3ObjectKey hkey))
      rw [hkey, hstored.s3ObjectKey_eq]

end Bucket

/-! ### Running tasks -/

section Runs

open Program FileSystem

/-- A task makes its calls, up to a request or to its end. -/
def runCalls (sha256 : Digest32) (maxBytes : ℕ) : Task → Disk → Task × Disk
  | .done report, disk => (.done report, disk)
  | .perform (.send request) next, disk => (.perform (.send request) next, disk)
  | .perform (.call call) next, disk =>
    let ended := run perform (call.program sha256 maxBytes) disk
    runCalls sha256 maxBytes (next ended.1) ended.2

/-- A call of an open spool. What it enqueues is one of the bodies. -/
def usesOnly (bodies : List Bytes) : Call → Bool
  | .enqueue body => bodies.contains body
  | .reopen => false
  | _ => true

/-- The calls up to a request or to the end are of an open spool. -/
def runUsesOnly (sha256 : Digest32) (maxBytes : ℕ) (bodies : List Bytes) : Task → Disk → Bool
  | .perform (.call call) next, disk =>
    let ended := run perform (call.program sha256 maxBytes) disk
    usesOnly bodies call && runUsesOnly sha256 maxBytes bodies (next ended.1) ended.2
  | _, _ => true

/-- The request that a task sends next. -/
def nextRequest : Task → Option Request
  | .perform (.send request) _ => some request
  | _ => none

/-- How a task has ended. -/
def ending : Task → Option Report
  | .done report => some report
  | _ => none

/-- The task once its request is answered. -/
def answered (status : ℕ) : Task → Task
  | .perform (.send _) next => next (.ok status)
  | task => task

theorem eq_send_of_nextRequest {task : Task} {request : Request}
    (h : nextRequest task = some request) :
    ∃ next, task = .perform (.send request) next ∧
      ∀ status, answered status task = next (.ok status) := by
  unfold nextRequest at h
  split at h
  · next next =>
    cases h
    exact ⟨next, rfl, fun _ => rfl⟩
  · cases h

theorem eq_done_of_ending {task : Task} {report : Report} (h : ending task = some report) :
    task = .done report := by
  unfold ending at h
  split at h
  · cases h
    rfl
  · cases h

theorem uses_of_usesOnly {bodies : List Bytes} {call : Call} (h : usesOnly bodies call = true) :
    call.Uses (· ∈ bodies) ∧ ∀ result, Phase.after call result = .idle := by
  cases call with
  | enqueue body =>
    exact ⟨List.contains_iff_mem.mp h, fun _ => rfl⟩
  | reopen => cases h
  | _ => exact ⟨trivial, fun _ => rfl⟩

variable {setup : Setup} {bodies : List Bytes} {d : Deployment} {side : Side}

/-- A task at the spool of a process, run up to a request or to its end. -/
def ran (setup : Setup) (side : Side) (stage : Task × Disk) : Task × Disk :=
  runCalls setup.deps.sha256 (setup.maxBytes side) stage.1 stage.2

/-- What the task calls until then. -/
def ranUsesOnly (setup : Setup) (side : Side) (bodies : List Bytes) (stage : Task × Disk) : Bool :=
  runUsesOnly setup.deps.sha256 (setup.maxBytes side) bodies stage.1 stage.2

/-- A process that does nothing else runs a task up to a request or to its end. -/
private theorem ReachableDeployment.run_calls {task : Task} {disk : Disk} {owed : Bytes → Prop}
    (h : ReachableDeployment setup (· ∈ bodies) (d.resume side task))
    (hparty : d.party side = ⟨⟨disk, .idle, owed⟩, {}⟩)
    (huses : ranUsesOnly setup side bodies (task, disk) = true) :
    ∃ owed', ReachableDeployment setup (· ∈ bodies)
      ((d.setParty side ⟨⟨(ran setup side (task, disk)).2, .idle, owed'⟩, {}⟩).resume side
        (ran setup side (task, disk)).1) := by
  unfold ran
  unfold ranUsesOnly at huses
  dsimp only at huses ⊢
  induction task generalizing d disk owed with
  | done report => exact ⟨owed, by rwa [runCalls, ← hparty, Deployment.setParty_self]⟩
  | perform op next ih =>
    cases op with
    | send request => exact ⟨owed, by rwa [runCalls, ← hparty, Deployment.setParty_self]⟩
    | call call =>
      rw [runUsesOnly, Bool.and_eq_true] at huses
      obtain ⟨hcall, hrest⟩ := huses
      obtain ⟨hused, hidle⟩ := uses_of_usesOnly hcall
      have hresumed : (d.resume side (.perform (.call call) next)).party side =
          ⟨⟨disk, .idle, owed⟩, { ready := [.perform (.call call) next] }⟩ := by
        rw [Deployment.resume, Deployment.setParty_party, hparty]
        rfl
      have hcalled := h.run_call (congrArg Party.spool hresumed) hused
        (congrArg (fun party => party.tasks.ready) hresumed) rfl
      rw [hidle, hresumed, Deployment.resume, Deployment.setParty_setParty] at hcalled
      obtain ⟨owed', hran⟩ := ih _ hcalled (Deployment.setParty_party _) hrest
      rw [Deployment.setParty_setParty] at hran
      exact ⟨owed', hran⟩

variable {stage : Task × Disk} {owed : Bytes → Prop} {request : Request} {report : Report}

/-- A process that does nothing else runs a task to its end. -/
theorem ReachableDeployment.run_to_end (h : ReachableDeployment setup (· ∈ bodies) d)
    (hparty : d.party side = ⟨⟨stage.2, .idle, owed⟩, {}⟩)
    (hstarts : Starts setup (d.requests .observer) side stage.1)
    (huses : ranUsesOnly setup side bodies stage = true)
    (hends : ending (ran setup side stage).1 = some report) :
    ∃ owed', ReachableDeployment setup (· ∈ bodies)
      ((d.setParty side ⟨⟨(ran setup side stage).2, .idle, owed'⟩, {}⟩).report report) := by
  have hup : (d.party side).isUp = true := by rw [Party.isUp, hparty]
  obtain ⟨owed', hran⟩ := (h.step (.start hup hstarts)).run_calls hparty huses
  rw [eq_done_of_ending hends] at hran
  exact ⟨owed', hran⟩

/-- A process that does nothing else runs a task up to a request, and sends that. -/
theorem ReachableDeployment.run_to_request (h : ReachableDeployment setup (· ∈ bodies) d)
    (hparty : d.party side = ⟨⟨stage.2, .idle, owed⟩, {}⟩)
    (hstarts : Starts setup (d.requests .observer) side stage.1)
    (huses : ranUsesOnly setup side bodies stage = true)
    (hsends : nextRequest (ran setup side stage).1 = some request) :
    ∃ owed' next, (∀ status, answered status (ran setup side stage).1 = next (.ok status)) ∧
      ReachableDeployment setup (· ∈ bodies) ((d.setParty side
        ⟨⟨(ran setup side stage).2, .idle, owed'⟩,
          { pending := [⟨.send request, next⟩] }⟩).send side request) := by
  have hup : (d.party side).isUp = true := by rw [Party.isUp, hparty]
  obtain ⟨owed', hran⟩ := (h.step (.start hup hstarts)).run_calls hparty huses
  obtain ⟨next, hnext, hanswered⟩ := eq_send_of_nextRequest hsends
  rw [hnext] at hran
  have hready : ((d.setParty side ⟨⟨(ran setup side stage).2, .idle, owed'⟩, {}⟩).resume side
      (.perform (.send request) next)).party side =
      ⟨⟨(ran setup side stage).2, .idle, owed'⟩, { ready := [.perform (.send request) next] }⟩ := by
    rw [Deployment.resume, Deployment.setParty_party, Deployment.setParty_party]
    rfl
  have hbegins : Pool.Begins (ErrandOp.send request) next
      (((d.setParty side ⟨⟨(ran setup side stage).2, .idle, owed'⟩, {}⟩).resume side
        (.perform (.send request) next)).party side).tasks
      { pending := [⟨.send request, next⟩] } := by
    rw [hready]
    exact ⟨.refl _, rfl⟩
  have hsent := hran.step (.send hbegins)
  rw [hready, Deployment.resume, Deployment.setParty_setParty,
    Deployment.setParty_setParty] at hsent
  exact ⟨owed', next, hanswered, hsent⟩

/-- The task goes on to its end when the request is answered. -/
theorem ReachableDeployment.run_from_answer {status : ℕ} {next : Except String ℕ → Task}
    (h : ReachableDeployment setup (· ∈ bodies) d)
    (hparty : d.party side =
      ⟨⟨stage.2, .idle, owed⟩, { pending := [⟨.send request, next⟩] }⟩)
    (hanswer : (request, status) ∈ d.answers side) (hnext : stage.1 = next (.ok status))
    (huses : ranUsesOnly setup side bodies stage = true)
    (hends : ending (ran setup side stage).1 = some report) :
    ∃ owed', ReachableDeployment setup (· ∈ bodies)
      ((d.setParty side ⟨⟨(ran setup side stage).2, .idle, owed'⟩, {}⟩).report report) := by
  have hreturns : Pool.Returns (.send request) next (d.party side).tasks {} := by
    rw [hparty]
    exact ⟨.refl _, rfl⟩
  have hreceived := h.step (.receive hreturns hanswer)
  rw [hparty, ← hnext] at hreceived
  obtain ⟨owed', hran⟩ := hreceived.run_calls (Deployment.setParty_party _) huses
  rw [eq_done_of_ending hends, Deployment.setParty_setParty] at hran
  exact ⟨owed', hran⟩

end Runs

/-! ### An undisturbed run -/

section Undisturbed

variable (setup : Setup) (batch : DamBatch) (body : Bytes)

def openedSpool : Disk := (Program.run FileSystem.perform (openSpool setup.deps.sha256) .empty).2

/-- Observer flushes the batch. -/
def flushStage : Task × Disk := (flushTask batch body, openedSpool setup)

/-- The request of Observer. -/
def postRequest : Request :=
  .post setup.outpostUrl setup.internalToken batch.batchId body

/-- Observer delivers its spool. -/
def postStage : Task × Disk :=
  (passTask (.deliverObserverSpool setup.deps.serde setup.outpostUrl setup.internalToken),
    (ran setup .observer (flushStage setup batch body)).2)

/-- Observer gets its answer. -/
def postedStage : Task × Disk :=
  let posts := ran setup .observer (postStage setup batch body)
  (answered 202 posts.1, posts.2)

/-- Outpost accepts the body. -/
def acceptStage : Task × Disk :=
  (acceptTask setup .bare bearerHeaders (postRequest setup batch body) body, openedSpool setup)

/-- Outpost delivers its spool. -/
def putStage : Task × Disk :=
  (passTask (.deliverPending setup.encoders setup.destination setup.destination.client),
    (ran setup .outpost (acceptStage setup batch body)).2)

/-- Outpost gets its answer. -/
def storedStage : Task × Disk :=
  let puts := ran setup .outpost (putStage setup batch body)
  (answered 200 puts.1, puts.2)

/-- A batch is flushed, sent to Outpost and from there to the destination, and nothing gets in
the way. -/
@[mk_iff]
structure Undisturbed (bodies : List Bytes) (put : Request) (receipt : String) : Prop where
  opens : (Program.run FileSystem.perform (openSpool setup.deps.sha256) .empty).1 = .ok ()
  flushed : ending (ran setup .observer (flushStage setup batch body)).1 = some (.flushed batch)
  posts : nextRequest (ran setup .observer (postStage setup batch body)).1 =
    some (postRequest setup batch body)
  posted : ending (ran setup .observer (postedStage setup batch body)).1 = some .finished
  accepted : ending (ran setup .outpost (acceptStage setup batch body)).1 =
    some (.answered (postRequest setup batch body) (.accepted batch.batchId receipt))
  puts : nextRequest (ran setup .outpost (putStage setup batch body)).1 = some put
  stored : ending (ran setup .outpost (storedStage setup batch body)).1 = some .finished
  usesObserver : ∀ stage ∈ [flushStage, postStage, postedStage],
    ranUsesOnly setup .observer bodies (stage setup batch body) = true
  usesOutpost : ∀ stage ∈ [acceptStage, putStage, storedStage],
    ranUsesOnly setup .outpost bodies (stage setup batch body) = true

variable {setup batch body} {bodies : List Bytes} {put : Request} {receipt : String}

instance : Decidable (Undisturbed setup batch body bodies put receipt) :=
  decidable_of_iff _ (undisturbed_iff ..).symm

/-- Such a run is one of the deployment. -/
theorem Undisturbed.reaches {createdAt : ℤ} {events : List DamEvent}
    (h : Undisturbed setup batch body bodies put receipt)
    (hflush : Observer.flushBatch setup.lib setup.deps.serde setup.assignment createdAt events =
      some (batch, body)) :
    ∃ d, ReachableDeployment setup (· ∈ bodies) d ∧ batch ∈ d.flushed ∧ put ∈ d.accepted ∧
      (d.party .observer).spool.disk = (ran setup .observer (postedStage setup batch body)).2 ∧
      (d.party .outpost).spool.disk = (ran setup .outpost (storedStage setup batch body)).2 := by
  obtain ⟨hflushUses, hpostUses, hpostedUses⟩ := by simpa using h.usesObserver
  obtain ⟨hacceptUses, hputUses, hstoredUses⟩ := by simpa using h.usesOutpost
  have hinitial : ReachableDeployment setup (· ∈ bodies) .initial := .initial
  have hobserver := hinitial.run_reopen
    (rfl : (Deployment.initial.party Side.observer).spool = ⟨.empty, .down, fun _ => False⟩) h.opens
  generalize hd : Deployment.initial.setParty Side.observer _ = d at hobserver
  have houtpost := hobserver.run_reopen
    (by rw [← hd]; rfl : (d.party Side.outpost).spool = ⟨.empty, .down, fun _ => False⟩) h.opens
  subst hd
  obtain ⟨_, hflushed⟩ := houtpost.run_to_end rfl (.flush hflush) hflushUses h.flushed
  obtain ⟨_, _, hanswered, hposts⟩ :=
    hflushed.run_to_request rfl .deliverObserver hpostUses h.posts
  obtain ⟨_, haccepted⟩ := hposts.run_to_end rfl (.accept .bare bearerHeaders List.mem_cons_self)
    hacceptUses h.accepted
  obtain ⟨_, hposted⟩ := haccepted.run_from_answer rfl List.mem_cons_self (hanswered 202)
    hpostedUses h.posted
  obtain ⟨_, _, hstored, hputs⟩ := hposted.run_to_request rfl .deliverOutpost hputUses h.puts
  have hheld := hputs.step (.accept List.mem_cons_self)
  have hreply := hheld.step (@DeploymentStep.answer _ _ _ put 200 List.mem_cons_self
    fun _ manifest hconveys => ⟨put, List.mem_cons_self, hconveys⟩)
  obtain ⟨_, hdone⟩ := hreply.run_from_answer rfl List.mem_cons_self (hstored 200)
    hstoredUses h.stored
  exact ⟨_, hdone, List.mem_cons_self, List.mem_cons_self, rfl, rfl⟩

end Undisturbed

/-! ### A concrete run -/

/-- The digests of a captured insert, as Observer writes it and as Outpost does. -/
def uploadDigest : Digest32 :=
  .ofTable
    [(Observer.textOf insertBatch, insertDigest.digest (Observer.textOf insertBatch)),
      (Observer.textOf spooledInsert,
        [208, 238, 161, 195, 69, 54, 224, 61, 61, 151, 45, 97, 11, 59, 81, 127, 217, 11, 209, 29,
          41, 176, 207, 67, 167, 134, 36, 137, 234, 14, 134, 115])]

private theorem uploadDocuments_distinct :
    ([Observer.documentOf insertBatch, Observer.documentOf spooledInsert, insertRecord].map
      fun document => toUtf8 (document.render fun _ => "")).Nodup := by
  decide +kernel

/-- An Observer that captures queries, and an Outpost with a bucket. -/
def bucketSetup : Setup :=
  { insertSetup with
    deps :=
      { insertSetup.deps with
        serde := .ofDocuments
          [Observer.documentOf insertBatch, Observer.documentOf spooledInsert, insertRecord] 127
          uploadDocuments_distinct
        sha256 := uploadDigest }
    destination := .s3 { bucket := "bucket", keyPrefix := "events" }
    gzip := insertEncoders.gzip }

/-- What Observer and Outpost write to their spools. -/
def uploadBodies : List Bytes := [Observer.textOf insertBatch, Observer.textOf spooledInsert]

/-- The request of Outpost. -/
def putInsert : Request :=
  .putObject "bucket"
    (s3ObjectKey bucketSetup.encoders { bucket := "bucket", keyPrefix := "events" } spooledInsert)
    insertObject

/-- No item is left in a spool. -/
def noItems (disk : Disk) : Bool :=
  disk.entries.keys.all fun
    | (_, .item _) => false
    | _ => true

/-- The run of the insert, and what its two bodies are. -/
private theorem insertBatch_run :
    (Undisturbed bucketSetup insertBatch (Observer.textOf insertBatch) uploadBodies putInsert
        (encodeHex (uploadDigest.digest (Observer.textOf spooledInsert))) ∧
      noItems (ran bucketSetup .observer
        (postedStage bucketSetup insertBatch (Observer.textOf insertBatch))).2 = true ∧
      noItems (ran bucketSetup .outpost
        (storedStage bucketSetup insertBatch (Observer.textOf insertBatch))).2 = true) ∧
    Observer.flushBatch bucketSetup.lib bucketSetup.deps.serde bucketSetup.assignment 0
        (Observer.nestedEvents 0) = some (insertBatch, Observer.textOf insertBatch) ∧
      bucketSetup.deps.serde.decode (DamBatch.codec bucketSetup.deps.serde)
        (Observer.textOf insertBatch) = some insertBatch ∧
      bucketSetup.deps.serde.encode (DamBatch.codec bucketSetup.deps.serde)
        (enrichBatch bucketSetup.deps bucketSetup.config .bare insertBatch) =
          some (Observer.textOf spooledInsert) ∧
      bucketSetup.deps.serde.decode (DamBatch.codec bucketSetup.deps.serde)
        (Observer.textOf spooledInsert) = some spooledInsert ∧
      ∀ a ∈ uploadBodies, ∀ b ∈ uploadBodies,
        uploadDigest.digest a = uploadDigest.digest b → a = b := by
  decide +kernel

private theorem not_spooled {disk : Disk} (h : noItems disk = true) (place : Place) (id : String) :
    disk.entries.get? (place, .item id) = none := by
  rw [← Option.not_isSome_iff_eq_none]
  intro hsome
  obtain ⟨file, hget⟩ := Option.isSome_iff_exists.mp hsome
  have hmem : (place, Name.item id) ∈ disk.entries.keys :=
    List.mem_map_of_mem (f := Prod.fst) (Table.get?_eq_some_iff.mp hget)
  cases List.all_eq_true.mp h _ hmem

private theorem uploadBodies_stems (body : Bytes) (hbody : body ∈ uploadBodies) :
    Stems bucketSetup (· ∈ uploadBodies) (fun _ => False) body := by
  obtain ⟨-, hflush, hread, hwritten, -, -⟩ := insertBatch_run
  have hwrote : Wrote bucketSetup (· ∈ uploadBodies) insertBatch (Observer.textOf insertBatch) :=
    ⟨List.mem_cons_self, 0, _, hflush⟩
  rcases List.mem_cons.mp hbody with rfl | hbody
  · exact .inl (.inr ⟨_, hwrote⟩)
  · rw [List.mem_singleton.mp hbody]
    exact .inr ⟨_, insertBatch, .bare, .inr ⟨_, hwrote⟩, hread, hwritten⟩

private theorem uploadBodies_namesOne :
    NamesOne bucketSetup (· ∈ uploadBodies) (fun _ => False) := by
  obtain ⟨-, -, hread, -, hstored, -⟩ := insertBatch_run
  have hsame : ∀ {body batch}, Submitted bucketSetup (· ∈ uploadBodies) (fun _ => False) body →
      Bears bucketSetup.deps.serde body batch → SameBatch batch insertBatch := by
    rintro body batch (hposted | ⟨_, hused, -⟩) hbears
    · cases hposted
    · rcases List.mem_cons.mp hused with rfl | hused
      · exact hbears.sameBatch hread
      · rw [List.mem_singleton.mp hused] at hbears
        exact (hbears.sameBatch hstored).trans (sameBatch_enrichBatch _ _ _ _).symm
  exact fun _ _ _ _ hsubmitted hsubmitted' hbears hbears' _ =>
    (hsame hsubmitted hbears).trans (hsame hsubmitted' hbears').symm

/-- The batch of a captured insert is flushed, sent to Outpost and put into the bucket. It has left
both spools, and the bucket holds it once. -/
theorem insertBatch_uploaded :
    ∃ d, ReachableDeployment bucketSetup (· ∈ uploadBodies) d ∧ insertBatch ∈ d.flushed ∧
      putInsert ∈ d.accepted ∧
      d.HoldsOnce bucketSetup { bucket := "bucket", keyPrefix := "events" } insertBatch := by
  obtain ⟨⟨hrun, hposted, hstored⟩, hflush, -, -, -, hdistinct⟩ := insertBatch_run
  obtain ⟨d, hreachable, hflushed, haccepted, hobserver, houtpost⟩ := hrun.reaches hflush
  refine ⟨d, hreachable, hflushed, haccepted, ?_⟩
  have hinjective : ∀ a b, a ∈ uploadBodies → b ∈ uploadBodies →
      bucketSetup.deps.sha256.digest a = bucketSetup.deps.sha256.digest b → a = b :=
    fun a b ha hb => hdistinct a ha b hb
  have huploaded := flushed_uploaded hinjective uploadBodies_stems uploadBodies_namesOne rfl
    hreachable hflushed
  refine huploaded.resolve_left ?_
  rintro ⟨side, place, body, file, -, hget, -⟩
  have hnone : noItems (d.party side).spool.disk = true := by
    cases side with
    | observer => rwa [hobserver]
    | outpost => rwa [houtpost]
  rw [not_spooled hnone] at hget
  cases hget

end MongoDam.Pipeline
