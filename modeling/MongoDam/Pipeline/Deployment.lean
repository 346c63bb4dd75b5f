import Mathlib.Logic.Function.Basic
import MongoDam.Observer.Batch
import MongoDam.Pipeline.Errands

/-!
# A deployment

Observer and Outpost, each with a spool of its own, and the destination behind them.
A process runs its tasks step by step: one call of the spool is under way at a time,
requests are waited for, and a crash at any step drops all tasks and leaves the spool
to be opened again. Messages are never taken back, so that a request may be served
late, more than once or not at all, and its answer may come late or never. What
Outpost finds when it enriches a batch, its pods and its files, may be different each
time. File operations do not fail, and what a call has done is durable once it returns.
-/

namespace MongoDam.Pipeline

open Lib Schema Spool Outpost

/-! ### Batches on their way -/

/-- The id of a batch and those of its events, in order. -/
structure Manifest where
  batchId : String
  eventIds : List String
  deriving DecidableEq, Repr

def manifestOf (batch : DamBatch) : Manifest where
  batchId := batch.batchId
  eventIds := batch.events.map (·.eventId)

/-- The body is the text of a batch with the manifest. -/
def Conveys (serde : Serde) (body : Bytes) (manifest : Manifest) : Prop :=
  ∃ batch, serde.encode (DamBatch.codec serde) batch = some body ∧ manifestOf batch = manifest

/-- The request carries a batch with the manifest: as a body under the id of the batch, or as
an object with its events. -/
def Request.Conveys (encoders : Encoders) : Request → Manifest → Prop
  | .post _ _ idempotencyKey body, manifest =>
    idempotencyKey = manifest.batchId ∧ Pipeline.Conveys encoders.serde body manifest
  | .putObject bucket key body, manifest =>
    ∃ destination batch, bucket = destination.bucket ∧
      key = s3ObjectKey encoders destination batch ∧ encodeS3Ndjson encoders batch = some body ∧
      manifestOf batch = manifest

/-- The answer means that the batch is there. `PutObject` has no other answers: a failure is an
error of the client. -/
def Request.Accepted : Request → ℕ → Prop
  | .post .., status => isSuccess status ∨ status = 409
  | .putObject .., _ => True

/-! ### Processes -/

/-- The processes with a spool. -/
inductive Side where
  | observer
  | outpost
  deriving DecidableEq, Repr

/-- How Observer and Outpost are set up, and the third-party code. -/
structure Setup where
  lib : Observer.External
  assignment : Observer.Assignment
  spoolMaxBytes : ℕ
  outpostUrl : String
  internalToken : Option String
  deps : Dependencies
  config : OutpostConfig
  destination : DestinationConfig
  gzip : Bytes → Bytes
  calendar : ℤ → CivilHour

namespace Setup

variable (setup : Setup)

def encoders : Encoders where
  serde := setup.deps.serde
  gzip := setup.gzip
  calendar := setup.calendar

/-- The limit of a spool. -/
def maxBytes : Side → ℕ
  | .observer => setup.spoolMaxBytes
  | .outpost => setup.config.spoolMaxBytes

end Setup

/-- How a task ends. -/
inductive Report where
  | finished
  | flushed (batch : DamBatch)
  | answered (request : Request) (response : Response)
  deriving DecidableEq

/-- What a process does between two of its operations. -/
abbrev Task : Type := Program ErrandOp ErrandOp.Result Report

/-- `flush_batch` once the batch is written. -/
def flushTask (batch : DamBatch) (body : Bytes) : Task :=
  .perform (.call (.enqueue body)) fun
    | .ok _ => .done (.flushed batch)
    | .error _ => .done .finished

/-- A delivery pass. An error ends it. -/
def passTask (pass : Errand Unit) : Task := Program.bind pass fun _ => .done .finished

/-- The health of a process. -/
def healthTask : Task :=
  .perform (.call .stats) fun _ => .perform (.call .quarantineStats) fun _ => .done .finished

/-- `accept_batch` for a request. -/
def acceptTask (setup : Setup) (surroundings : Surroundings) (headers : HeaderMap)
    (request : Request) (body : Bytes) : Task :=
  (acceptErrand setup.deps setup.config surroundings headers body).bind fun response =>
    .done (.answered request response)

/-- The tasks that a process may start, at any time and beside others, when some requests are on
their way to Outpost. -/
inductive Starts (setup : Setup) (requests : List Request) : Side → Task → Prop
  | flush {createdAt : ℤ} {events : List DamEvent} {batch : DamBatch} {body : Bytes}
      (hflush : Observer.flushBatch setup.lib setup.deps.serde setup.assignment createdAt events =
        some (batch, body)) :
      Starts setup requests .observer (flushTask batch body)
  | deliverObserver :
      Starts setup requests .observer
        (passTask (.deliverObserverSpool setup.deps.serde setup.outpostUrl setup.internalToken))
  | accept {url : String} {bearer : Option String} {idempotencyKey : String} {body : Bytes}
      (surroundings : Surroundings) (headers : HeaderMap)
      (hsent : .post url bearer idempotencyKey body ∈ requests) :
      Starts setup requests .outpost
        (acceptTask setup surroundings headers (.post url bearer idempotencyKey body) body)
  | deliverOutpost :
      Starts setup requests .outpost
        (passTask (.deliverPending setup.encoders setup.destination setup.destination.client))
  | health {side : Side} : Starts setup requests side healthTask

/-- A process: its spool, and its tasks. -/
structure Party where
  spool : Machine
  tasks : Pool ErrandOp ErrandOp.Result Report

/-- The spool is open. -/
def Party.isUp (party : Party) : Bool :=
  match party.spool.phase with
  | .down => false
  | .idle => true
  | .running .reopen _ => false
  | .running _ _ => true

/-! ### Steps -/

/-- The processes, the requests each of them has sent, the answers to these, what the
destination has accepted, and the batches whose `enqueue` in `flush_batch` returned `Ok`. -/
structure Deployment where
  party : Side → Party
  requests : Side → List Request
  answers : Side → List (Request × ℕ)
  accepted : List Request
  flushed : List DamBatch

namespace Deployment

def initial : Deployment where
  party _ := { spool := .initial, tasks := {} }
  requests _ := []
  answers _ := []
  accepted := []
  flushed := []

/-- The destination holds a batch with the manifest. -/
def Delivered (setup : Setup) (d : Deployment) (manifest : Manifest) : Prop :=
  ∃ request ∈ d.accepted, request.Conveys setup.encoders manifest

variable (d : Deployment) (side : Side)

def setParty (party : Party) : Deployment :=
  { d with party := Function.update d.party side party }

/-- A request is on its way. -/
def send (request : Request) : Deployment :=
  { d with requests := Function.update d.requests side (request :: d.requests side) }

/-- An answer is on its way. -/
def answer (request : Request) (status : ℕ) : Deployment :=
  { d with answers := Function.update d.answers side ((request, status) :: d.answers side) }

/-- What the end of a task brings about. -/
def report : Report → Deployment
  | .finished => d
  | .flushed batch => { d with flushed := batch :: d.flushed }
  | .answered request response => d.answer .observer request response.status

/-- A task goes on, or has come to its end. -/
def resume : Task → Deployment
  | .done report => d.report report
  | .perform op next =>
    d.setParty side
      { d.party side with tasks := (d.party side).tasks.add (.perform op next) }

variable {d side}

@[simp] theorem setParty_party (party : Party) : (d.setParty side party).party side = party :=
  Function.update_self ..

theorem setParty_party_of_ne {other : Side} (h : other ≠ side) (party : Party) :
    (d.setParty side party).party other = d.party other := Function.update_of_ne h ..

@[simp] theorem setParty_setParty (party party' : Party) :
    (d.setParty side party).setParty side party' = d.setParty side party' := by
  simp [setParty]

@[simp] theorem setParty_self : d.setParty side (d.party side) = d := by
  simp [setParty]

end Deployment

section Steps

variable (setup : Setup) (used : Bytes → Prop)

/-- One step of a deployment. Outpost has other senders too, and something before it may refuse
a request. What the destination accepts and how it answers is up to it, but an accepting answer
is only given once it holds the batch. -/
inductive DeploymentStep : Deployment → Deployment → Prop
  | start {d : Deployment} {side : Side} {task : Task} (hup : (d.party side).isUp = true)
      (hstarts : Starts setup (d.requests .observer) side task) :
      DeploymentStep d (d.resume side task)
  | call {d : Deployment} {side : Side} {disk : Disk} {owed : Bytes → Prop} {call : Call}
      {next : Except SpoolError call.Result → Task} {tasks : Pool ErrandOp ErrandOp.Result Report}
      (hspool : (d.party side).spool = ⟨disk, .idle, owed⟩) (hused : call.Uses used)
      (hbegins : Pool.Begins (.call call) next (d.party side).tasks tasks) :
      DeploymentStep d (d.setParty side
        { spool := ⟨disk, .running call (call.program setup.deps.sha256 (setup.maxBytes side)),
            call.release setup.deps.sha256 owed⟩
          tasks })
  | perform {d : Deployment} {side : Side} {disk disk' : Disk} {owed : Bytes → Prop} {call : Call}
      {op : FileOp Place Name} {next : Except IoError op.Value → Action call.Result}
      {result : Except IoError op.Value}
      (hspool : (d.party side).spool = ⟨disk, .running call (.perform op next), owed⟩)
      (hexec : FileSystem.Exec op disk result disk') :
      DeploymentStep d (d.setParty side
        { d.party side with spool := ⟨disk', .running call (next result), owed⟩ })
  | finish {d : Deployment} {side : Side} {disk : Disk} {owed : Bytes → Prop} {call : Call}
      {result : Except SpoolError call.Result} {next : Except SpoolError call.Result → Task}
      {tasks : Pool ErrandOp ErrandOp.Result Report}
      (hspool : (d.party side).spool = ⟨disk, .running call (.done result), owed⟩)
      (hreturns : Pool.Returns (.call call) next (d.party side).tasks tasks) :
      DeploymentStep d ((d.setParty side
        { spool := ⟨disk, Phase.after call result, call.owe owed result⟩, tasks }).resume side
          (next result))
  | restart {d : Deployment} {side : Side} {disk : Disk} {owed : Bytes → Prop}
      (hspool : (d.party side).spool = ⟨disk, .down, owed⟩) :
      DeploymentStep d (d.setParty side
        { d.party side with spool := ⟨disk, .running .reopen (openSpool setup.deps.sha256), owed⟩ })
  | opened {d : Deployment} {side : Side} {disk : Disk} {owed : Bytes → Prop}
      {result : Except SpoolError Unit}
      (hspool : (d.party side).spool = ⟨disk, .running .reopen (.done result), owed⟩) :
      DeploymentStep d (d.setParty side
        { d.party side with spool := ⟨disk, Phase.after .reopen result, owed⟩ })
  | crash {d : Deployment} {side : Side} {disk disk' : Disk} {phase : Phase} {owed : Bytes → Prop}
      (hspool : (d.party side).spool = ⟨disk, phase, owed⟩)
      (hcrash : FileSystem.Crash used disk disk') :
      DeploymentStep d (d.setParty side { spool := ⟨disk', .down, owed⟩, tasks := {} })
  | send {d : Deployment} {side : Side} {request : Request} {next : Except String ℕ → Task}
      {tasks : Pool ErrandOp ErrandOp.Result Report}
      (hbegins : Pool.Begins (.send request) next (d.party side).tasks tasks) :
      DeploymentStep d ((d.setParty side { d.party side with tasks }).send side request)
  | receive {d : Deployment} {side : Side} {request : Request} {status : ℕ}
      {next : Except String ℕ → Task} {tasks : Pool ErrandOp ErrandOp.Result Report}
      (hreturns : Pool.Returns (.send request) next (d.party side).tasks tasks)
      (hanswer : (request, status) ∈ d.answers side) :
      DeploymentStep d ((d.setParty side { d.party side with tasks }).resume side
        (next (.ok status)))
  | timeout {d : Deployment} {side : Side} {request : Request} {next : Except String ℕ → Task}
      {tasks : Pool ErrandOp ErrandOp.Result Report} (error : String)
      (hreturns : Pool.Returns (.send request) next (d.party side).tasks tasks) :
      DeploymentStep d ((d.setParty side { d.party side with tasks }).resume side
        (next (.error error)))
  | foreign {d : Deployment} (request : Request) : DeploymentStep d (d.send .observer request)
  | refuse {d : Deployment} {request : Request} {status : ℕ}
      (hsent : request ∈ d.requests .observer) (hrefused : ¬request.Accepted status) :
      DeploymentStep d (d.answer .observer request status)
  | accept {d : Deployment} {request : Request} (hsent : request ∈ d.requests .outpost) :
      DeploymentStep d { d with accepted := request :: d.accepted }
  | answer {d : Deployment} {request : Request} {status : ℕ}
      (hsent : request ∈ d.requests .outpost)
      (hheld : request.Accepted status → ∀ manifest, request.Conveys setup.encoders manifest →
        d.Delivered setup manifest) :
      DeploymentStep d (d.answer .outpost request status)

/-- The states a deployment can reach. -/
inductive ReachableDeployment : Deployment → Prop
  | initial : ReachableDeployment .initial
  | step {d d' : Deployment} (hd : ReachableDeployment d)
      (hstep : DeploymentStep setup used d d') : ReachableDeployment d'

end Steps

end MongoDam.Pipeline
