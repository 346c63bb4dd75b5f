import MongoDam.Pipeline.Handover

/-!
# At least once

In every state a deployment can reach, every flushed batch is in one of the two spools,
pending or in quarantine, or at the destination. What the deployment knows is read off
its state: a batch is safe at a hop when the spool there owes a body that conveys it, or
when it is safe at the next one. Every step keeps what is known, every task acts on it,
and a spool holds what it owes.
-/

namespace MongoDam.Pipeline

open Lib Schema Spool Outpost

/-! ### What a deployment knows -/

namespace Deployment

variable (setup : Setup) (d : Deployment)

/-- The spool of a process owes a body that conveys the batch. -/
def Owes (side : Side) (manifest : Manifest) : Prop :=
  ∃ body, (d.party side).spool.owed body ∧ Conveys setup.deps.serde body manifest

def known : Knowledge
  | .observer, manifest =>
    d.Owes setup .observer manifest ∨ d.Owes setup .outpost manifest ∨ d.Delivered setup manifest
  | .outpost, manifest => d.Owes setup .outpost manifest ∨ d.Delivered setup manifest
  | .destination, manifest => d.Delivered setup manifest

variable {setup d} {side : Side} {manifest : Manifest}

theorem known_here_iff :
    d.known setup side.here manifest ↔
      d.Owes setup side manifest ∨ d.known setup side.next manifest := by
  cases side with
  | observer => exact Iff.rfl
  | outpost => exact Iff.rfl

/-- What is known stays known when a spool stops owing only what is safe at the next hop. -/
theorem known_le {d' : Deployment}
    (howes : ∀ side manifest, d.Owes setup side manifest →
      d'.Owes setup side manifest ∨ d.known setup side.next manifest)
    (hdelivered : ∀ manifest, d.Delivered setup manifest → d'.Delivered setup manifest) :
    d.known setup ≤ d'.known setup := by
  have houtpost : ∀ manifest, d.known setup .outpost manifest →
      d'.known setup .outpost manifest := by
    rintro manifest (howed | hthere)
    · rcases howes .outpost manifest howed with hstill | hnext
      · exact Or.inl hstill
      · exact Or.inr (hdelivered manifest hnext)
    · exact Or.inr (hdelivered manifest hthere)
  intro hop manifest hknown
  cases hop with
  | destination => exact hdelivered manifest hknown
  | outpost => exact houtpost manifest hknown
  | observer =>
    rcases hknown with howed | hbeyond
    · rcases howes .observer manifest howed with hstill | hnext
      · exact Or.inl hstill
      · exact Or.inr (houtpost manifest hnext)
    · exact Or.inr (houtpost manifest hbeyond)

/-- The same for the spool of one process. -/
theorem known_le_setParty {party : Party}
    (howes : ∀ body manifest, (d.party side).spool.owed body →
      Conveys setup.deps.serde body manifest →
        party.spool.owed body ∨ d.known setup side.next manifest) :
    d.known setup ≤ (d.setParty side party).known setup := by
  refine known_le (fun other manifest howed => ?_) fun manifest hthere => hthere
  obtain ⟨body, howed, hconveys⟩ := howed
  by_cases hside : other = side
  · subst hside
    rcases howes body manifest howed hconveys with hstill | hnext
    · refine Or.inl ⟨body, ?_, hconveys⟩
      rwa [setParty_party]
    · exact Or.inr hnext
  · refine Or.inl ⟨body, ?_, hconveys⟩
    rwa [setParty_party_of_ne hside]

/-- The tasks of a process do not matter. -/
theorem known_le_setTasks {tasks : Pool ErrandOp ErrandOp.Result Report} :
    d.known setup ≤ (d.setParty side { d.party side with tasks }).known setup :=
  known_le_setParty fun _ _ howed _ => Or.inl howed

end Deployment

/-! ### The invariant -/

section Invariant

variable {setup : Setup} {used : Bytes → Prop}

/-- The spools are in custody, the tasks keep the terms, and answers and reports are true. -/
structure Deployment.Sound (setup : Setup) (used : Bytes → Prop) (d : Deployment) : Prop where
  spools : ∀ side, Spool.Reachable setup.deps.sha256 (setup.maxBytes side) used noFaults
    (d.party side).spool
  tasks : ∀ side, (d.party side).tasks.Keeps (handover setup used side) (Fulfilled setup)
    (d.known setup)
  answers : ∀ side request status, (request, status) ∈ d.answers side → request.Accepted status →
    ∀ manifest, request.Conveys setup.encoders manifest → d.known setup side.next manifest
  flushed : ∀ batch ∈ d.flushed, d.known setup .observer (manifestOf batch)

namespace Deployment.Sound

variable {d : Deployment} {side : Side}

theorem initial : Deployment.initial.Sound setup used where
  spools _ := .initial
  tasks _ := Pool.keeps_empty
  answers _ _ _ hmem := absurd hmem List.not_mem_nil
  flushed _ hmem := absurd hmem List.not_mem_nil

/-- A process has changed. -/
theorem setParty {party : Party} (h : d.Sound setup used)
    (hspool : Spool.Reachable setup.deps.sha256 (setup.maxBytes side) used noFaults party.spool)
    (hle : d.known setup ≤ (d.setParty side party).known setup)
    (htasks : party.tasks.Keeps (handover setup used side) (Fulfilled setup) (d.known setup)) :
    (d.setParty side party).Sound setup used where
  spools other := by
    by_cases hside : other = side
    · subst hside
      rwa [Deployment.setParty_party]
    · rw [Deployment.setParty_party_of_ne hside]
      exact h.spools other
  tasks other := by
    refine Pool.Keeps.grow (fun _ _ _ => Fulfilled.grow) hle ?_
    by_cases hside : other = side
    · subst hside
      rwa [Deployment.setParty_party]
    · rw [Deployment.setParty_party_of_ne hside]
      exact h.tasks other
  answers other request status hmem haccepted manifest hconveys :=
    hle _ _ (h.answers other request status hmem haccepted manifest hconveys)
  flushed batch hmem := hle _ _ (h.flushed batch hmem)

/-- The spool of a process has taken a step that releases nothing. -/
theorem setSpool {party : Party} (h : d.Sound setup used)
    (hstep : Spool.Step setup.deps.sha256 (setup.maxBytes side) used noFaults
      (d.party side).spool party.spool)
    (howed : ∀ body, (d.party side).spool.owed body → party.spool.owed body)
    (htasks : party.tasks.Keeps (handover setup used side) (Fulfilled setup) (d.known setup)) :
    (d.setParty side party).Sound setup used :=
  h.setParty ((h.spools side).step hstep)
    (Deployment.known_le_setParty fun body _ hbody _ => Or.inl (howed body hbody)) htasks

/-- Only the tasks of a process have changed. -/
theorem setTasks {tasks : Pool ErrandOp ErrandOp.Result Report} (h : d.Sound setup used)
    (htasks : tasks.Keeps (handover setup used side) (Fulfilled setup) (d.known setup)) :
    (d.setParty side { d.party side with tasks }).Sound setup used :=
  h.setParty (h.spools side) Deployment.known_le_setTasks htasks

theorem send (h : d.Sound setup used) (request : Request) :
    (d.send side request).Sound setup used :=
  ⟨h.spools, h.tasks, h.answers, h.flushed⟩

theorem answer {request : Request} {status : ℕ} (h : d.Sound setup used)
    (hanswer : request.Accepted status → ∀ manifest, request.Conveys setup.encoders manifest →
      d.known setup side.next manifest) :
    (d.answer side request status).Sound setup used := by
  refine ⟨h.spools, h.tasks, fun other request' status' hmem => ?_, h.flushed⟩
  by_cases hside : other = side
  · subst hside
    have hmem : (request', status') ∈ (request, status) :: d.answers other := by
      simpa [Deployment.answer] using hmem
    rcases List.mem_cons.mp hmem with heq | hmem
    · cases heq
      exact hanswer
    · exact h.answers other request' status' hmem
  · exact h.answers other request' status' (by simpa [Deployment.answer, hside] using hmem)

theorem accept (h : d.Sound setup used) (request : Request) :
    Deployment.Sound setup used { d with accepted := request :: d.accepted } := by
  have hle : d.known setup ≤
      ({ d with accepted := request :: d.accepted } : Deployment).known setup := by
    refine Deployment.known_le (fun _ _ howed => Or.inl howed) fun manifest hthere => ?_
    obtain ⟨other, hother, hconveys⟩ := hthere
    exact ⟨other, List.mem_cons_of_mem _ hother, hconveys⟩
  exact ⟨h.spools, fun side => (h.tasks side).grow (fun _ _ _ => Fulfilled.grow) hle,
    fun side other status hmem haccepted manifest hconveys =>
      hle _ _ (h.answers side other status hmem haccepted manifest hconveys),
    fun batch hmem => hle _ _ (h.flushed batch hmem)⟩

/-- A task that keeps the terms goes on or ends. -/
theorem resume {task : Task} (h : d.Sound setup used)
    (htask : task.Keeps (handover setup used side) (Fulfilled setup) (d.known setup)) :
    (d.resume side task).Sound setup used := by
  cases task with
  | perform op next => exact h.setTasks ((h.tasks side).add htask)
  | done report =>
    cases report with
    | finished => exact h
    | flushed batch =>
      refine ⟨h.spools, h.tasks, h.answers, fun other hmem => ?_⟩
      rcases List.mem_cons.mp hmem with rfl | hmem
      · exact htask
      · exact h.flushed other hmem
    | answered request response => exact h.answer htask

end Deployment.Sound

/-- A call releases only what it acknowledges. -/
private theorem owed_or_acknowledges {sha256 : Digest32} {owed : Bytes → Prop} {body : Bytes}
    (call : Call) (howed : owed body) :
    call.release sha256 owed body ∨
      ∃ item, call = .acknowledge item ∧ bodyId sha256 body = item.id := by
  cases call with
  | acknowledge item =>
    by_cases hid : bodyId sha256 body = item.id
    · exact Or.inr ⟨item, rfl, hid⟩
    · exact Or.inl ⟨howed, hid⟩
  | _ => exact Or.inl howed

/-- A call releases nothing when it returns. -/
private theorem owed_owe {owed : Bytes → Prop} {body : Bytes} (call : Call)
    (result : Except SpoolError call.Result) (howed : owed body) : call.owe owed result body := by
  unfold Call.owe
  split
  · exact Or.inl howed
  · exact howed

/-- What a call owes of its own it also owes beside other bodies. -/
private theorem owed_of_enqueued {owed : Bytes → Prop} {body : Bytes} (call : Call)
    (result : Except SpoolError call.Result) (h : call.owe (fun _ => False) result body) :
    call.owe owed result body := by
  unfold Call.owe at h ⊢
  split at h
  · exact Or.inr (h.resolve_left id)
  · cases h

variable {d d' : Deployment}

/-- What a call of the spool tells. -/
private theorem grants_of_returns {side : Side} {call : Call}
    {result : Except SpoolError call.Result} {known : Knowledge}
    (hreturns : call.Returns setup.deps.sha256 used result)
    (henqueued : ∀ body, call.owe (fun _ => False) result body →
      ∀ manifest, Conveys setup.deps.serde body manifest → known side.here manifest) :
    (handover setup used side).grants (.call call) result known := by
  cases result with
  | error error => cases call <;> trivial
  | ok value =>
    cases call with
    | enqueue body => exact henqueued body (Or.inr rfl)
    | read item => exact hreturns
    | _ => trivial

/-- A request has been answered, or given up. -/
private theorem sound_return (h : d.Sound setup used) {side : Side} {request : Request}
    {result : Except String ℕ} {next : Except String ℕ → Task}
    {tasks : Pool ErrandOp ErrandOp.Result Report}
    (hreturns : Pool.Returns (.send request) next (d.party side).tasks tasks)
    (hgrants : (handover setup used side).grants (.send request) result (d.known setup)) :
    ((d.setParty side { d.party side with tasks }).resume side (next result)).Sound setup used := by
  refine (h.setTasks ((h.tasks side).returns hreturns)).resume ?_
  have hnext := (h.tasks side).next hreturns le_rfl hgrants
  exact hnext.grow (Q := Fulfilled setup) (fun _ _ _ => Fulfilled.grow) Deployment.known_le_setTasks

variable (hinjective : ∀ a b, used a → used b →
  setup.deps.sha256.digest a = setup.deps.sha256.digest b → a = b)

include hinjective

/-- A call begins. What it releases is safe at the next hop. -/
private theorem sound_call (h : d.Sound setup used) {side : Side} {disk : Disk}
    {owed : Bytes → Prop} {call : Call}
    {next : Except SpoolError call.Result → Task} {tasks : Pool ErrandOp ErrandOp.Result Report}
    (hspool : (d.party side).spool = ⟨disk, .idle, owed⟩) (hused : call.Uses used)
    (hbegins : Pool.Begins (.call call) next (d.party side).tasks tasks) :
    (d.setParty side
      { spool := ⟨disk, .running call (call.program setup.deps.sha256 (setup.maxBytes side)),
          call.release setup.deps.sha256 owed⟩
        tasks }).Sound setup used := by
  have hreachable := h.spools side
  have hkept := kept_of_reachable hinjective hreachable
  rw [hspool] at hreachable
  refine h.setParty (hreachable.step (.call call hused)) ?_ ((h.tasks side).begins hbegins)
  refine Deployment.known_le_setParty fun body manifest howed hconveys => ?_
  obtain ⟨place, hplace⟩ := hkept.held body howed
  have hinUse : used body := (hkept.named _ _ _ hplace).2
  rw [hspool] at howed
  rcases owed_or_acknowledges call howed with hstill | ⟨item, rfl, hid⟩
  · exact Or.inl hstill
  · exact Or.inr ((h.tasks side).requires hbegins body manifest hinUse hid hconveys)

/-- A call has come to its end. What it grants is true. -/
private theorem sound_finish (h : d.Sound setup used) {side : Side} {disk : Disk}
    {owed : Bytes → Prop} {call : Call}
    {result : Except SpoolError call.Result} {next : Except SpoolError call.Result → Task}
    {tasks : Pool ErrandOp ErrandOp.Result Report}
    (hspool : (d.party side).spool = ⟨disk, .running call (.done result), owed⟩)
    (hreturns : Pool.Returns (.call call) next (d.party side).tasks tasks) :
    ((d.setParty side
      { spool := ⟨disk, Phase.after call result, call.owe owed result⟩, tasks }).resume side
        (next result)).Sound setup used := by
  have howed : ∀ body, (d.party side).spool.owed body → call.owe owed result body := by
    rw [hspool]
    exact fun body howed => owed_owe call result howed
  have hfinished : (d.setParty side
      { spool := ⟨disk, Phase.after call result, call.owe owed result⟩, tasks }).Sound
        setup used := by
    refine h.setSpool ?_ howed ((h.tasks side).returns hreturns)
    rw [hspool]
    exact .finish
  have hle : d.known setup ≤ (d.setParty side
      { spool := ⟨disk, Phase.after call result, call.owe owed result⟩, tasks }).known setup :=
    Deployment.known_le_setParty fun body _ hbody _ => Or.inl (howed body hbody)
  refine hfinished.resume ((h.tasks side).next hreturns hle (grants_of_returns ?_ ?_))
  · exact returns_of_reachable hinjective (h.spools side) (congrArg Machine.phase hspool)
  · intro body henqueued manifest hconveys
    refine Deployment.known_here_iff.mpr (Or.inl ⟨body, ?_, hconveys⟩)
    rw [Deployment.setParty_party]
    exact owed_of_enqueued call result henqueued

/-- Every step keeps the invariant. -/
theorem DeploymentStep.sound (hstep : DeploymentStep setup used d d') (h : d.Sound setup used) :
    d'.Sound setup used := by
  cases hstep with
  | start hup hstarts => exact h.resume (hstarts.keeps hinjective _)
  | call hspool hused hbegins => exact sound_call hinjective h hspool hused hbegins
  | finish hspool hreturns => exact sound_finish hinjective h hspool hreturns
  | @perform side _ _ _ _ _ _ _ hspool hexec =>
    refine h.setSpool ?_ ?_ (h.tasks side)
    · rw [hspool]
      exact .perform (Or.inl hexec)
    · rw [hspool]
      exact fun _ howed => howed
  | @restart side _ _ hspool =>
    refine h.setSpool ?_ ?_ (h.tasks side)
    · rw [hspool]
      exact .restart
    · rw [hspool]
      exact fun _ howed => howed
  | @opened side _ _ _ hspool =>
    refine h.setSpool ?_ ?_ (h.tasks side)
    · rw [hspool]
      exact .finish
    · rw [hspool]
      exact fun _ howed => howed
  | crash hspool hcrash =>
    refine h.setSpool ?_ ?_ Pool.keeps_empty
    · rw [hspool]
      exact .crash hcrash
    · rw [hspool]
      exact fun _ howed => howed
  | @send side request _ _ hbegins =>
    exact (h.setTasks ((h.tasks side).begins hbegins)).send request
  | @receive side request status _ _ hreturns hanswer =>
    exact sound_return h hreturns (h.answers side request status hanswer)
  | timeout error hreturns => exact sound_return h hreturns trivial
  | foreign request => exact h.send request
  | refuse hsent hrefused => exact h.answer fun haccepted => absurd haccepted hrefused
  | accept hsent => exact h.accept _
  | answer hsent hheld => exact h.answer hheld

theorem ReachableDeployment.sound (h : ReachableDeployment setup used d) : d.Sound setup used := by
  induction h with
  | initial => exact .initial
  | step _ hstep ih => exact hstep.sound hinjective ih

end Invariant

/-! ### Custody from end to end -/

/-- A spool holds a body that conveys the batch, as the item of that body. -/
def Deployment.Spooled (setup : Setup) (d : Deployment) (side : Side) (place : Place)
    (manifest : Manifest) : Prop :=
  ∃ body file, Conveys setup.deps.serde body manifest ∧
    (d.party side).spool.disk.entries.get?
      (place, .item (encodeHex (setup.deps.sha256.digest body))) = some file ∧
    ((d.party side).spool.disk.files file).data = body

/-- In every state that Observer, Outpost and the destination can reach, over lost, late and
repeated messages, requests that time out, changing surroundings and crashes at any step, a
batch whose `enqueue` in `flush_batch` returned `Ok` is held under its id, with the same event
ids in the same order: pending or in quarantine at Observer, pending or in quarantine at
Outpost, or at the destination. -/
theorem flushed_held {setup : Setup} {used : Bytes → Prop}
    (hinjective : ∀ a b, used a → used b →
      setup.deps.sha256.digest a = setup.deps.sha256.digest b → a = b)
    {d : Deployment} (h : ReachableDeployment setup used d) {batch : DamBatch}
    (hflushed : batch ∈ d.flushed) :
    (∃ side place, d.Spooled setup side place (manifestOf batch)) ∨
      d.Delivered setup (manifestOf batch) := by
  have hsound := h.sound hinjective
  have hspooled : ∀ side, d.Owes setup side (manifestOf batch) →
      ∃ place, d.Spooled setup side place (manifestOf batch) := by
    rintro side ⟨body, howed, hconveys⟩
    obtain ⟨place, hplace⟩ := (kept_of_reachable hinjective (hsound.spools side)).held body howed
    obtain ⟨file, hget, hdata⟩ := holdings_eq_some.mp hplace
    exact ⟨place, body, file, hconveys, hget, hdata⟩
  rcases hsound.flushed batch hflushed with hobserver | houtpost | hdelivered
  · exact Or.inl ⟨.observer, hspooled .observer hobserver⟩
  · exact Or.inl ⟨.outpost, hspooled .outpost houtpost⟩
  · exact Or.inr hdelivered

/-! ### A concrete run -/

section Runs

open Program FileSystem

variable {setup : Setup} {used : Bytes → Prop} {d : Deployment} {side : Side}

/-- A call that is under way can be run to its end. -/
theorem ReachableDeployment.run_rest {disk : Disk} {owed : Bytes → Prop} {call : Call}
    {rest : Action call.Result} (h : ReachableDeployment setup used d)
    (hspool : (d.party side).spool = ⟨disk, .running call rest, owed⟩) :
    ReachableDeployment setup used (d.setParty side
      { d.party side with spool := ⟨(run perform rest disk).2,
          .running call (.done (run perform rest disk).1), owed⟩ }) := by
  unfold Spool.Action at rest
  induction rest generalizing d disk with
  | done result =>
    rw [run, ← hspool, Deployment.setParty_self]
    exact h
  | perform op next ih =>
    have hperformed := h.step (.perform hspool (exec_perform op disk))
    have hended := ih _ hperformed (by rw [Deployment.setParty_party])
    rwa [Deployment.setParty_setParty, Deployment.setParty_party] at hended

/-- A task can make a call between calls, and go on with its result. -/
theorem ReachableDeployment.run_call {disk : Disk} {owed : Bytes → Prop} {call : Call}
    {result : Except SpoolError call.Result} {next : Except SpoolError call.Result → Task}
    {rest : List Task} (h : ReachableDeployment setup used d)
    (hspool : (d.party side).spool = ⟨disk, .idle, owed⟩) (hused : call.Uses used)
    (hready : (d.party side).tasks.ready = .perform (.call call) next :: rest)
    (hresult : (run perform (call.program setup.deps.sha256 (setup.maxBytes side)) disk).1 =
      result) :
    ReachableDeployment setup used ((d.setParty side
      { spool := ⟨(run perform (call.program setup.deps.sha256 (setup.maxBytes side)) disk).2,
          Phase.after call result, call.owe (call.release setup.deps.sha256 owed) result⟩
        tasks := { ready := rest, pending := (d.party side).tasks.pending } }).resume side
          (next result)) := by
  have hbegins : Pool.Begins (.call call) next (d.party side).tasks
      { ready := rest, pending := ⟨.call call, next⟩ :: (d.party side).tasks.pending } :=
    ⟨hready ▸ .refl _, rfl⟩
  have hcalled := (h.step (.call hspool hused hbegins)).run_rest
    (by rw [Deployment.setParty_party])
  rw [Deployment.setParty_setParty, Deployment.setParty_party, hresult] at hcalled
  generalize hrunning : d.setParty side _ = running at hcalled
  have hparty := congrArg (Deployment.party · side) hrunning.symm
  rw [Deployment.setParty_party] at hparty
  have hreturns : Pool.Returns (.call call) next (running.party side).tasks
      { ready := rest, pending := (d.party side).tasks.pending } := by
    rw [hparty]
    exact ⟨.refl _, rfl⟩
  have hended := hcalled.step (.finish (congrArg Party.spool hparty) hreturns)
  rwa [← hrunning, Deployment.setParty_setParty] at hended

/-- A process that is down can be started again. -/
theorem ReachableDeployment.run_reopen {disk : Disk} {owed : Bytes → Prop}
    (h : ReachableDeployment setup used d) (hspool : (d.party side).spool = ⟨disk, .down, owed⟩)
    (hopen : (run perform (openSpool setup.deps.sha256) disk).1 = .ok ()) :
    ReachableDeployment setup used (d.setParty side { d.party side with
      spool := ⟨(run perform (openSpool setup.deps.sha256) disk).2, .idle, owed⟩ }) := by
  have hrestarted := (h.step (.restart hspool)).run_rest (by rw [Deployment.setParty_party])
  have hopened := hrestarted.step (.opened (by rw [Deployment.setParty_party]))
  rw [hopen] at hopened
  rwa [Deployment.setParty_setParty, Deployment.setParty_setParty, Deployment.setParty_party,
    Deployment.setParty_party] at hopened

theorem ReachableDeployment.run_restart {disk : Disk} {owed : Bytes → Prop}
    (h : ReachableDeployment setup used d) (hspool : (d.party side).spool = ⟨disk, .down, owed⟩)
    (hopen : (run perform (openSpool setup.deps.sha256) disk).1 = .ok ()) :
    ∃ d', ReachableDeployment setup used d' ∧ (d'.party side).spool =
      ⟨(run perform (openSpool setup.deps.sha256) disk).2, .idle, owed⟩ :=
  ⟨_, h.run_reopen hspool hopen, by rw [Deployment.setParty_party]⟩

/-- A batch can be flushed when the spool of Observer takes its body. -/
theorem ReachableDeployment.run_flush {createdAt : ℤ} {events : List DamEvent} {batch : DamBatch}
    {body : Bytes} {disk : Disk} {owed : Bytes → Prop} {id : String}
    (h : ReachableDeployment setup used d)
    (hspool : (d.party .observer).spool = ⟨disk, .idle, owed⟩)
    (hflush : Observer.flushBatch setup.lib setup.deps.serde setup.assignment createdAt events =
      some (batch, body)) (hused : used body)
    (hspooled : (run perform (enqueue setup.deps.sha256 setup.spoolMaxBytes body) disk).1 =
      .ok id) :
    ∃ d', ReachableDeployment setup used d' ∧ batch ∈ d'.flushed := by
  have hup : (d.party .observer).isUp = true := by rw [Party.isUp, hspool]
  have hstarted := h.step (.start hup (.flush hflush))
  have hparty : (d.resume .observer (flushTask batch body)).party .observer =
      { d.party .observer with
        tasks := (d.party .observer).tasks.add (flushTask batch body) } :=
    Deployment.setParty_party _
  have henqueues : Call.Uses used (.enqueue body) := hused
  have hready : ((d.resume .observer (flushTask batch body)).party .observer).tasks.ready =
      flushTask batch body :: (d.party .observer).tasks.ready := by
    rw [hparty]
    rfl
  have hidle : ((d.resume .observer (flushTask batch body)).party .observer).spool =
      ⟨disk, .idle, owed⟩ := by
    rw [hparty]
    exact hspool
  exact ⟨_, hstarted.run_call hidle henqueues hready hspooled, List.mem_cons_self ..⟩

end Runs

/-- The batch of the captured insert of an empty document. -/
def insertBatch : DamBatch := Observer.epochBatch (Observer.nestedEvents 0)

/-- The digest of its text. -/
def insertDigest : Digest32 :=
  .ofTable [(Observer.textOf insertBatch,
    [133, 173, 17, 134, 195, 137, 113, 224, 154, 37, 102, 81, 25, 103, 80, 188, 227, 70, 210, 98,
      92, 14, 38, 249, 66, 186, 15, 128, 177, 165, 111, 18])]

/-- An Observer that captures queries, and an Outpost with an HTTP receiver. -/
def insertSetup : Setup where
  lib := .ofDigests Observer.batchDigests
  assignment := .sample
  spoolMaxBytes := 2048
  outpostUrl := "http://outpost/v1/observer/batches"
  internalToken := some "secret"
  deps :=
    { serde := Observer.serdeOf insertBatch
      sha256 := insertDigest
      invalidBatch := fun _ => ""
      unwritableBatch := fun _ => ""
      ioMessage := fun _ => "" }
  config := .sample
  destination := .http { endpoint := "https://receiver/v1/batches", bearerToken := "token" }
  gzip := id
  calendar _ := ⟨1970, 1, 1, 0⟩

/-- The spool of Observer after it was opened. -/
def insertOpened : Disk := (Program.run FileSystem.perform (openSpool insertDigest) .empty).2

private theorem insertBatch_spooled : (Program.run FileSystem.perform
    (enqueue insertDigest 2048 (Observer.textOf insertBatch)) insertOpened).1.toOption.isSome := by
  decide +kernel

/-- The batch of a captured insert is flushed, and Observer crashes: the batch is held. -/
theorem insertBatch_held :
    ∃ d, ReachableDeployment insertSetup (· = Observer.textOf insertBatch) d ∧
      (d.party .observer).isUp = false ∧ insertBatch ∈ d.flushed ∧
      ((∃ side place, d.Spooled insertSetup side place (manifestOf insertBatch)) ∨
        d.Delivered insertSetup (manifestOf insertBatch)) := by
  have hinjective : ∀ a b : Bytes, a = Observer.textOf insertBatch →
      b = Observer.textOf insertBatch →
        insertSetup.deps.sha256.digest a = insertSetup.deps.sha256.digest b → a = b := by
    rintro a b rfl rfl _
    rfl
  have hinitial : ReachableDeployment insertSetup (· = Observer.textOf insertBatch) .initial :=
    .initial
  have hdown : (Deployment.initial.party .observer).spool = ⟨.empty, .down, fun _ => False⟩ := rfl
  obtain ⟨d, hopened, hspool⟩ := hinitial.run_restart hdown rfl
  obtain ⟨id, hid⟩ : ∃ id, (Program.run FileSystem.perform
      (enqueue insertDigest 2048 (Observer.textOf insertBatch)) insertOpened).1 = .ok id := by
    have hspooled := insertBatch_spooled
    revert hspooled
    cases (Program.run FileSystem.perform
      (enqueue insertDigest 2048 (Observer.textOf insertBatch)) insertOpened).1 with
    | ok id => exact fun _ => ⟨id, rfl⟩
    | error error => rintro ⟨⟩
  obtain ⟨d, hreachable, hflushed⟩ := hopened.run_flush hspool
    (Observer.flushBatch_of_oneQuery Observer.nestedEvents_flat).1 rfl hid
  have hcrash : FileSystem.Crash (· = Observer.textOf insertBatch)
      (d.party .observer).spool.disk
      (crashed (d.party .observer).spool.disk (Observer.textOf insertBatch)) := crash_crashed rfl
  have hcrashed := hreachable.step (.crash rfl hcrash)
  refine ⟨_, hcrashed, ?_, hflushed, flushed_held hinjective hcrashed hflushed⟩
  rw [Party.isUp, Deployment.setParty_party]

end MongoDam.Pipeline
