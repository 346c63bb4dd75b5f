import MongoDam.Outpost.Acceptance
import MongoDam.Pipeline.Deployment

/-!
# Handing batches over

What a process knows about a batch is that it is safe: at a hop, or at one beyond it.
That never stops being true, whatever the other tasks and processes do. The terms say
which operations need to know it and which of them tell: an item may be acknowledged
once every batch it could convey is safe at the next hop, and an accepting answer says
that the batch of the request is. Every task that a process starts keeps the terms.
-/

namespace MongoDam.Pipeline

open Lib Schema Spool Outpost

/-! ### What is known -/

/-- The places a batch comes to, one after the other. -/
inductive Hop where
  | observer
  | outpost
  | destination
  deriving DecidableEq, Repr

/-- Which batches are safe at a hop, or at one beyond it. -/
abbrev Knowledge : Type := Hop → Manifest → Prop

namespace Side

def here : Side → Hop
  | .observer => .observer
  | .outpost => .outpost

def next : Side → Hop
  | .observer => .outpost
  | .outpost => .destination

end Side

section Terms

variable (setup : Setup) (used : Bytes → Prop)

/-- The terms on which a process hands batches over. -/
def handover (side : Side) : Terms ErrandOp ErrandOp.Result Knowledge where
  requires
    | .call (.acknowledge item), known => ∀ body manifest, used body →
      bodyId setup.deps.sha256 body = item.id → Conveys setup.deps.serde body manifest →
        known side.next manifest
    | _, _ => True
  grants
    | .call (.read item), .ok body, _ => bodyId setup.deps.sha256 body = item.id ∧ used body
    | .call (.enqueue body), .ok _, known =>
      ∀ manifest, Conveys setup.deps.serde body manifest → known side.here manifest
    | .send request, .ok status, known => request.Accepted status →
      ∀ manifest, request.Conveys setup.encoders manifest → known side.next manifest
    | _, _, _ => True
  requires_mono := by
    intro op known known' hle hrequires
    split at hrequires
    · exact fun body manifest hused hid hconveys =>
        hle _ _ (hrequires body manifest hused hid hconveys)
    · trivial

/-- The end of a task tells the truth: a flushed batch is safe, and so is the batch of a request
that was accepted. -/
def Fulfilled : Report → Knowledge → Prop
  | .finished, _ => True
  | .flushed batch, known => known .observer (manifestOf batch)
  | .answered request response, known => request.Accepted response.status →
    ∀ manifest, request.Conveys setup.encoders manifest → known .outpost manifest

variable {setup} in
theorem Fulfilled.grow {report : Report} {known known' : Knowledge} (hle : known ≤ known')
    (h : Fulfilled setup report known) : Fulfilled setup report known' := by
  cases report with
  | finished => trivial
  | flushed batch => exact hle _ _ h
  | answered request response =>
    exact fun haccepted manifest hconveys => hle _ _ (h haccepted manifest hconveys)

end Terms

/-! ### Texts of batches -/

/-- A batch that is read from a body has the manifest that the body conveys. -/
theorem Conveys.manifestOf_eq {serde : Serde} {body : Bytes} {manifest : Manifest}
    {batch : DamBatch} (h : Conveys serde body manifest)
    (hdecode : serde.decode (DamBatch.codec serde) body = some batch) :
    manifestOf batch = manifest := by
  obtain ⟨written, hwritten, rfl⟩ := h
  rw [Serde.decode_encode hwritten] at hdecode
  split at hdecode
  · cases hdecode
    simp [manifestOf]
  · cases hdecode

/-- The request that is made of a body carries what the body conveys. -/
theorem Conveys.post {setup : Setup} {body : Bytes} {manifest : Manifest} {batch : DamBatch}
    (h : Conveys setup.deps.serde body manifest)
    (hdecode : setup.deps.serde.decode (DamBatch.codec setup.deps.serde) body = some batch)
    (url : String) (bearer : Option String) :
    (Request.post url bearer batch.batchId body).Conveys setup.encoders manifest := by
  refine ⟨?_, h⟩
  rw [← h.manifestOf_eq hdecode]
  rfl

/-- Enrichment keeps the ids. -/
theorem manifestOf_enrichBatch {deps : Dependencies} {config : OutpostConfig}
    {surroundings : Surroundings} (batch : DamBatch) :
    manifestOf (enrichBatch deps config surroundings batch) = manifestOf batch := by
  rw [enrichBatch_eq]
  simp [manifestOf, enrichEvent, enrichKubernetes, enrichExternalIdentity]

/-! ### Rules for errands -/

section Rules

variable {κ : Type} [Preorder κ] {terms : Terms ErrandOp ErrandOp.Result κ} {known : κ}
  {Q : Except DeliveryError β → κ → Prop}

namespace Errand

/-- The errand keeps the terms and ends with `Q`. -/
def Keeps (terms : Terms ErrandOp ErrandOp.Result κ) (Q : Except DeliveryError α → κ → Prop)
    (errand : Errand α) (known : κ) : Prop := Program.Keeps terms Q errand known

theorem keeps_pure {value : β} (h : Q (.ok value) known) :
    (pure value : Errand β).Keeps terms Q known := h

theorem keeps_fail {error : DeliveryError} (h : Q (.error error) known) :
    (fail error : Errand β).Keeps terms Q known := h

/-- Go on where the first errand ended. -/
theorem keeps_bind {errand : Errand α} {f : α → Errand β}
    (h : errand.Keeps terms (fun result known => match result with
      | .ok value => (f value).Keeps terms Q known
      | .error error => Q (.error error) known) known) : (errand >>= f).Keeps terms Q known := by
  refine Program.keeps_bind (Program.Keeps.mono (fun result known hresult => ?_) h)
  cases result with
  | ok value => exact hresult
  | error error => exact hresult

theorem keeps_call_bind {spoolCall : Call} {f : spoolCall.Result → Errand β}
    (hrequires : terms.requires (.call spoolCall) known)
    (h : ∀ result known', known ≤ known' → terms.grants (.call spoolCall) result known' →
      match result with
      | .ok value => (f value).Keeps terms Q known'
      | .error error => Q (.error (.spool error)) known') :
    (call spoolCall >>= f).Keeps terms Q known := by
  refine keeps_bind ⟨hrequires, fun result known' hle hgrants => ?_⟩
  have hrest := h result known' hle hgrants
  cases result with
  | ok value => exact hrest
  | error error => exact hrest

theorem keeps_send_bind {context : String} {request : Request} {f : ℕ → Errand β}
    (hrequires : terms.requires (.send request) known)
    (h : ∀ result known', known ≤ known' → terms.grants (.send request) result known' →
      match result with
      | .ok status => (f status).Keeps terms Q known'
      | .error error => Q (.error (.failed context error)) known') :
    (send context request >>= f).Keeps terms Q known := by
  refine keeps_bind ⟨hrequires, fun result known' hle hgrants => ?_⟩
  have hrest := h result known' hle hgrants
  cases result with
  | ok status => exact hrest
  | error error => exact hrest

/-- A call that ends the errand. -/
theorem keeps_call {spoolCall : Call} {Q : Except DeliveryError spoolCall.Result → κ → Prop}
    (hrequires : terms.requires (.call spoolCall) known) (hQ : ∀ result known, Q result known) :
    (call spoolCall).Keeps terms Q known :=
  ⟨hrequires, fun _ _ _ _ => hQ _ _⟩

/-- A pass keeps the terms when it does so for each item. -/
theorem keeps_deliverEach {deliver : PendingItem → Errand Unit}
    (h : ∀ item known, (deliver item).Keeps terms (fun _ _ => True) known)
    (items : List PendingItem) (known : κ) :
    (deliverEach deliver items).Keeps terms (fun _ _ => True) known := by
  induction items generalizing known with
  | nil => exact keeps_pure trivial
  | cons item rest ih =>
    refine keeps_bind (Program.Keeps.mono (fun result known _ => ?_) (h item known))
    cases result with
    | ok value => exact ih known
    | error error => trivial

/-- The pending items are listed, and then delivered. -/
theorem keeps_pass {deliver : PendingItem → Errand Unit}
    (hpending : terms.requires (.call .pending) known)
    (h : ∀ item known, (deliver item).Keeps terms (fun _ _ => True) known) :
    (call .pending >>= deliverEach deliver).Keeps terms (fun _ _ => True) known := by
  refine keeps_call_bind hpending fun result known hle _ => ?_
  cases result with
  | ok items => exact keeps_deliverEach h items known
  | error error => trivial

end Errand

end Rules

/-! ### Requests to the destination -/

section Tasks

variable {setup : Setup} {used : Bytes → Prop}

theorem deliverHttpBatch_keeps (destination : HttpDestinationConfig) {batch : DamBatch}
    {body : Bytes} (hdecode : setup.deps.serde.decode (DamBatch.codec setup.deps.serde) body =
      some batch) (known : Knowledge) :
    (Errand.deliverHttpBatch destination batch body).Keeps (handover setup used .outpost)
      (fun result known => result = .ok true → ∀ manifest,
        Conveys setup.deps.serde body manifest → known .destination manifest) known := by
  refine Errand.keeps_send_bind trivial fun result known hle hsent => ?_
  cases result with
  | error error => rintro ⟨⟩
  | ok status =>
    dsimp only
    split
    · rename_i haccepted
      refine Errand.keeps_pure fun _ manifest hconveys => ?_
      exact hsent haccepted manifest (hconveys.post hdecode _ _)
    · split
      · exact Errand.keeps_pure (by rintro ⟨⟩)
      · exact Errand.keeps_fail (by rintro ⟨⟩)

theorem deliverS3Batch_keeps (destination : S3DestinationConfig) {batch : DamBatch}
    {body : Bytes} (hdecode : setup.deps.serde.decode (DamBatch.codec setup.deps.serde) body =
      some batch) (known : Knowledge) :
    (Errand.deliverS3Batch setup.encoders destination batch).Keeps (handover setup used .outpost)
      (fun result known => result = .ok () → ∀ manifest,
        Conveys setup.deps.serde body manifest → known .destination manifest) known := by
  unfold Errand.deliverS3Batch
  dsimp only
  split
  · exact Errand.keeps_fail (by rintro ⟨⟩)
  · rename_i object hobject
    refine Errand.keeps_send_bind trivial fun result known hle hsent => ?_
    cases result with
    | error error => rintro ⟨⟩
    | ok status =>
      refine Errand.keeps_pure fun _ manifest hconveys => ?_
      exact hsent trivial manifest
        ⟨destination, batch, rfl, rfl, hobject, hconveys.manifestOf_eq hdecode⟩

/-! ### Flushing and accepting -/

/-- A flushed batch is safe once its body is in the spool. -/
theorem flushTask_keeps {createdAt : ℤ} {events : List DamEvent} {batch : DamBatch} {body : Bytes}
    (hflush : Observer.flushBatch setup.lib setup.deps.serde setup.assignment createdAt events =
      some (batch, body)) (known : Knowledge) :
    (flushTask batch body).Keeps (handover setup used .observer) (Fulfilled setup) known := by
  have hconveys : Conveys setup.deps.serde body (manifestOf batch) := by
    unfold Observer.flushBatch at hflush
    split at hflush
    · cases hflush
    · obtain ⟨written, hwritten, hpair⟩ := Option.map_eq_some_iff.mp hflush
      cases hpair
      exact ⟨_, hwritten, rfl⟩
  refine ⟨trivial, fun result known hle hspooled => ?_⟩
  cases result with
  | ok id => exact hspooled _ hconveys
  | error error => trivial

private theorem checkBatch_status {deps : Dependencies} {config : OutpostConfig}
    {headers : HeaderMap} {body : Bytes} {response : Response}
    (h : checkBatch deps config headers body = .error response) :
    response.status ∈ [400, 401, 403] := by
  unfold checkBatch at h
  split at h
  · split at h
    · cases h
      simp [Response.status]
    · split at h
      · cases h
        simp [Response.status]
      · split at h
        · cases h
        · cases h
          simp [Response.status]
  · cases h
    simp [Response.status]

/-- A refusal promises nothing. -/
private theorem fulfilled_of_refused {url : String} {bearer : Option String}
    {idempotencyKey : String} {body : Bytes} {response : Response} {known : Knowledge}
    (h : response.status ∈ [400, 401, 403, 500, 507]) :
    Fulfilled setup (.answered (.post url bearer idempotencyKey body) response) known := by
  intro haccepted
  change isSuccess response.status ∨ response.status = 409 at haccepted
  simp only [List.mem_cons, List.not_mem_nil, or_false] at h
  rcases h with h | h | h | h | h
  all_goals
    rw [h] at haccepted
    exact absurd haccepted (by decide)

/-- A request is accepted once its enriched batch is in the spool. -/
theorem acceptTask_keeps (surroundings : Surroundings) (headers : HeaderMap) (url : String)
    (bearer : Option String) (idempotencyKey : String) (body : Bytes) (known : Knowledge) :
    (acceptTask setup surroundings headers (.post url bearer idempotencyKey body) body).Keeps
      (handover setup used .outpost) (Fulfilled setup) known := by
  refine Program.keeps_bind ?_
  unfold acceptErrand
  split
  · rename_i response hcheck
    have hstatus := checkBatch_status hcheck
    exact fulfilled_of_refused (List.mem_append_left [500, 507] hstatus)
  · rename_i batch hcheck
    dsimp only
    split
    · exact fulfilled_of_refused (by simp [Response.status])
    · rename_i encoded hencoded
      refine ⟨trivial, fun receipt known hle hspooled => ⟨trivial, fun _ known' hle' _ =>
        ⟨trivial, fun _ known'' hle'' _ => ?_⟩⟩⟩
      cases receipt with
      | error error => exact fulfilled_of_refused (by simp [enqueueResponse, Response.status])
      | ok id =>
        rintro - manifest ⟨-, hconveys⟩
        refine hle'' _ _ (hle' _ _ (hspooled manifest ⟨_, hencoded, ?_⟩))
        rw [manifestOf_enrichBatch]
        exact hconveys.manifestOf_eq (checkBatch_ok.mp hcheck).submitted

/-! ### Delivery passes -/

theorem passTask_keeps {terms : Terms ErrandOp ErrandOp.Result Knowledge} {pass : Errand Unit}
    {known : Knowledge} (h : pass.Keeps terms (fun _ _ => True) known) :
    (passTask pass).Keeps terms (Fulfilled setup) known :=
  Program.keeps_bind (Program.Keeps.mono (fun _ _ _ => trivial) h)

variable (hinjective : ∀ a b, used a → used b →
  setup.deps.sha256.digest a = setup.deps.sha256.digest b → a = b)

include hinjective

/-- What a process reads from an item tells what the item conveys. -/
private theorem requires_acknowledge {side : Side} {item : PendingItem} {body : Bytes}
    {known : Knowledge} (hid : bodyId setup.deps.sha256 body = item.id) (hused : used body)
    (hnext : ∀ manifest, Conveys setup.deps.serde body manifest → known side.next manifest) :
    (handover setup used side).requires (.call (.acknowledge item)) known := by
  intro other manifest hother hsame hconveys
  have heq : other = body :=
    hinjective other body hother hused (encodeHex_inj (hsame.trans hid.symm))
  exact hnext manifest (heq ▸ hconveys)

theorem deliverObserverItem_keeps (outpostUrl : String) (internalToken : Option String)
    (item : PendingItem) (known : Knowledge) :
    (Errand.deliverObserverItem setup.deps.serde outpostUrl internalToken item).Keeps
      (handover setup used .observer) (fun _ _ => True) known := by
  refine Errand.keeps_call_bind trivial fun result known hle hread => ?_
  cases result with
  | error error => trivial
  | ok body =>
    obtain ⟨hid, hused⟩ := hread
    dsimp only
    split
    · exact Errand.keeps_fail trivial
    · rename_i batch hdecode
      refine Errand.keeps_send_bind trivial fun result known hle hsent => ?_
      cases result with
      | error error => trivial
      | ok status =>
        dsimp only
        split
        · rename_i haccepted
          refine Errand.keeps_call (requires_acknowledge hinjective hid hused
            fun manifest hconveys => ?_) fun _ _ => trivial
          exact hsent haccepted manifest (hconveys.post hdecode _ _)
        · split
          · exact Errand.keeps_fail trivial
          · exact Errand.keeps_call trivial fun _ _ => trivial

theorem deliverPendingItem_keeps (destination : DestinationConfig) (client : DestinationClient)
    (item : PendingItem) (known : Knowledge) :
    (Errand.deliverPendingItem setup.encoders destination client item).Keeps
      (handover setup used .outpost) (fun _ _ => True) known := by
  refine Errand.keeps_call_bind trivial fun result known hle hread => ?_
  cases result with
  | error error => trivial
  | ok body =>
    obtain ⟨hid, hused⟩ := hread
    dsimp only
    split
    · exact Errand.keeps_fail trivial
    · rename_i batch hdecode
      split
      · rename_i destination
        refine Errand.keeps_bind (Program.Keeps.mono (fun result known hdelivered => ?_)
          (deliverHttpBatch_keeps destination hdecode known))
        cases result with
        | error error => trivial
        | ok delivered =>
          cases delivered with
          | false => exact Errand.keeps_call trivial fun _ _ => trivial
          | true =>
            exact Errand.keeps_call
              (requires_acknowledge hinjective hid hused (hdelivered rfl)) fun _ _ => trivial
      · rename_i destination
        refine Errand.keeps_bind (Program.Keeps.mono (fun result known hdelivered => ?_)
          (deliverS3Batch_keeps destination hdecode known))
        cases result with
        | error error => trivial
        | ok value =>
          exact Errand.keeps_call
            (requires_acknowledge hinjective hid hused (hdelivered rfl)) fun _ _ => trivial
      · exact Errand.keeps_fail trivial

/-- Every task that a process starts keeps the terms. -/
theorem Starts.keeps {requests : List Request} {side : Side} {task : Task}
    (h : Starts setup requests side task) (known : Knowledge) :
    task.Keeps (handover setup used side) (Fulfilled setup) known := by
  cases h with
  | flush hflush => exact flushTask_keeps hflush known
  | deliverObserver =>
    exact passTask_keeps (Errand.keeps_pass trivial (deliverObserverItem_keeps hinjective _ _))
  | accept surroundings headers hsent => exact acceptTask_keeps _ _ _ _ _ _ known
  | deliverOutpost =>
    exact passTask_keeps (Errand.keeps_pass trivial (deliverPendingItem_keeps hinjective _ _))
  | health => exact ⟨trivial, fun _ _ _ _ => ⟨trivial, fun _ _ _ _ => trivial⟩⟩

end Tasks

end MongoDam.Pipeline
