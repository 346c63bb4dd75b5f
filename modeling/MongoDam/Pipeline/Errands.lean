import MongoDam.Lib.Terms
import MongoDam.Outpost.Intake
import MongoDam.Pipeline.Delivery
import MongoDam.Spool.Custody

/-!
# The calls of a process

The spool of a process is shared by its tasks, one call at a time. An errand is what a
task does: whole calls of the spool, and requests. With the program of each call in its
place, the errands are the delivery passes and the acceptance of a batch.
-/

namespace MongoDam.Pipeline

open Lib Schema Spool Outpost

/-! ### Errands -/

/-- The operations of a task: calls of the spool, and requests. -/
inductive ErrandOp where
  | call (spoolCall : Call)
  | send (request : Request)

@[reducible] def ErrandOp.Result : ErrandOp → Type
  | .call spoolCall => Except SpoolError spoolCall.Result
  | .send _ => Except String ℕ

/-- An errand that may fail. -/
def Errand (α : Type) : Type := Program ErrandOp ErrandOp.Result (Except DeliveryError α)

namespace Errand

/-- Go on with the value, or stop at the error. -/
def andThen (errand : Errand α) (f : α → Errand β) : Errand β :=
  Program.bind errand fun
    | .ok value => f value
    | .error error => .done (.error error)

instance : Monad Errand where
  pure value := .done (.ok value)
  bind := andThen

/-- Fail with an error. -/
def fail (error : DeliveryError) : Errand α := .done (.error error)

/-- Call the spool and pass its error on. -/
def call (spoolCall : Call) : Errand spoolCall.Result :=
  .perform (.call spoolCall) fun result => .done (result.mapError .spool)

/-- Send a request and return its status. -/
def send (context : String) (request : Request) : Errand ℕ :=
  .perform (.send request) fun result => .done (result.mapError (.failed context))

/-- Treat items one after the other. The first error ends it. -/
def deliverEach (deliver : PendingItem → Errand Unit) : List PendingItem → Errand Unit
  | [] => pure ()
  | item :: rest => do
    deliver item
    deliverEach deliver rest

/-! ### Delivery passes -/

section Observer

variable (serde : Serde) (outpostUrl : String) (internalToken : Option String)

def deliverObserverItem (item : PendingItem) : Errand Unit := do
  let body ← call (.read item)
  match serde.decode (DamBatch.codec serde) body with
  | none => .fail (.invalid ("invalid local batch " ++ item.id))
  | some batch =>
    let status ← send ("sending batch " ++ batch.batchId ++ " to Outpost")
      (.post outpostUrl internalToken batch.batchId body)
    if isSuccess status ∨ status = 409 then call (.acknowledge item)
    else if isServerError status ∨ status = 429 then
      .fail (.retryable "Outpost returned retryable HTTP" status)
    else call (.quarantine item)

def deliverObserverSpool : Errand Unit := do
  let items ← call .pending
  deliverEach (deliverObserverItem serde outpostUrl internalToken) items

end Observer

section Outpost

variable (encoders : Encoders)

/-- The item can be acknowledged, or it has to be quarantined. -/
def deliverHttpBatch (destination : HttpDestinationConfig) (batch : DamBatch) (body : Bytes) :
    Errand Bool := do
  let status ← send ("delivery request for batch " ++ batch.batchId ++ " failed")
    (.post destination.endpoint (some destination.bearerToken) batch.batchId body)
  if isSuccess status ∨ status = 409 then return true
  else if isClientError status ∧ status ≠ 429 then return false
  else .fail (.retryable "regional receiver returned retryable HTTP" status)

def deliverS3Batch (destination : S3DestinationConfig) (batch : DamBatch) : Errand Unit := do
  let key := s3ObjectKey encoders destination batch
  match encodeS3Ndjson encoders batch with
  | none => .fail (.invalid "serializing S3 NDJSON record")
  | some body =>
    let _ ← send ("S3 PutObject failed for batch " ++ batch.batchId ++ " at s3://" ++
      destination.bucket ++ "/" ++ key) (.putObject destination.bucket key body)
    return ()

def deliverPendingItem (destination : DestinationConfig) (client : DestinationClient)
    (item : PendingItem) : Errand Unit := do
  let body ← call (.read item)
  match encoders.serde.decode (DamBatch.codec encoders.serde) body with
  | none => .fail (.invalid ("spooled batch " ++ item.id ++ " is invalid"))
  | some batch =>
    match destination, client with
    | .http destination, .http =>
      if ← deliverHttpBatch destination batch body then call (.acknowledge item)
      else call (.quarantine item)
    | .s3 destination, .s3 =>
      deliverS3Batch encoders destination batch
      call (.acknowledge item)
    | _, _ => .fail (.invalid "destination configuration and client do not match")

def deliverPending (destination : DestinationConfig) (client : DestinationClient) :
    Errand Unit := do
  let items ← call .pending
  deliverEach (deliverPendingItem encoders destination client) items

end Outpost

end Errand

/-- The acceptance of a batch: it is refused, or handed to the spool. -/
def acceptErrand (deps : Dependencies) (config : OutpostConfig) (surroundings : Surroundings)
    (headers : HeaderMap) (body : Bytes) : Program ErrandOp ErrandOp.Result Response :=
  match checkBatch deps config headers body with
  | .error response => .done response
  | .ok batch =>
    let batch := enrichBatch deps config surroundings batch
    match deps.serde.encode (DamBatch.codec deps.serde) batch with
    | none => .done (.error 500 (deps.unwritableBatch batch))
    | some encoded =>
      .perform (.call (.enqueue encoded)) fun receipt =>
        .perform (.call .stats) fun _ =>
          .perform (.call .quarantineStats) fun _ => .done (enqueueResponse deps batch receipt)

/-! ### The programs of the calls -/

section Expansion

variable (sha256 : Digest32) (maxBytes : ℕ)

/-- A call of the spool performs its file operations. -/
def ErrandOp.program : (op : ErrandOp) → Program DeliveryOp DeliveryOp.Result op.Result
  | .call spoolCall => embedded (spoolCall.program sha256 maxBytes)
  | .send request => .perform (.send request) .done

/-- The errand down to its file operations. -/
def Errand.expand (errand : Errand α) : Delivery α :=
  Program.expand (ErrandOp.program sha256 maxBytes) errand

namespace Errand

variable {sha256 maxBytes}

theorem expand_bind (errand : Errand α) (f : α → Errand β) :
    (errand >>= f).expand sha256 maxBytes =
      errand.expand sha256 maxBytes >>= fun value => (f value).expand sha256 maxBytes := by
  refine (Program.expand_bind errand _).trans ?_
  refine congrArg (Program.bind (errand.expand sha256 maxBytes)) (funext fun result => ?_)
  cases result with
  | ok value => rfl
  | error error => rfl

theorem expand_call (spoolCall : Call) :
    (call spoolCall).expand sha256 maxBytes =
      Pipeline.call (spoolCall.program sha256 maxBytes) := rfl

theorem expand_send (context : String) (request : Request) :
    (send context request).expand sha256 maxBytes = Pipeline.send context request := rfl

theorem expand_deliverEach {deliver : PendingItem → Errand Unit} (items : List PendingItem) :
    (deliverEach deliver items).expand sha256 maxBytes =
      Pipeline.deliverEach (fun item => (deliver item).expand sha256 maxBytes) items := by
  induction items with
  | nil => rfl
  | cons item rest ih =>
    rw [deliverEach, Pipeline.deliverEach, expand_bind]
    exact congrArg (((deliver item).expand sha256 maxBytes) >>= ·) (funext fun _ => ih)

section Observer

variable {serde : Serde} {outpostUrl : String} {internalToken : Option String}

theorem expand_deliverObserverItem (item : PendingItem) :
    (deliverObserverItem serde outpostUrl internalToken item).expand sha256 maxBytes =
      Pipeline.deliverObserverItem serde outpostUrl internalToken item := by
  unfold deliverObserverItem Pipeline.deliverObserverItem
  rw [expand_bind, expand_call]
  refine congrArg (Pipeline.call (read item) >>= ·) (funext fun body => ?_)
  cases serde.decode (DamBatch.codec serde) body with
  | none => rfl
  | some batch =>
    dsimp only
    rw [expand_bind, expand_send]
    refine congrArg (Pipeline.send _ _ >>= ·) (funext fun status => ?_)
    split
    · rfl
    · split
      · rfl
      · rfl

/-- The errand of the observer is its delivery pass. -/
theorem expand_deliverObserverSpool :
    (deliverObserverSpool serde outpostUrl internalToken).expand sha256 maxBytes =
      Pipeline.deliverObserverSpool serde outpostUrl internalToken := by
  unfold deliverObserverSpool Pipeline.deliverObserverSpool
  rw [expand_bind, expand_call]
  refine congrArg (Pipeline.call pending >>= ·) (funext fun items => ?_)
  rw [expand_deliverEach]
  exact congrArg (Pipeline.deliverEach · items) (funext expand_deliverObserverItem)

end Observer

section Outpost

variable {encoders : Encoders}

theorem expand_deliverHttpBatch (destination : HttpDestinationConfig) (batch : DamBatch)
    (body : Bytes) : (deliverHttpBatch destination batch body).expand sha256 maxBytes =
      Pipeline.deliverHttpBatch destination batch body := by
  unfold deliverHttpBatch Pipeline.deliverHttpBatch
  rw [expand_bind, expand_send]
  refine congrArg (Pipeline.send _ _ >>= ·) (funext fun status => ?_)
  split
  · rfl
  · split
    · rfl
    · rfl

theorem expand_deliverS3Batch (destination : S3DestinationConfig) (batch : DamBatch) :
    (deliverS3Batch encoders destination batch).expand sha256 maxBytes =
      Pipeline.deliverS3Batch encoders destination batch := by
  unfold deliverS3Batch Pipeline.deliverS3Batch
  cases encodeS3Ndjson encoders batch with
  | none => rfl
  | some body =>
    dsimp only
    rw [expand_bind, expand_send]
    rfl

theorem expand_deliverPendingItem (destination : DestinationConfig) (client : DestinationClient)
    (item : PendingItem) :
    (deliverPendingItem encoders destination client item).expand sha256 maxBytes =
      Pipeline.deliverPendingItem encoders destination client item := by
  unfold deliverPendingItem Pipeline.deliverPendingItem
  rw [expand_bind, expand_call]
  refine congrArg (Pipeline.call (read item) >>= ·) (funext fun body => ?_)
  cases encoders.serde.decode (DamBatch.codec encoders.serde) body with
  | none => rfl
  | some batch =>
    cases destination with
    | http destination =>
      cases client with
      | http =>
        dsimp only
        rw [expand_bind, expand_deliverHttpBatch]
        refine congrArg (Pipeline.deliverHttpBatch destination batch body >>= ·)
          (funext fun delivered => ?_)
        cases delivered with
        | true => rfl
        | false => rfl
      | s3 => rfl
    | s3 destination =>
      cases client with
      | http => rfl
      | s3 =>
        dsimp only
        rw [expand_bind, expand_deliverS3Batch]
        rfl

/-- The errand of Outpost is its delivery pass. -/
theorem expand_deliverPending (destination : DestinationConfig) (client : DestinationClient) :
    (deliverPending encoders destination client).expand sha256 maxBytes =
      Pipeline.deliverPending encoders destination client := by
  unfold deliverPending Pipeline.deliverPending
  rw [expand_bind, expand_call]
  refine congrArg (Pipeline.call pending >>= ·) (funext fun items => ?_)
  rw [expand_deliverEach]
  exact congrArg (Pipeline.deliverEach · items)
    (funext (expand_deliverPendingItem destination client))

end Outpost

end Errand

private theorem action_bind_assoc (action : Action α) (f : α → Action β) (g : β → Action γ) :
    (action >>= f) >>= g = action >>= fun value => f value >>= g := by
  refine (Program.bind_assoc action _ _).trans (congrArg (Program.bind action) (funext ?_))
  intro result
  cases result with
  | ok value => rfl
  | error error => rfl

/-- A call whose error is caught goes on in any case. -/
private theorem embedded_caught_bind (action : Action α) (f : Except SpoolError α → Action β) :
    embedded (caught action >>= f) =
      (embedded action).bind fun result => embedded (f result) := by
  refine Eq.trans ?_ (Program.hoist_bind action f)
  exact congrArg embedded (Program.bind_assoc action _ _)

/-- The errand of a request is the acceptance of its batch. -/
theorem expand_acceptErrand (deps : Dependencies) (config : OutpostConfig)
    (surroundings : Surroundings) (headers : HeaderMap) (body : Bytes) :
    embedded (acceptBatch deps config surroundings headers body) =
      ((acceptErrand deps config surroundings headers body).expand
        (ErrandOp.program deps.sha256 config.spoolMaxBytes)).bind fun response =>
          .done (.ok response) := by
  unfold acceptBatch acceptErrand
  cases checkBatch deps config headers body with
  | error response => rfl
  | ok batch =>
    dsimp only
    cases deps.serde.encode (DamBatch.codec deps.serde)
        (enrichBatch deps config surroundings batch) with
    | none => rfl
    | some encoded =>
      dsimp only
      have hrefresh : ∀ response : Response,
          embedded (refreshSpoolMetrics >>= fun _ => pure response) =
            (embedded stats).bind fun _ => (embedded quarantineStats).bind fun _ =>
              .done (.ok response) := by
        intro response
        rw [refreshSpoolMetrics, action_bind_assoc, embedded_caught_bind]
        refine congrArg (embedded stats).bind (funext fun _ => ?_)
        rw [action_bind_assoc, embedded_caught_bind]
        rfl
      rw [embedded_caught_bind, Program.expand, Program.bind_assoc]
      refine congrArg (Program.bind _) (funext fun receipt => ?_)
      rw [hrefresh, Program.expand, Program.bind_assoc]
      refine congrArg (Program.bind _) (funext fun _ => ?_)
      rw [Program.expand, Program.bind_assoc]
      rfl

end Expansion

end MongoDam.Pipeline
