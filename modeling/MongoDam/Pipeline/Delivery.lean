import MongoDam.Schema.Json
import MongoDam.Spool.DurableSpool

/-!
# Delivery passes

The observer sends its spooled batches to Outpost, and Outpost sends its own to an
HTTP receiver or to S3. A pass lists the pending items and takes them in the order
of their ids: it reads an item, parses it, makes a request of it and sends that.
What is accepted is acknowledged, what is refused for good goes to the quarantine,
and any error ends the pass.
-/

namespace MongoDam.Pipeline

open Lib Schema Spool

/-! ### Requests and programs -/

/-- A request to a destination: a JSON body under an idempotency key, or an object in S3. -/
inductive Request where
  | post (url : String) (bearer : Option String) (idempotencyKey : String) (body : Bytes)
  | putObject (bucket key : String) (body : Bytes)
  deriving DecidableEq, Repr

/-- The operations of a pass. -/
inductive DeliveryOp where
  | file (op : FileOp Place Name)
  | send (request : Request)

/-- A file operation returns what it does in the spool; a request returns its status. -/
@[reducible] def DeliveryOp.Result : DeliveryOp → Type
  | file op => Except IoError op.Value
  | send _ => Except String ℕ

inductive DeliveryError where
  | spool (error : SpoolError)
  | invalid (context : String)
  | failed (context error : String)
  | retryable (context : String) (status : ℕ)
  deriving DecidableEq, Repr

/-- A pass in progress: a program over the spool and the destination that may fail. -/
def Delivery (α : Type) : Type := Program DeliveryOp DeliveryOp.Result (Except DeliveryError α)

namespace Delivery

/-- Go on with the value, or stop at the error. -/
def andThen (delivery : Delivery α) (f : α → Delivery β) : Delivery β :=
  Program.bind delivery fun
    | .ok value => f value
    | .error error => .done (.error error)

instance : Monad Delivery where
  pure value := .done (.ok value)
  bind := andThen

/-- Fail with an error. -/
def fail (error : DeliveryError) : Delivery α := .done (.error error)

end Delivery

/-- The operations of a spool call as operations of a pass. -/
def embedded (action : Action α) :
    Program DeliveryOp DeliveryOp.Result (Except SpoolError α) :=
  Program.hoist DeliveryOp.file (fun _ result => result) action

/-- Call the spool and pass its error on. -/
def call (action : Action α) : Delivery α :=
  Program.bind (embedded action) fun result => .done (result.mapError .spool)

/-- Send a request and return its status. -/
def send (context : String) (request : Request) : Delivery ℕ :=
  .perform (.send request) fun result => .done (result.mapError (.failed context))

def isSuccess (status : ℕ) : Bool := 200 ≤ status ∧ status < 300
def isClientError (status : ℕ) : Bool := 400 ≤ status ∧ status < 500
def isServerError (status : ℕ) : Bool := 500 ≤ status ∧ status < 600

/-- Treat items one after the other. The first error ends it. -/
def deliverEach (deliver : PendingItem → Delivery Unit) : List PendingItem → Delivery Unit
  | [] => pure ()
  | item :: rest => do
    deliver item
    deliverEach deliver rest

/-! ### The observer -/

section Observer

variable (serde : Serde) (outpostUrl : String) (internalToken : Option String)

def deliverObserverItem (item : PendingItem) : Delivery Unit := do
  let body ← call (read item)
  match serde.decode (DamBatch.codec serde) body with
  | none => .fail (.invalid ("invalid local batch " ++ item.id))
  | some batch =>
    let status ← send ("sending batch " ++ batch.batchId ++ " to Outpost")
      (.post outpostUrl internalToken batch.batchId body)
    if isSuccess status ∨ status = 409 then call (acknowledge item)
    else if isServerError status ∨ status = 429 then
      .fail (.retryable "Outpost returned retryable HTTP" status)
    else call (quarantine item)

def deliverObserverSpool : Delivery Unit := do
  let items ← call pending
  deliverEach (deliverObserverItem serde outpostUrl internalToken) items

end Observer

/-! ### Outpost -/

structure HttpDestinationConfig where
  endpoint : String
  bearerToken : String

structure S3DestinationConfig where
  bucket : String
  keyPrefix : String

inductive DestinationConfig where
  | http (destination : HttpDestinationConfig)
  | s3 (destination : S3DestinationConfig)

/-- The kind of client that was built for the destination. -/
inductive DestinationClient where
  | http
  | s3
  deriving DecidableEq, Repr

def DestinationConfig.client : DestinationConfig → DestinationClient
  | http _ => .http
  | s3 _ => .s3

/-- The date and hour of a time. -/
@[ext] structure CivilHour where
  year : ℤ
  month : ℕ
  day : ℕ
  hour : ℕ

/-- The third-party code: the text of documents, compression, and the calendar. -/
structure Encoders where
  serde : Serde
  gzip : Bytes → Bytes
  calendar : ℤ → CivilHour

/-- A number with leading zeros. -/
def padded (width number : ℕ) : String :=
  let digits := toString number
  String.ofList (List.replicate (width - digits.length) '0') ++ digits

/-- A number with leading zeros behind its sign. -/
def paddedSigned (width : ℕ) (number : ℤ) : String :=
  if 0 ≤ number then padded width number.natAbs else "-" ++ padded (width - 1) number.natAbs

/-- `trim_matches`. -/
def trimMatches (p : Char → Bool) (text : String) : String :=
  String.ofList ((text.toList.dropWhile p).reverse.dropWhile p).reverse

def normalizedS3Prefix (keyPrefix : String) : String :=
  trimMatches (· = '/') (trimMatches isWhitespace keyPrefix)

/-- An upper-case hexadecimal digit. -/
def hexDigit (digit : ℕ) : Char := "0123456789ABCDEF".toList.getD digit '0'

/-- A byte of a key segment: letters, digits and `-_.` stand for themselves. -/
def encodeS3KeyByte (byte : UInt8) : List Char :=
  let char := Char.ofNat byte.toNat
  if char.isAlphanum ∨ char ∈ ['-', '_', '.'] then [char]
  else ['%', hexDigit (byte.toNat / 16), hexDigit (byte.toNat % 16)]

def encodeS3KeySegment (value : String) : String :=
  String.ofList ((toUtf8 value).flatMap encodeS3KeyByte)

section Outpost

variable (encoders : Encoders)

def s3ObjectKey (destination : S3DestinationConfig) (batch : DamBatch) : String :=
  let timestamp := encoders.calendar batch.createdAt
  normalizedS3Prefix destination.keyPrefix ++
    "/customer_id=" ++ encodeS3KeySegment batch.customerId ++
    "/tenant_id=" ++ encodeS3KeySegment batch.tenantId ++
    "/regional_cell_id=" ++ encodeS3KeySegment batch.regionalCellId ++
    "/source_id=" ++ encodeS3KeySegment batch.sourceId ++
    "/date=" ++ paddedSigned 4 timestamp.year ++ "-" ++ padded 2 timestamp.month ++ "-" ++
      padded 2 timestamp.day ++
    "/hour=" ++ padded 2 timestamp.hour ++
    "/" ++ encodeS3KeySegment batch.batchId ++ ".ndjson.gz"

/-- One event with the batch it is from, as a JSON object. -/
def s3NdjsonRecord (batch : DamBatch) (event : DamEvent) : Option JsonValue := do
  let version ← (Codec.unsigned 16).write batch.schemaVersion
  let createdAt ← (Codec.time encoders.serde).write batch.createdAt
  match ← (DamEvent.codec encoders.serde).write event with
  | .object members =>
    return .object (("batch_schema_version", version) :: ("batch_id", .string batch.batchId) ::
      ("batch_created_at", createdAt) :: members)
  | _ => none

/-- The events of a batch, one a line, compressed. -/
def encodeS3Ndjson (batch : DamBatch) : Option Bytes := do
  let lines ← batch.events.mapM fun event => do
    let text ← (s3NdjsonRecord encoders batch event).bind encoders.serde.toVec
    return text ++ toUtf8 "\n"
  return encoders.gzip lines.flatten

/-- The item can be acknowledged, or it has to be quarantined. -/
def deliverHttpBatch (destination : HttpDestinationConfig) (batch : DamBatch) (body : Bytes) :
    Delivery Bool := do
  let status ← send ("delivery request for batch " ++ batch.batchId ++ " failed")
    (.post destination.endpoint (some destination.bearerToken) batch.batchId body)
  if isSuccess status ∨ status = 409 then return true
  else if isClientError status ∧ status ≠ 429 then return false
  else .fail (.retryable "regional receiver returned retryable HTTP" status)

def deliverS3Batch (destination : S3DestinationConfig) (batch : DamBatch) : Delivery Unit := do
  let key := s3ObjectKey encoders destination batch
  match encodeS3Ndjson encoders batch with
  | none => .fail (.invalid "serializing S3 NDJSON record")
  | some body =>
    let _ ← send ("S3 PutObject failed for batch " ++ batch.batchId ++ " at s3://" ++
      destination.bucket ++ "/" ++ key) (.putObject destination.bucket key body)
    return ()

def deliverPendingItem (destination : DestinationConfig) (client : DestinationClient)
    (item : PendingItem) : Delivery Unit := do
  let body ← call (read item)
  match encoders.serde.decode (DamBatch.codec encoders.serde) body with
  | none => .fail (.invalid ("spooled batch " ++ item.id ++ " is invalid"))
  | some batch =>
    match destination, client with
    | .http destination, .http =>
      if ← deliverHttpBatch destination batch body then call (acknowledge item)
      else call (quarantine item)
    | .s3 destination, .s3 =>
      deliverS3Batch encoders destination batch
      call (acknowledge item)
    | _, _ => .fail (.invalid "destination configuration and client do not match")

def deliverPending (destination : DestinationConfig) (client : DestinationClient) :
    Delivery Unit := do
  let items ← call pending
  deliverEach (deliverPendingItem encoders destination client) items

end Outpost

end MongoDam.Pipeline
