import MongoDam.Observer.Provenance
import MongoDam.Protocol.Encode

/-!
# Isolation of connections

What the processor reports for a connection depends on the records of that
connection and on the exits of its process, and on nothing else. The proof relates
the processor of a whole run to the processor of the run restricted to these
records: the second has exactly the entries of the first that belong to the
connection, up to the answers of the host. As long as the tables of pending
requests and DNS queries are never full, no entry of one connection makes room for
an entry of another.
-/

namespace MongoDam.Observer

open Lib Schema Protocol EventProcessor

/-! ### What the comparison leaves out -/

/-- Payloads of records whose process context is read from `/proc`. -/
def readsProcessContext : EventPayload → Bool
  | .mongodbConnection _ => true
  | .profile sample => sample.profileType = "off_cpu"
  | _ => false

/-- Process metadata without what is read from `/proc`. -/
def maskProcess (foreign : Bool) (process : ProcessMetadata) : ProcessMetadata :=
  { process with
    uid := if foreign then none else process.uid
    gid := if foreign then none else process.gid
    command := if foreign then "" else process.command
    executable := none }

/-- Connection metadata without its endpoints. -/
def maskConnection (connection : ConnectionMetadata) : ConnectionMetadata :=
  { connection with localEndpoint := none, remoteEndpoint := none }

def maskPayload : EventPayload → EventPayload
  | .mongodbActivity details =>
    .mongodbActivity { details with connection := maskConnection details.connection }
  | .mongodbConnection details =>
    .mongodbConnection { details with connection := maskConnection details.connection }
  | .dnsActivity details =>
    .dnsActivity { details with connection := maskConnection details.connection }
  | .processLifecycle details => .processLifecycle { details with executable := none }
  | payload => payload

/-- An event without its identifier, its wall-clock time, and the fields read from
`/proc` and from the endpoint cache. -/
def maskEvent (event : DamEvent) : DamEvent :=
  { event with
    eventId := ""
    observedAt := 0
    kubernetes := none
    process := event.process.map (maskProcess (readsProcessContext event.payload))
    payload := maskPayload event.payload }

/-- What a record returns, with its events masked. -/
def maskResult (result : Except String (List DamEvent)) : Except String (List DamEvent) :=
  result.map (List.map maskEvent)

def maskSeed (foreign : Bool) (seed : EventSeed) : EventSeed :=
  { seed with
    observedAt := 0
    kubernetes := none
    process := seed.process.map (maskProcess foreign) }

def maskRequest (request : PendingRequest) : PendingRequest :=
  { request with
    seed := maskSeed false request.seed
    connection := maskConnection request.connection }

/-! ### The entries of a connection -/

/-- The key of an entry belongs to the connection. -/
def belongsTo {α : Type} (key : ConnectionKey) (k : ℕ × ℕ × α) : Bool := decide ((k.1, k.2.1) = key)

/-- The processor `q` has the entries of `p` that belong to the connection, up to the
answers of the host. Waiting requests of `p` stand under their own connection. -/
structure Restricts (key : ConnectionKey) (p q : EventProcessor) : Prop where
  config : q.config = p.config
  streams : q.streams = p.streams.filter (fun k _ => belongsTo key k)
  pending : q.pending.mapVal maskRequest =
    (p.pending.mapVal maskRequest).filter (fun k _ => belongsTo key k)
  pendingDns : q.pendingDns = p.pendingDns.filter (fun k _ => belongsTo key k)
  connection : q.connection key = p.connection key
  keyed : ∀ j requestId request, p.waiting j requestId = some request →
    request.connectionStateKey = j

/-- Neither table is full. -/
def Roomy (p : EventProcessor) : Prop :=
  p.pending.size < MAX_PENDING_REQUESTS ∧ p.pendingDns.size < 4096

variable {lib : External} {p q : EventProcessor} {key : ConnectionKey} {host host' : Host}
  {raw : KernelEvent}

theorem Restricts.roomy (h : Restricts key p q) (hp : Roomy p) : Roomy q := by
  constructor
  · calc q.pending.size = (q.pending.mapVal maskRequest).size := by rw [Table.size_mapVal]
      _ ≤ (p.pending.mapVal maskRequest).size := by
        rw [h.pending]
        exact Table.size_filter_le ..
      _ = p.pending.size := by rw [Table.size_mapVal]
      _ < MAX_PENDING_REQUESTS := hp.1
  · rw [h.pendingDns]
    exact Nat.lt_of_le_of_lt (Table.size_filter_le ..) hp.2

/-- A waiting request of the connection, in both runs. -/
private theorem Restricts.waiting (h : Restricts key p q) (requestId : ℤ) :
    (q.waiting key requestId).map maskRequest = (p.waiting key requestId).map maskRequest := by
  unfold EventProcessor.waiting
  rw [← Table.get?_mapVal, ← Table.get?_mapVal, h.pending, Table.get?_filterKey]
  simp [belongsTo]

/-- Entries of other connections do not matter. -/
private theorem not_belongsTo {α : Type} {k : ℕ × ℕ × α} (h : (k.1, k.2.1) ≠ key) :
    ¬ belongsTo key k = true := by
  simp [belongsTo, h]

private theorem belongsTo_eq_true {α : Type} {k : ℕ × ℕ × α} (h : (k.1, k.2.1) = key) :
    belongsTo key k = true := by
  simp [belongsTo, h]

private theorem keyed_step (call : Call)
    (h : ∀ j requestId request, p.waiting j requestId = some request →
      request.connectionStateKey = j) (j : ConnectionKey) (requestId : ℤ)
    (request : PendingRequest)
    (hwaiting : (call.step lib p).1.waiting j requestId = some request) :
    request.connectionStateKey = j := by
  rcases waiting_step hwaiting with ⟨hinserts, hopens⟩ | ⟨hbefore, -⟩
  · rw [(opens_spec hopens).1, key_of_inserts hinserts]
  · exact h j requestId request hbefore

/-! ### Decoding -/

private theorem Restricts.withStreams (h : Restricts key p q)
    {streams streams' : Table StreamKey StreamDecoder}
    (hstreams : streams' = streams.filter (fun k _ => belongsTo key k)) :
    Restricts key { p with streams } { q with streams := streams' } :=
  ⟨h.config, hstreams, h.pending, h.pendingDns, h.connection, h.keyed⟩

private theorem filter_erase {α ν : Type} [DecidableEq α] (t : Table (ℕ × ℕ × α) ν)
    (k : ℕ × ℕ × α) :
    (t.filter (fun k _ => belongsTo key k)).erase k =
      (t.erase k).filter (fun k _ => belongsTo key k) :=
  Table.filter_comm ..

private theorem filter_erase_other {α ν : Type} [DecidableEq α] (t : Table (ℕ × ℕ × α) ν)
    {k : ℕ × ℕ × α} (hk : (k.1, k.2.1) ≠ key) :
    (t.erase k).filter (fun k _ => belongsTo key k) = t.filter (fun k _ => belongsTo key k) := by
  refine Table.filter_filter_of_imp t fun j _ hj => ?_
  rw [belongsTo, decide_eq_true_eq] at hj
  rw [decide_eq_true_eq]
  rintro rfl
  exact hk hj

/-- A chunk of the connection decodes alike. -/
private theorem restricts_chunk (lib : External) (hkey : raw.key = key) (h : Restricts key p q) :
    Restricts key (p.decodeChunk lib raw).1 (q.decodeChunk lib raw).1 ∧
      (q.decodeChunk lib raw).2 = (p.decodeChunk lib raw).2 := by
  have hstream : belongsTo key (streamKey raw) = true := belongsTo_eq_true hkey
  have hdecoder : q.streamDecoder raw = p.streamDecoder raw := by
    unfold streamDecoder Table.getD
    rw [h.config, h.streams, Table.get?_filterKey, if_pos hstream]
  have herased := h.withStreams (show q.streams.erase (streamKey raw) = _ by
    rw [h.streams, filter_erase])
  unfold decodeChunk
  rw [hdecoder]
  dsimp only
  split
  · exact ⟨h, rfl⟩
  · split
    · exact ⟨herased, rfl⟩
    · rcases (p.streamDecoder raw).pushBoundedPrefix lib.codecs
        (raw.data.take (capturedLength raw)) MAX_CAPTURE_BYTES with ⟨decoder, result⟩
      cases result with
      | error e => exact ⟨herased, rfl⟩
      | ok messages =>
        refine ⟨h.withStreams ?_, rfl⟩
        rw [h.streams, Table.filterKey_insert, if_pos hstream]

/-- A chunk of another connection changes nothing for the connection. -/
private theorem restricts_chunk_other (lib : External) (hkey : raw.key ≠ key)
    (h : Restricts key p q) :
    Restricts key (p.decodeChunk lib raw).1 q := by
  have herased := h.withStreams (show q.streams = (p.streams.erase (streamKey raw)).filter _ by
    rw [filter_erase_other p.streams hkey, h.streams])
  unfold decodeChunk
  dsimp only
  split
  · exact h
  · split
    · exact herased
    · split
      · exact herased
      · refine h.withStreams ?_
        rw [h.streams, Table.filterKey_insert, if_neg (not_belongsTo hkey)]

/-! ### Events and connection metadata -/

/-- Only the sequence number differs after an event. -/
private theorem Restricts.withSequence (h : Restricts key p q) (sequence sequence' : ℕ) :
    Restricts key { p with sequence } { q with sequence := sequence' } :=
  ⟨h.config, h.streams, h.pending, h.pendingDns, h.connection, h.keyed⟩

private theorem maskEvent_eventFromSeed (lib : External) (hconfig : q.config = p.config)
    {seed seed' : EventSeed}
    {payload payload' : EventPayload}
    (hpayload : maskPayload payload' = maskPayload payload)
    (hseed : maskSeed (readsProcessContext payload') seed' =
      maskSeed (readsProcessContext payload) seed) :
    maskEvent (q.eventFromSeed lib seed' payload').2 =
      maskEvent (p.eventFromSeed lib seed payload).2 := by
  obtain ⟨observedAt, monotonicTimestampNs, capture, kubernetes, process⟩ := seed
  obtain ⟨observedAt', monotonicTimestampNs', capture', kubernetes', process'⟩ := seed'
  simp only [maskSeed, EventSeed.mk.injEq, true_and] at hseed
  obtain ⟨rfl, rfl, hprocess⟩ := hseed
  simp only [maskEvent, eventFromSeed, hconfig, hpayload, hprocess]

/-- The seed of a record, without the answers of the host. -/
private theorem maskSeed_seed (host host' : Host) (raw : KernelEvent) (foreign : Bool)
    (hconfig : q.config = p.config) (truncated : Bool)
    (hforeign : foreignKernelContext raw → foreign) :
    maskSeed foreign (q.seed host' raw truncated) =
      maskSeed foreign (p.seed host raw truncated) := by
  by_cases hcontext : foreignKernelContext raw
  · simp [maskSeed, seed, maskProcess, hconfig, hcontext, hforeign hcontext]
  · simp [maskSeed, seed, maskProcess, hconfig, hcontext]

/-- The metadata of the connection, without its endpoints. -/
private theorem restricts_connectionMetadata (host host' : Host) (hkey : raw.key = key)
    (h : Restricts key p q) :
    Restricts key (p.connectionMetadata host raw).1 (q.connectionMetadata host' raw).1 ∧
      maskConnection (q.connectionMetadata host' raw).2 =
        maskConnection (p.connectionMetadata host raw).2 := by
  constructor
  · refine ⟨?_, ?_, ?_, ?_, ?_, ?_⟩
    · rw [connectionMetadata_config, connectionMetadata_config, h.config]
    · rw [connectionMetadata_streams, connectionMetadata_streams, h.streams]
    · rw [connectionMetadata_pending, connectionMetadata_pending, h.pending]
    · rw [connectionMetadata_pendingDns, connectionMetadata_pendingDns, h.pendingDns]
    · rw [connection_connectionMetadata, connection_connectionMetadata, h.connection]
    · intro j requestId request hwaiting
      rw [waiting, connectionMetadata_pending] at hwaiting
      exact h.keyed j requestId request hwaiting
  · have hstate : q.connections.getD raw.key {} = p.connections.getD raw.key {} := by
      rw [hkey]
      exact h.connection
    have hp := p.connectionMetadata_config host raw
    have hq := q.connectionMetadata_config host' raw
    unfold connectionMetadata at hp hq ⊢
    dsimp only at hp hq ⊢
    simp only [maskConnection, hp, hq, hstate, h.config]

private theorem Restricts.updateConnection (h : Restricts key p q) (hkey : raw.key = key)
    (f : ConnectionState → ConnectionState) :
    Restricts key (p.updateConnection raw.key f) (q.updateConnection raw.key f) := by
  refine ⟨h.config, h.streams, h.pending, h.pendingDns, ?_, h.keyed⟩
  rw [connection_updateConnection, connection_updateConnection, hkey, h.connection]

/-! ### Messages -/

section Messages

/-- A request of the connection opens alike. -/
private theorem restricts_openRequest (lib : External) (host host' : Host) (truncated : Bool)
    (message : DecodedMessage) (hkey : raw.key = key) (hchunk : raw.eventType = EVENT_IO_CHUNK)
    (h : Restricts key p q) (command : MongoCommand) :
    Restricts key (p.openRequest lib host raw truncated message command).1
        (q.openRequest lib host' raw truncated message command).1 ∧
      maskRequest (q.openRequest lib host' raw truncated message command).2 =
        maskRequest (p.openRequest lib host raw truncated message command).2 := by
  have hforeign : ¬ foreignKernelContext raw := by
    simp [foreignKernelContext, hchunk, EVENT_IO_CHUNK, EVENT_SYSCALL_LATENCY, EVENT_CONNECTION]
  subst hkey
  have hupdated := h.updateConnection rfl (rememberPrincipal
    (takeHashedPrincipal lib command p.config.principalHashSalt).1
    (takeHashedPrincipal lib command p.config.principalHashSalt).2)
  obtain ⟨hrestricts, hmetadata⟩ := restricts_connectionMetadata host host' rfl hupdated
  have hseed := maskSeed_seed host host' raw false hupdated.config truncated
    (fun hcontext => absurd hcontext hforeign)
  simp only [openRequest, h.config]
  refine ⟨hrestricts, ?_⟩
  simp only [maskRequest, hmetadata, hseed, PendingRequest.mk.injEq, true_and, and_true]
  exact congrArg ConnectionState.authenticatedPrincipalHash hupdated.connection

private theorem maskPayload_activityOf {request request' : PendingRequest}
    (hconfig : q.config = p.config) (hrequest : maskRequest request' = maskRequest request)
    (response : Option (DecodedMessage × ℕ)) :
    maskPayload (.mongodbActivity (q.activityOf request' response)) =
      maskPayload (.mongodbActivity (p.activityOf request response)) := by
  rcases request with ⟨command, target, actor, stateKey, requestId, requestBytes, compressed,
    expectsResponse, seed, metadata⟩
  rcases request' with ⟨command', target', actor', stateKey', requestId', requestBytes',
    compressed', expectsResponse', seed', metadata'⟩
  simp only [maskRequest, PendingRequest.mk.injEq] at hrequest
  obtain ⟨rfl, rfl, rfl, rfl, rfl, rfl, rfl, rfl, -, hmetadata⟩ := hrequest
  simp only [maskPayload, activityOf, hconfig, hmetadata]

private theorem maskSeed_activitySeed {seed seed' : EventSeed}
    {activity activity' : MongodbActivity}
    (hseed : maskSeed false seed' = maskSeed false seed)
    (hquery : activity'.query = activity.query) :
    maskSeed false (activitySeed seed' activity') =
      maskSeed false (activitySeed seed activity) := by
  simp only [maskSeed, EventSeed.mk.injEq] at hseed
  unfold activitySeed
  rw [hquery]
  split <;> simp [maskSeed, hseed]

private theorem maskEvent_reportCompleted {request request' : PendingRequest}
    (hconfig : q.config = p.config) (hrequest : maskRequest request' = maskRequest request)
    (response : Option (DecodedMessage × ℕ)) (sessionPrincipal : Option String) :
    (q.reportCompleted lib request' response sessionPrincipal).2.map maskEvent =
      (p.reportCompleted lib request response sessionPrincipal).2.map maskEvent := by
  have hcommand : request'.command = request.command :=
    (congrArg PendingRequest.command hrequest :)
  have htarget : request'.targetPrincipalHash = request.targetPrincipalHash :=
    (congrArg PendingRequest.targetPrincipalHash hrequest :)
  have hseed : maskSeed false request'.seed = maskSeed false request.seed :=
    (congrArg PendingRequest.seed hrequest :)
  have hid : request'.connection.connectionId = request.connection.connectionId :=
    (congrArg (fun r => r.connection.connectionId) hrequest :)
  have hquery : (q.activityOf request' response).query = (p.activityOf request response).query := by
    simp only [activityOf, hconfig, hcommand]
  have hfirst := maskEvent_eventFromSeed lib hconfig
    (maskPayload_activityOf hconfig hrequest response) (maskSeed_activitySeed hseed hquery)
  have hsecond : ∀ succeeded,
      maskPayload (.mongodbAuth (authOf request' sessionPrincipal succeeded)) =
        maskPayload (.mongodbAuth (authOf request sessionPrincipal succeeded)) := by
    intro succeeded
    simp only [maskPayload, authOf, hid, hcommand, htarget]
  unfold reportCompleted
  dsimp only
  rw [hcommand]
  split
  · simp only [List.map_cons, List.map_nil, List.cons.injEq, and_true]
    refine ⟨hfirst, maskEvent_eventFromSeed lib ?_ (hsecond _) hseed⟩
    exact hconfig
  · simp only [List.map_cons, List.map_nil, hfirst]

/-- A completed request of the connection is reported alike. -/
private theorem restricts_completed {request request' : PendingRequest}
    (h : Restricts key p q) (hrequest : maskRequest request' = maskRequest request)
    (hkey : request.connectionStateKey = key) (response : Option (DecodedMessage × ℕ)) :
    Restricts key (p.eventsForCompletedRequest lib request response).1
        (q.eventsForCompletedRequest lib request' response).1 ∧
      (q.eventsForCompletedRequest lib request' response).2.map maskEvent =
        (p.eventsForCompletedRequest lib request response).2.map maskEvent := by
  have hsession : q.sessionAuthPrincipal request' = p.sessionAuthPrincipal request := by
    have htarget : request'.targetPrincipalHash = request.targetPrincipalHash :=
      (congrArg PendingRequest.targetPrincipalHash hrequest :)
    have hkey' : request'.connectionStateKey = request.connectionStateKey :=
      (congrArg PendingRequest.connectionStateKey hrequest :)
    unfold sessionAuthPrincipal
    rw [htarget, hkey', hkey]
    exact congrArg _ (congrArg ConnectionState.pendingAuthPrincipalHash h.connection)
  have hcommand : request'.command = request.command :=
    (congrArg PendingRequest.command hrequest :)
  have hkey' : request'.connectionStateKey = request.connectionStateKey :=
    (congrArg PendingRequest.connectionStateKey hrequest :)
  constructor
  · refine ⟨?_, ?_, ?_, ?_, ?_, ?_⟩
    · rw [eventsForCompletedRequest_config, eventsForCompletedRequest_config, h.config]
    · rw [eventsForCompletedRequest_streams, eventsForCompletedRequest_streams, h.streams]
    · rw [eventsForCompletedRequest_pending, eventsForCompletedRequest_pending, h.pending]
    · rw [eventsForCompletedRequest_pendingDns, eventsForCompletedRequest_pendingDns, h.pendingDns]
    · rw [connection_eventsForCompletedRequest, connection_eventsForCompletedRequest, hsession,
        h.connection, hcommand, hkey']
    · intro j requestId request hwaiting
      rw [waiting, eventsForCompletedRequest_pending] at hwaiting
      exact h.keyed j requestId request hwaiting
  · unfold eventsForCompletedRequest
    rw [hcommand, hkey', hsession]
    dsimp only
    split
    · exact maskEvent_reportCompleted (p := p.updateConnection _ _) (q := q.updateConnection _ _)
        h.config hrequest response _
    · exact maskEvent_reportCompleted h.config hrequest response none

/-- A request of the connection waits alike. -/
private theorem restricts_waits {request request' : PendingRequest} (hroom : Roomy p)
    (h : Restricts key p q) (hrequest : maskRequest request' = maskRequest request)
    (hkey : raw.key = key) (hstate : request.connectionStateKey = raw.key) :
    Restricts key
      { p.prunePendingRequests host raw.timestampNs with
        pending := (p.prunePendingRequests host raw.timestampNs).pending.insert
          (raw.tgid, raw.connectionKey, request.requestId) request }
      { q.prunePendingRequests host' raw.timestampNs with
        pending := (q.prunePendingRequests host' raw.timestampNs).pending.insert
          (raw.tgid, raw.connectionKey, request'.requestId) request' } := by
  have hid : request'.requestId = request.requestId :=
    (congrArg PendingRequest.requestId hrequest :)
  have hp : (p.prunePendingRequests host raw.timestampNs).pending = p.pending :=
    prunedPending_of_lt _ _ _ hroom.1
  have hq : (q.prunePendingRequests host' raw.timestampNs).pending = q.pending :=
    prunedPending_of_lt _ _ _ (h.roomy hroom).1
  refine ⟨h.config, h.streams, ?_, h.pendingDns, h.connection, ?_⟩
  · dsimp only
    rw [hp, hq, hid, Table.mapVal_insert, Table.mapVal_insert, h.pending, hrequest,
      Table.filterKey_insert, if_pos (belongsTo_eq_true hkey)]
  · intro j requestId waiter hwaiting
    dsimp only [waiting] at hwaiting
    rw [hp, Table.get?_insert] at hwaiting
    split at hwaiting
    · next hj =>
      cases hwaiting
      rw [hstate]
      exact (congrArg (fun k : PendingKey => (k.1, k.2.1)) hj).symm
    · exact h.keyed j requestId waiter hwaiting

private theorem Restricts.erasePending (h : Restricts key p q) (k : PendingKey) :
    Restricts key { p with pending := p.pending.erase k }
      { q with pending := q.pending.erase k } := by
  refine ⟨h.config, h.streams, ?_, h.pendingDns, h.connection, ?_⟩
  · dsimp only
    rw [Table.erase, Table.erase, Table.mapVal_filterKey, Table.mapVal_filterKey, h.pending]
    exact Table.filter_comm ..
  · intro j requestId waiter hwaiting
    dsimp only [EventProcessor.waiting] at hwaiting
    rw [Table.get?_erase] at hwaiting
    split at hwaiting
    · cases hwaiting
    · exact h.keyed j requestId waiter hwaiting

/-- A message of the connection has the same effect. -/
private theorem restricts_message (lib : External) (truncated : Bool) (message : DecodedMessage)
    (host host' : Host) (hkey : raw.key = key) (hchunk : raw.eventType = EVENT_IO_CHUNK)
    (hroom : Roomy p) (h : Restricts key p q) :
    Restricts key (p.processMessage lib host raw truncated message).1
        (q.processMessage lib host' raw truncated message).1 ∧
      (q.processMessage lib host' raw truncated message).2.map maskEvent =
        (p.processMessage lib host raw truncated message).2.map maskEvent := by
  unfold processMessage
  by_cases hreply : message.responseTo = 0
  · rw [if_pos hreply, if_pos hreply]
    cases hcommand : message.command with
    | none => exact ⟨h, rfl⟩
    | some command =>
      obtain ⟨hopened, hrequest⟩ :=
        restricts_openRequest lib host host' truncated message hkey hchunk h command
      have hstate : (p.openRequest lib host raw truncated message command).2.connectionStateKey =
          raw.key := rfl
      have hroom' : Roomy (p.openRequest lib host raw truncated message command).1 := by
        rw [Roomy, openRequest_pending, openRequest_pendingDns]
        exact hroom
      dsimp only
      generalize p.openRequest lib host raw truncated message command = opened at *
      generalize q.openRequest lib host' raw truncated message command = opened' at *
      have hexpects : opened'.2.expectsResponse = opened.2.expectsResponse :=
        (congrArg PendingRequest.expectsResponse hrequest :)
      rw [hexpects]
      split
      · exact ⟨restricts_waits hroom' hopened hrequest hkey hstate, rfl⟩
      · exact restricts_completed hopened hrequest (hstate.trans hkey) none
  · rw [if_neg hreply, if_neg hreply]
    have hwaiting := h.waiting message.responseTo
    rw [← hkey, waiting, waiting] at hwaiting
    change (q.pending.get? (raw.tgid, raw.connectionKey, message.responseTo)).map maskRequest =
      (p.pending.get? (raw.tgid, raw.connectionKey, message.responseTo)).map maskRequest at hwaiting
    dsimp only
    cases hp : p.pending.get? (raw.tgid, raw.connectionKey, message.responseTo) with
    | none =>
      rw [hp, Option.map_none, Option.map_eq_none_iff] at hwaiting
      rw [hwaiting]
      exact ⟨h, rfl⟩
    | some request =>
      rw [hp, Option.map_some] at hwaiting
      obtain ⟨request', hq, hrequest⟩ := Option.map_eq_some_iff.mp hwaiting
      have htime : request'.seed.monotonicTimestampNs = request.seed.monotonicTimestampNs :=
        (congrArg (fun r => r.seed.monotonicTimestampNs) hrequest :)
      rw [hq]
      dsimp only
      rw [htime]
      exact restricts_completed (h.erasePending _) hrequest
        ((h.keyed raw.key message.responseTo request hp).trans hkey) _

/-- A message of another connection changes nothing for the connection. -/
private theorem restricts_message_other (truncated : Bool) (message : DecodedMessage)
    (hkey : raw.key ≠ key) (hroom : Roomy p)
    (h : Restricts key p q) :
    Restricts key ((Call.message host raw truncated message).step lib p).1 q := by
  have hother : ∀ requestId : ℤ,
      ¬ belongsTo key ((raw.tgid, raw.connectionKey, requestId) : PendingKey) = true :=
    fun _ => not_belongsTo hkey
  refine ⟨?_, ?_, ?_, ?_, ?_, keyed_step _ h.keyed⟩
  · rw [step_config, h.config]
  · exact h.streams.trans (by rw [Call.step, processMessage_streams])
  · by_cases hreply : message.responseTo = 0
    · rw [pending_step_request hreply, prunedPending_of_lt _ _ _ hroom.1]
      split
      · exact h.pending
      · split
        · exact h.pending
        · rw [Table.mapVal_insert, Table.filterKey_insert, if_neg (hother _), h.pending]
    · rw [pending_step_reply hreply]
      split
      · exact h.pending
      · rw [Table.erase, Table.mapVal_filterKey]
        exact h.pending.trans (filter_erase_other _ hkey).symm
  · exact h.pendingDns.trans (by rw [Call.step, processMessage_pendingDns])
  · by_cases hreply : message.responseTo = 0
    · rw [connection_step_request hreply, h.connection]
      split
      · rfl
      · rw [connection_openRequest, if_neg (Ne.symm hkey)]
    · rw [connection_step_reply hreply, h.connection]
      split
      · rfl
      · next request hwaiting =>
        rw [h.keyed _ _ _ hwaiting, if_neg]
        rintro ⟨-, heq⟩
        exact hkey heq.symm

end Messages

/-! ### Other records of the connection -/

section Records

variable {captured : CapturedKernelEvent}

private theorem restricts_event (host host' : Host) (truncated : Bool) (h : Restricts key p q)
    {payload payload' : EventPayload} (hpayload : maskPayload payload' = maskPayload payload)
    (hcontext : readsProcessContext payload' = readsProcessContext payload)
    (hforeign : foreignKernelContext raw → readsProcessContext payload) :
    Restricts key (p.event lib host raw truncated payload).1
        (q.event lib host' raw truncated payload').1 ∧
      maskEvent (q.event lib host' raw truncated payload').2 =
        maskEvent (p.event lib host raw truncated payload).2 := by
  refine ⟨h.withSequence _ _, maskEvent_eventFromSeed lib h.config hpayload ?_⟩
  rw [hcontext]
  exact maskSeed_seed host host' raw _ h.config truncated hforeign

private theorem restricts_latency (lib : External) (host host' : Host) (h : Restricts key p q)
    (htype : captured.raw.eventType = EVENT_SYSCALL_LATENCY) :
    Restricts key (p.processLatency lib host captured).1 (q.processLatency lib host' captured).1 ∧
      (q.processLatency lib host' captured).2.map maskEvent =
        (p.processLatency lib host captured).2.map maskEvent := by
  unfold processLatency
  dsimp only
  split
  · refine ⟨h.withSequence _ _, congrArg₂ List.cons ?_ rfl⟩
    exact (restricts_event host host' false h rfl rfl fun _ => rfl).2
  · next hoperation =>
    split
    · exact ⟨h, rfl⟩
    · refine ⟨h.withSequence _ _, congrArg₂ List.cons ?_ rfl⟩
      refine (restricts_event host host' false h rfl rfl fun hforeign => ?_).2
      simp [foreignKernelContext, htype, hoperation, EVENT_SYSCALL_LATENCY,
        EVENT_CONNECTION] at hforeign

private theorem restricts_profile (lib : External) (host host' : Host) (h : Restricts key p q)
    (htype : captured.raw.eventType = EVENT_PROFILE) :
    Restricts key (p.processProfile lib host captured).1 (q.processProfile lib host' captured).1 ∧
      (q.processProfile lib host' captured).2.map maskEvent =
        (p.processProfile lib host captured).2.map maskEvent := by
  have hforeign : ¬ foreignKernelContext captured.raw := by
    simp [foreignKernelContext, htype, EVENT_PROFILE, EVENT_SYSCALL_LATENCY, EVENT_CONNECTION]
  unfold processProfile
  dsimp only
  rw [h.config]
  split
  · refine ⟨h.withSequence _ _, congrArg₂ List.cons ?_ rfl⟩
    exact (restricts_event host host' false h rfl rfl fun hcontext => absurd hcontext hforeign).2
  · split
    · refine ⟨h.withSequence _ _, congrArg₂ List.cons ?_ rfl⟩
      exact (restricts_event host host' false h rfl rfl fun hcontext => absurd hcontext hforeign).2
    · exact ⟨h, rfl⟩

/-- The processor `p'` is `p` without the entries of some connections. -/
private structure Forgets (drop : ConnectionKey → Prop) [DecidablePred drop]
    (p p' : EventProcessor) : Prop where
  config : p'.config = p.config
  streams : p'.streams = p.streams.filter (fun k _ => decide (¬ drop (k.1, k.2.1)))
  pending : p'.pending = p.pending.filter (fun k _ => decide (¬ drop (k.1, k.2.1)))
  pendingDns : p'.pendingDns = p.pendingDns.filter (fun k _ => decide (¬ drop (k.1, k.2.1)))
  connection : ∀ j, p'.connection j = if drop j then {} else p.connection j

private theorem forgets_process (p : EventProcessor) (tgid : ℕ) :
    Forgets (·.1 = tgid) p (p.forgetProcess tgid) :=
  ⟨rfl, rfl, rfl, rfl, connection_forgetProcess p tgid⟩

private theorem forgets_connection (p : EventProcessor) (j : ConnectionKey) :
    Forgets (· = j) p (p.forgetConnection j) :=
  ⟨rfl, rfl, rfl, rfl, connection_forgetConnection p j⟩

section Forgetting

variable {drop : ConnectionKey → Prop} [DecidablePred drop] {p' q' : EventProcessor}

private theorem Forgets.keyed (hp : Forgets drop p p')
    (h : ∀ j requestId request, p.waiting j requestId = some request →
      request.connectionStateKey = j) (j : ConnectionKey) (requestId : ℤ)
    (request : PendingRequest) (hwaiting : p'.waiting j requestId = some request) :
    request.connectionStateKey = j := by
  rw [EventProcessor.waiting, hp.pending, Table.get?_filter, Option.filter_eq_some_iff] at hwaiting
  exact h j requestId request hwaiting.1

/-- Forgetting the same connections in both runs keeps the restriction. -/
private theorem Restricts.forgets (h : Restricts key p q) (hp : Forgets drop p p')
    (hq : Forgets drop q q') : Restricts key p' q' := by
  refine ⟨?_, ?_, ?_, ?_, ?_, hp.keyed h.keyed⟩
  · rw [hp.config, hq.config, h.config]
  · rw [hp.streams, hq.streams, h.streams]
    exact Table.filter_comm ..
  · rw [hp.pending, hq.pending, Table.mapVal_filterKey, Table.mapVal_filterKey, h.pending]
    exact Table.filter_comm ..
  · rw [hp.pendingDns, hq.pendingDns, h.pendingDns]
    exact Table.filter_comm ..
  · rw [hp.connection, hq.connection, h.connection]

/-- Dropping entries of other connections leaves the entries of the connection. -/
private theorem filter_drop {α ν : Type} (t : Table (ℕ × ℕ × α) ν) (hdrop : ¬ drop key) :
    (t.filter (fun k _ => decide (¬ drop (k.1, k.2.1)))).filter (fun k _ => belongsTo key k) =
      t.filter (fun k _ => belongsTo key k) := by
  refine Table.filter_filter_of_imp t fun k _ hk => ?_
  rw [belongsTo, decide_eq_true_eq] at hk
  rw [decide_eq_true_eq, hk]
  exact hdrop

/-- Forgetting other connections in the first run keeps the restriction. -/
private theorem Restricts.forgets_other (h : Restricts key p q) (hp : Forgets drop p p')
    (hdrop : ¬ drop key) : Restricts key p' q := by
  refine ⟨?_, ?_, ?_, ?_, ?_, hp.keyed h.keyed⟩
  · rw [hp.config, h.config]
  · rw [hp.streams, filter_drop _ hdrop, h.streams]
  · rw [hp.pending, Table.mapVal_filterKey, filter_drop _ hdrop, h.pending]
  · rw [hp.pendingDns, filter_drop _ hdrop, h.pendingDns]
  · rw [hp.connection, if_neg hdrop, h.connection]

end Forgetting

/-- A lifecycle record, of the connection or of its process only, has the same effect. -/
private theorem restricts_lifecycle (lib : External) (host host' : Host) (h : Restricts key p q)
    (htype : captured.raw.eventType = EVENT_PROCESS) :
    Restricts key (p.processLifecycle lib host captured).1
        (q.processLifecycle lib host' captured).1 ∧
      (q.processLifecycle lib host' captured).2.map maskEvent =
        (p.processLifecycle lib host captured).2.map maskEvent := by
  have hforeign : ¬ foreignKernelContext captured.raw := by
    simp [foreignKernelContext, htype, EVENT_PROCESS, EVENT_SYSCALL_LATENCY, EVENT_CONNECTION]
  have hafter : Restricts key
      (if captured.raw.operation = OP_PROCESS_EXIT then p.forgetProcess captured.raw.tgid else p)
      (if captured.raw.operation = OP_PROCESS_EXIT then
          q.forgetProcess captured.raw.tgid
        else q) := by
    split
    · exact h.forgets (forgets_process p _) (forgets_process q _)
    · exact h
  unfold processLifecycle
  dsimp only
  split
  · refine ⟨hafter.withSequence _ _, congrArg₂ List.cons ?_ rfl⟩
    exact (restricts_event host host' false hafter rfl rfl
      fun hcontext => absurd hcontext hforeign).2
  · exact ⟨h, rfl⟩

private theorem restricts_connection (lib : External) (host host' : Host)
    (hkey : captured.raw.key = key)
    (h : Restricts key p q) :
    Restricts key (p.processConnection lib host captured).1
        (q.processConnection lib host' captured).1 ∧
      (q.processConnection lib host' captured).2.map maskEvent =
        (p.processConnection lib host captured).2.map maskEvent := by
  have hmeasured := h.updateConnection hkey (measureConnection captured.raw)
  obtain ⟨hmetadata, hmasked⟩ := restricts_connectionMetadata host host' hkey hmeasured
  have hafter : Restricts key
      (if captured.raw.operation = OP_TCP_CLOSE then
        ((p.updateConnection captured.raw.key (measureConnection captured.raw)).connectionMetadata
          host captured.raw).1.forgetConnection captured.raw.key
      else ((p.updateConnection captured.raw.key
        (measureConnection captured.raw)).connectionMetadata host captured.raw).1)
      (if captured.raw.operation = OP_TCP_CLOSE then
        ((q.updateConnection captured.raw.key (measureConnection captured.raw)).connectionMetadata
          host' captured.raw).1.forgetConnection captured.raw.key
      else ((q.updateConnection captured.raw.key
        (measureConnection captured.raw)).connectionMetadata host' captured.raw).1) := by
    split
    · exact hmetadata.forgets (forgets_connection _ _) (forgets_connection _ _)
    · exact hmetadata
  unfold processConnection
  dsimp only
  split
  · exact ⟨hmeasured, rfl⟩
  · refine ⟨hafter.withSequence _ _, congrArg₂ List.cons ?_ rfl⟩
    refine (restricts_event host host' false hafter ?_ ?_ ?_).2
    · simp only [maskPayload, hmasked]
    · rfl
    · exact fun _ => rfl

/-- Remembering a DNS query keeps the restriction, while there is room. -/
private theorem restricts_rememberDns (hkey : raw.key = key) (hroom : Roomy p)
    (h : Restricts key p q) (message : DecodedDnsMessage) :
    Restricts key (p.rememberDns raw message) (q.rememberDns raw message) := by
  refine ⟨h.config, h.streams, h.pending, ?_, h.connection, h.keyed⟩
  simp only [rememberDns, hroom.2, (h.roomy hroom).2, if_true]
  rw [h.pendingDns, Table.filterKey_insert, if_pos (belongsTo_eq_true hkey)]

private theorem Restricts.eraseDns (h : Restricts key p q) (k : DnsKey) :
    Restricts key { p with pendingDns := p.pendingDns.erase k }
      { q with pendingDns := q.pendingDns.erase k } := by
  refine ⟨h.config, h.streams, h.pending, ?_, h.connection, h.keyed⟩
  dsimp only
  rw [h.pendingDns, filter_erase]

private theorem restricts_dns (host host' : Host) (hkey : captured.raw.key = key)
    (htype : captured.raw.eventType = EVENT_DNS_CHUNK) (hroom : Roomy p) (h : Restricts key p q) :
    Restricts key (p.processDns lib host captured).1 (q.processDns lib host' captured).1 ∧
      maskResult (q.processDns lib host' captured).2 =
        maskResult (p.processDns lib host captured).2 := by
  have hforeign : ¬ foreignKernelContext captured.raw := by
    simp [foreignKernelContext, htype, EVENT_DNS_CHUNK, EVENT_SYSCALL_LATENCY, EVENT_CONNECTION]
  unfold processDns
  dsimp only
  split
  · exact ⟨h, rfl⟩
  · next message _ =>
    generalize hk : (captured.raw.tgid, captured.raw.connectionKey, message.queryId) = k
    have hwaiting : q.pendingDns.get? k = p.pendingDns.get? k := by
      rw [h.pendingDns, Table.get?_filterKey, ← hk, if_pos (belongsTo_eq_true hkey)]
    rw [hwaiting]
    have hafter : Restricts key
        (if message.response = true then { p with pendingDns := p.pendingDns.erase k }
        else p.rememberDns captured.raw message)
        (if message.response = true then { q with pendingDns := q.pendingDns.erase k }
        else q.rememberDns captured.raw message) := by
      split
      · exact h.eraseDns _
      · exact restricts_rememberDns hkey hroom h message
    obtain ⟨hmetadata, hmasked⟩ := restricts_connectionMetadata host host' hkey hafter
    refine ⟨hmetadata.withSequence _ _, congrArg Except.ok (congrArg₂ List.cons ?_ rfl)⟩
    refine (restricts_event host host' _ hmetadata ?_ ?_
      fun hcontext => absurd hcontext hforeign).2
    · simp only [maskPayload, hmasked]
    · rfl

/-- A record of the connection other than a chunk has the same effect. -/
private theorem restricts_record (host host' : Host) (hkey : captured.raw.key = key)
    (hroom : Roomy p) (h : Restricts key p q) :
    Restricts key (p.processRecord lib host captured).1 (q.processRecord lib host' captured).1 ∧
      maskResult (q.processRecord lib host' captured).2 =
        maskResult (p.processRecord lib host captured).2 := by
  unfold processRecord succeed
  dsimp only
  split
  · next htype =>
    obtain ⟨hafter, hevents⟩ := restricts_latency lib host host' h htype
    exact ⟨hafter, congrArg Except.ok hevents⟩
  · split
    · obtain ⟨hafter, hevents⟩ := restricts_connection lib host host' hkey h
      exact ⟨hafter, congrArg Except.ok hevents⟩
    · split
      · next htype =>
        obtain ⟨hafter, hevents⟩ := restricts_profile lib host host' h htype
        exact ⟨hafter, congrArg Except.ok hevents⟩
      · split
        · next htype =>
          obtain ⟨hafter, hevents⟩ := restricts_lifecycle lib host host' h htype
          exact ⟨hafter, congrArg Except.ok hevents⟩
        · split
          · next htype => exact restricts_dns host host' hkey htype hroom h
          · exact ⟨h, rfl⟩

end Records

/-! ### Records of other connections -/

section OtherRecords

variable {captured : CapturedKernelEvent}

private theorem Restricts.updateConnection_other (h : Restricts key p q) (hkey : raw.key ≠ key)
    (f : ConnectionState → ConnectionState) : Restricts key (p.updateConnection raw.key f) q := by
  refine ⟨h.config, h.streams, h.pending, h.pendingDns, ?_, h.keyed⟩
  rw [connection_updateConnection, if_neg (Ne.symm hkey), h.connection]

private theorem Restricts.connectionMetadata_left (h : Restricts key p q) (host : Host)
    (raw : KernelEvent) : Restricts key (p.connectionMetadata host raw).1 q := by
  refine ⟨?_, ?_, ?_, ?_, ?_, ?_⟩
  · rw [connectionMetadata_config, h.config]
  · rw [connectionMetadata_streams, h.streams]
  · rw [connectionMetadata_pending, h.pending]
  · rw [connectionMetadata_pendingDns, h.pendingDns]
  · rw [connection_connectionMetadata, h.connection]
  · intro j requestId waiter hwaiting
    rw [EventProcessor.waiting, connectionMetadata_pending] at hwaiting
    exact h.keyed j requestId waiter hwaiting

/-- A record of another connection, other than a chunk and an exit of the process,
changes nothing for the connection. -/
private theorem restricts_record_other (host : Host) (hkey : captured.raw.key ≠ key)
    (hexit : ¬ exitsProcess captured.raw key.1) (hroom : Roomy p) (h : Restricts key p q) :
    Restricts key (p.processRecord lib host captured).1 q := by
  have hevent : ∀ {r : EventProcessor} (sequence : ℕ), Restricts key r q →
      Restricts key { r with sequence } q := fun sequence hr => hr.withSequence sequence q.sequence
  unfold processRecord succeed
  dsimp only
  split
  · unfold processLatency
    dsimp only
    split
    · exact hevent _ h
    · split
      · exact h
      · exact hevent _ h
  · split
    · have hmeasured := (h.updateConnection_other hkey
        (measureConnection captured.raw)).connectionMetadata_left host captured.raw
      unfold processConnection
      dsimp only
      split
      · exact h.updateConnection_other hkey _
      · refine hevent _ ?_
        split
        · exact hmeasured.forgets_other (forgets_connection _ _) (Ne.symm hkey)
        · exact hmeasured
    · split
      · unfold processProfile
        dsimp only
        split
        · exact hevent _ h
        · split
          · exact hevent _ h
          · exact h
      · split
        · next htype =>
          unfold processLifecycle
          dsimp only
          split
          · refine hevent _ ?_
            split
            · next hoperation =>
              exact h.forgets_other (forgets_process _ _)
                fun htgid => hexit ⟨htype, hoperation, htgid.symm⟩
            · exact h
          · exact h
        · split
          · unfold processDns
            dsimp only
            split
            · exact h
            · refine hevent _ (Restricts.connectionMetadata_left ?_ host captured.raw)
              split
              · refine ⟨h.config, h.streams, h.pending, ?_, h.connection, h.keyed⟩
                exact h.pendingDns.trans (filter_erase_other _ hkey).symm
              · refine ⟨h.config, h.streams, h.pending, ?_, h.connection, h.keyed⟩
                simp only [rememberDns, hroom.2, if_true]
                rw [Table.filterKey_insert, if_neg (not_belongsTo hkey), h.pendingDns]
          · exact h

end OtherRecords

/-! ### Runs -/

/-- The tables have room before every call of the run. -/
def RoomyRun (lib : External) (p : EventProcessor) (calls : List Call) : Prop :=
  ∀ before after, calls = before ++ after → Roomy (p.afterCalls lib before)

private theorem roomyRun_append {calls more : List Call} (h : RoomyRun lib p (calls ++ more)) :
    RoomyRun lib p calls ∧ RoomyRun lib (p.afterCalls lib calls) more := by
  constructor
  · rintro before after rfl
    exact h before (after ++ more) (by simp)
  · rintro before after rfl
    rw [← afterCalls_append]
    exact h (calls ++ before) after (by simp)

private theorem roomyRun_cons {call : Call} {rest : List Call}
    (h : RoomyRun lib p (call :: rest)) : Roomy p ∧ RoomyRun lib (call.step lib p).1 rest :=
  ⟨h [] _ rfl, (roomyRun_append (show RoomyRun lib p ([call] ++ rest) from h)).2⟩

/-- The messages of a chunk of the connection have the same effect. -/
private theorem restricts_messages (hkey : raw.key = key) (hchunk : raw.eventType = EVENT_IO_CHUNK)
    (truncated : Bool) {inputs inputs' : List (Host × DecodedMessage)}
    (hsame : inputs'.map Prod.snd = inputs.map Prod.snd) (h : Restricts key p q)
    (hroom : RoomyRun lib p (inputs.map (fun m => .message m.1 raw truncated m.2))) :
    Restricts key (processMessages lib raw truncated p inputs).1
        (processMessages lib raw truncated q inputs').1 ∧
      (processMessages lib raw truncated q inputs').2.map maskEvent =
        (processMessages lib raw truncated p inputs).2.map maskEvent := by
  induction inputs generalizing inputs' p q with
  | nil =>
    obtain rfl := List.map_eq_nil_iff.mp hsame
    exact ⟨h, rfl⟩
  | cons input rest ih =>
    obtain ⟨input', rest', rfl, hinput, hrest⟩ := List.map_eq_cons_iff.mp hsame
    obtain ⟨host, message⟩ := input
    obtain ⟨host', message'⟩ := input'
    obtain rfl : message' = message := hinput
    obtain ⟨hroomy, hroom⟩ := roomyRun_cons hroom
    obtain ⟨hafter, hevents⟩ :=
      restricts_message lib truncated message' host host' hkey hchunk hroomy h
    obtain ⟨hend, hmore⟩ := ih hrest hafter hroom
    refine ⟨hend, ?_⟩
    simp only [processMessages, List.map_append, hevents, hmore]

/-- The messages of a chunk of another connection change nothing for the connection. -/
private theorem restricts_messages_other (hkey : raw.key ≠ key) (truncated : Bool)
    {inputs : List (Host × DecodedMessage)} (h : Restricts key p q)
    (hroom : RoomyRun lib p (inputs.map (fun m => .message m.1 raw truncated m.2))) :
    Restricts key (processMessages lib raw truncated p inputs).1 q := by
  induction inputs generalizing p with
  | nil => exact h
  | cons input rest ih =>
    obtain ⟨hroomy, hroom⟩ := roomyRun_cons hroom
    exact ih (restricts_message_other truncated input.2 hkey hroomy h) hroom

private theorem inputs_map_snd (hosts : ℕ → Host) (messages : List DecodedMessage) :
    (messages.zipIdx.map (fun entry => (hosts entry.2, entry.1))).map Prod.snd = messages := by
  rw [List.map_map]
  exact List.zipIdx_map_fst 0 messages

private theorem messageCalls_eq_map (hosts : ℕ → Host) (messages : List DecodedMessage) :
    messageCalls hosts raw messages =
      (messages.zipIdx.map (fun entry => (hosts entry.2, entry.1))).map
        (fun m => Call.message m.1 raw (isTruncated raw) m.2) := by
  simp [messageCalls, Function.comp_def]

/-- A record of the connection has the same effect. -/
private theorem restricts_process (hosts hosts' : ℕ → Host) {captured : CapturedKernelEvent}
    (hkey : captured.raw.key = key) (h : Restricts key p q)
    (hroom : RoomyRun lib p (p.callsOf lib (hosts, captured))) :
    Restricts key (p.process lib hosts captured).1 (q.process lib hosts' captured).1 ∧
      maskResult (q.process lib hosts' captured).2 =
        maskResult (p.process lib hosts captured).2 := by
  unfold process callsOf at *
  dsimp only at hroom
  split
  · next htype =>
    rw [if_pos htype] at hroom
    obtain ⟨-, hroom⟩ := roomyRun_cons hroom
    obtain ⟨hdecoded, hresult⟩ := restricts_chunk lib hkey h
    unfold processIoChunk
    simp only [Call.step] at hroom
    rcases hp : p.decodeChunk lib captured.raw with ⟨p1, result⟩
    rcases hq : q.decodeChunk lib captured.raw with ⟨q1, result'⟩
    rw [hp, hq] at hdecoded hresult
    rw [hp] at hroom
    obtain rfl : result' = result := hresult
    cases result' with
    | error e => exact ⟨hdecoded, rfl⟩
    | ok messages =>
      dsimp only at hroom
      rw [messageCalls_eq_map] at hroom
      obtain ⟨hafter, hevents⟩ := restricts_messages hkey htype (isTruncated captured.raw)
        (by rw [inputs_map_snd hosts' messages, inputs_map_snd hosts messages]) hdecoded hroom
      exact ⟨hafter, congrArg Except.ok hevents⟩
  · next htype =>
    rw [if_neg htype] at hroom
    exact restricts_record (hosts 0) (hosts' 0) hkey (roomyRun_cons hroom).1 h

/-- A record of another connection, other than an exit of the process, changes nothing
for the connection. -/
private theorem restricts_process_other (hosts : ℕ → Host) {captured : CapturedKernelEvent}
    (hkey : captured.raw.key ≠ key) (hexit : ¬ exitsProcess captured.raw key.1)
    (h : Restricts key p q) (hroom : RoomyRun lib p (p.callsOf lib (hosts, captured))) :
    Restricts key (p.process lib hosts captured).1 q := by
  unfold process callsOf at *
  dsimp only at hroom
  split
  · next htype =>
    rw [if_pos htype] at hroom
    obtain ⟨-, hroom⟩ := roomyRun_cons hroom
    have hdecoded := restricts_chunk_other lib hkey h
    unfold processIoChunk
    simp only [Call.step] at hroom
    rcases hp : p.decodeChunk lib captured.raw with ⟨p1, result⟩
    rw [hp] at hdecoded hroom
    cases result with
    | error e => exact hdecoded
    | ok messages =>
      dsimp only at hroom
      rw [messageCalls_eq_map] at hroom
      exact restricts_messages_other hkey (isTruncated captured.raw) hdecoded hroom
  · next htype =>
    rw [if_neg htype] at hroom
    exact restricts_record_other (hosts 0) hkey hexit (roomyRun_cons hroom).1 h

/-- An exit of the process has the same effect, whatever connection it names. -/
private theorem restricts_process_exit (hosts hosts' : ℕ → Host) {captured : CapturedKernelEvent}
    (hexit : exitsProcess captured.raw key.1) (h : Restricts key p q) :
    Restricts key (p.process lib hosts captured).1 (q.process lib hosts' captured).1 := by
  have hprocess : ∀ (r : EventProcessor) (answers : ℕ → Host),
      (r.process lib answers captured).1 =
        (r.processLifecycle lib (answers 0) captured).1 := by
    intro r answers
    simp [process, processRecord, succeed, hexit.1, EVENT_PROCESS, EVENT_IO_CHUNK,
      EVENT_SYSCALL_LATENCY, EVENT_CONNECTION, EVENT_PROFILE]
  rw [hprocess, hprocess]
  exact (restricts_lifecycle lib (hosts 0) (hosts' 0) h hexit.1).1

/-- A record of the connection, or an exit of its process. -/
def concerns (key : ConnectionKey) (captured : CapturedKernelEvent) : Prop :=
  captured.raw.key = key ∨ exitsProcess captured.raw key.1

instance (key : ConnectionKey) (captured : CapturedKernelEvent) :
    Decidable (concerns key captured) :=
  inferInstanceAs (Decidable (_ ∨ _))

/-- The records that concern the connection. -/
def concerning (key : ConnectionKey) (records : List Record) : List CapturedKernelEvent :=
  (records.map Prod.snd).filter (fun captured => decide (concerns key captured))

/-- What the processor returns for the records of the connection, in order and
without the answers of the host. -/
def reportsOf (lib : External) (key : ConnectionKey) :
    EventProcessor → List Record → List (Except String (List DamEvent))
  | _, [] => []
  | p, record :: rest =>
    let result := p.process lib record.1 record.2
    if record.2.raw.key = key then maskResult result.2 :: reportsOf lib key result.1 rest
    else reportsOf lib key result.1 rest

/-- The run over the records that concern the connection, with any answers of the
host, reports the same for the connection. -/
private theorem reportsOf_concerning {records records' : List Record} (h : Restricts key p q)
    (hroom : RoomyRun lib p (p.trace lib records))
    (hrecords : records'.map Prod.snd = concerning key records) :
    reportsOf lib key p records = reportsOf lib key q records' := by
  induction records generalizing p q records' with
  | nil =>
    obtain rfl := List.map_eq_nil_iff.mp hrecords
    rfl
  | cons record rest ih =>
    obtain ⟨hosts, captured⟩ := record
    obtain ⟨hroomFirst, hroomRest⟩ := roomyRun_append hroom
    rw [← (process_eq_run p (hosts, captured)).1] at hroomRest
    unfold concerning at hrecords
    rw [List.map_cons, List.filter_cons] at hrecords
    by_cases hconcerns : concerns key captured
    · rw [if_pos (decide_eq_true hconcerns)] at hrecords
      obtain ⟨record', rest', rfl, hcaptured, hrest⟩ := List.map_eq_cons_iff.mp hrecords
      obtain ⟨hosts', captured'⟩ := record'
      obtain rfl : captured' = captured := hcaptured
      by_cases hkey : captured'.raw.key = key
      · obtain ⟨hafter, hresult⟩ := restricts_process hosts hosts' hkey h hroomFirst
        simp only [reportsOf, hkey, if_true, hresult]
        exact congrArg _ (ih hafter hroomRest hrest)
      · have hexit : exitsProcess captured'.raw key.1 := hconcerns.resolve_left hkey
        simp only [reportsOf, hkey, if_false]
        exact ih (restricts_process_exit hosts hosts' hexit h) hroomRest hrest
    · rw [if_neg (by simpa using hconcerns)] at hrecords
      have hkey : captured.raw.key ≠ key := fun hkey => hconcerns (.inl hkey)
      simp only [reportsOf, hkey, if_false]
      exact ih (restricts_process_other hosts hkey (fun hexit => hconcerns (.inr hexit)) h
        hroomFirst) hroomRest hrecords

private theorem restricts_new (config : ProcessorConfig) (key : ConnectionKey) :
    Restricts key (EventProcessor.new config) (EventProcessor.new config) := by
  refine ⟨rfl, rfl, rfl, rfl, rfl, ?_⟩
  intro j requestId request hwaiting
  cases hwaiting

/-- While its tables have room, the processor reports for a connection what it reports
when it sees only the records that concern the connection; and a run in which these
records come in the same order reports the same for the connection. -/
theorem reportsOf_isolated {config : ProcessorConfig} {records : List Record}
    (hroom : RoomyRun lib (EventProcessor.new config)
      ((EventProcessor.new config).trace lib records)) (key : ConnectionKey) :
    (∀ restricted : List Record, restricted.map Prod.snd = concerning key records →
      reportsOf lib key (EventProcessor.new config) records =
        reportsOf lib key (EventProcessor.new config) restricted) ∧
    ∀ reordered : List Record, concerning key reordered = concerning key records →
      RoomyRun lib (EventProcessor.new config)
        ((EventProcessor.new config).trace lib reordered) →
      reportsOf lib key (EventProcessor.new config) reordered =
        reportsOf lib key (EventProcessor.new config) records := by
  have hstart := restricts_new config key
  constructor
  · intro restricted hrestricted
    exact reportsOf_concerning hstart hroom hrestricted
  · intro reordered hsame hroom'
    have hsilent : ((concerning key records).map
        (fun captured => ((fun _ => Host.silent, captured) : Record))).map Prod.snd =
          concerning key records := by
      simp [Function.comp_def]
    rw [reportsOf_concerning hstart hroom hsilent,
      reportsOf_concerning hstart hroom' (hsilent.trans hsame.symm)]

/-- Requests on two connections of a process, then the reply to the first. -/
def pairedRecords : List Record :=
  let find (requestId : ℕ) := encodeOpMsg requestId 0 0
    (encodeBody (encodeString "find" "c" ++ encodeString "$db" "d"))
  let reply := encodeOpMsg 9 1 0 (encodeBody (encodeInt32 "ok" 1))
  [(fun _ => .silent, { raw := .ofChunk 1 7 8 0 (find 1) }),
    (fun _ => .silent, { raw := .ofChunk 1 7 9 0 (find 1) }),
    (fun _ => .silent, { raw := .ofChunk 1 7 8 1 reply })]

instance (p : EventProcessor) : Decidable (Roomy p) := inferInstanceAs (Decidable (_ ∧ _))

private theorem pairedRecords_roomy :
    RoomyRun (.ofDigests sampleDigests) (EventProcessor.new .sample)
      ((EventProcessor.new .sample).trace (.ofDigests sampleDigests) pairedRecords) := by
  have hprefixes : ∀ n ≤ 6, Roomy ((EventProcessor.new .sample).afterCalls
      (.ofDigests sampleDigests)
      (((EventProcessor.new .sample).trace (.ofDigests sampleDigests) pairedRecords).take n)) := by
    decide +kernel
  have hlength : ((EventProcessor.new .sample).trace (.ofDigests sampleDigests)
      pairedRecords).length = 6 := by decide +kernel
  intro before after hsplit
  have hbefore := hprefixes before.length (by
    rw [← hlength, hsplit, List.length_append]
    omega)
  rw [hsplit, List.take_left] at hbefore
  exact hbefore

theorem pairedRecords_isolated :
    RoomyRun (.ofDigests sampleDigests) (EventProcessor.new .sample)
      ((EventProcessor.new .sample).trace (.ofDigests sampleDigests) pairedRecords) ∧
    (reportsOf (.ofDigests sampleDigests) (7, 8) (EventProcessor.new .sample)
        pairedRecords).length = 2 ∧
    reportsOf (.ofDigests sampleDigests) (7, 8) (EventProcessor.new .sample) pairedRecords =
      reportsOf (.ofDigests sampleDigests) (7, 8) (EventProcessor.new .sample)
        [pairedRecords[0], pairedRecords[2]] := by
  refine ⟨pairedRecords_roomy, by decide +kernel, ?_⟩
  exact (reportsOf_isolated pairedRecords_roomy (7, 8)).1 _ (by decide +kernel)

end MongoDam.Observer
