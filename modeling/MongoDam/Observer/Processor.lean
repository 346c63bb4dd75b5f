import MongoDam.Lib.Table
import MongoDam.Observer.Dns
import MongoDam.Observer.Kernel
import MongoDam.Protocol.Stream

/-!
# The event processor

The processor turns kernel records into events. It keeps a stream decoder for each
direction of each connection, the requests that wait for a response, the DNS
queries that wait for an answer, a state for each connection, and a cache of
socket endpoints. Every handler takes the processor and the host's answers and
returns the new processor beside what it emits.
-/

namespace MongoDam.Observer

open Lib Schema Protocol

def MAX_PENDING_REQUESTS : ℕ := 32768

def PENDING_REQUEST_TTL_NS : ℕ := 300000000000

/-- The third-party code the processor calls: SHA-256 and the decompressors. -/
structure External where
  sha256 : Digest32
  codecs : Decompressors

/-! ### State -/

/-- The part of an event that is fixed when its record is seen. -/
structure EventSeed where
  observedAt : ℤ
  monotonicTimestampNs : ℕ
  capture : CaptureMetadata
  kubernetes : Option KubernetesMetadata
  process : Option ProcessMetadata
  deriving DecidableEq

/-- A request that waits for its response. -/
structure PendingRequest where
  command : MongoCommand
  targetPrincipalHash : Option String
  actorPrincipalHash : Option String
  connectionStateKey : ConnectionKey
  requestId : ℤ
  requestBytes : ℕ
  compressed : Bool
  expectsResponse : Bool
  seed : EventSeed
  connection : ConnectionMetadata
  deriving DecidableEq

structure PendingDnsQuery where
  timestampNs : ℕ
  name : Option String
  recordType : Option String
  deriving DecidableEq

structure ConnectionState where
  tcpSrttUs : Option ℕ := none
  retransmits : ℕ := 0
  authenticatedPrincipalHash : Option String := none
  pendingAuthPrincipalHash : Option String := none
  deriving DecidableEq

structure EndpointCacheEntry where
  insertedAt : ℕ
  localEndpoint : NetworkEndpoint
  remoteEndpoint : NetworkEndpoint
  deriving DecidableEq

structure EventProcessor where
  config : ProcessorConfig
  streams : Table StreamKey StreamDecoder
  pending : Table PendingKey PendingRequest
  pendingDns : Table DnsKey PendingDnsQuery
  connections : Table ConnectionKey ConnectionState
  endpointCache : Table (ℕ × ℤ) EndpointCacheEntry
  sequence : ℕ

def EventProcessor.new (config : ProcessorConfig) : EventProcessor where
  config
  streams := .empty
  pending := .empty
  pendingDns := .empty
  connections := .empty
  endpointCache := .empty
  sequence := 0

/-! ### Commands and principals -/

def isSessionAuthCommand (command : String) : Bool :=
  toAsciiLowercase command ∈ ["saslstart", "saslcontinue", "authenticate", "getnonce"]

def isUserManagementCommand (command : String) : Bool :=
  toAsciiLowercase command ∈ ["createuser", "dropuser", "grantrolestouser", "revokerolesfromuser",
    "updateuser", "usersinfo"]

def isAuthCommand (command : String) : Bool :=
  isSessionAuthCommand command || isUserManagementCommand command

def commandCarriesAuthentication (command : MongoCommand) : Bool :=
  command.speculativeAuth || isSessionAuthCommand command.name

def authenticationExchangeCompleted (command : MongoCommand) (authDone : Option Bool) : Bool :=
  if command.speculativeAuth then authDone = some true
  else
    match toAsciiLowercase command.name with
    | "saslstart" => authDone = some true
    | "saslcontinue" => authDone = some true
    | "authenticate" => true
    | _ => false

def deleteScopeName : DeleteScope → String
  | .single => "single"
  | .multi => "multi"
  | .mixed => "mixed"

def hashPrincipal (lib : External) (salt principal : String) : String :=
  "sha256:" ++ encodeHex (lib.sha256.digest (toUtf8 salt ++ 0 :: toUtf8 principal))

/-- The salted hash of a command's principal; the clear principal is dropped. -/
def takeHashedPrincipal (lib : External) (command : MongoCommand) (salt : Option String) :
    MongoCommand × Option String :=
  ({ command with principal := none },
    command.principal.bind
      (fun principal => salt.map (fun salt => hashPrincipal lib salt principal)))

namespace EventProcessor

/-! ### Seeds and events -/

/-- Records whose process context may belong to another process. -/
def foreignKernelContext (raw : KernelEvent) : Bool :=
  (raw.eventType = EVENT_SYSCALL_LATENCY ∧ raw.operation = OP_OFFCPU) ∨
    raw.eventType = EVENT_CONNECTION

def podMetadata (p : EventProcessor) (host : Host) (tgid : ℕ) : Option KubernetesMetadata :=
  (host.podUid tgid).map fun uid =>
    { clusterName := some p.config.clusterName, podUid := some uid }

def seed (p : EventProcessor) (host : Host) (raw : KernelEvent) (truncated : Bool) : EventSeed :=
  let credentials :=
    if foreignKernelContext raw then host.processCredentials raw.tgid else some (raw.uid, raw.gid)
  { observedAt := host.nowUtc
    monotonicTimestampNs := raw.timestampNs
    capture :=
      { sensorId := p.config.sensorId
        nodeName := p.config.nodeName
        source := captureSource raw.source
        confidence :=
          if truncated then .partialCapture
          else if raw.eventType = EVENT_IO_CHUNK then .complete
          else .inferred
        metadataOnly := true
        truncated }
    kubernetes := p.podMetadata host raw.tgid
    process := some
      { pid := raw.pid
        tgid := raw.tgid
        uid := credentials.map Prod.fst
        gid := credentials.map Prod.snd
        cgroupId := if foreignKernelContext raw then none else some raw.cgroupId
        command :=
          if foreignKernelContext raw then (host.processCommand raw.tgid).getD raw.command
          else raw.command
        executable := host.processExecutable raw.tgid } }

/-- Assign the next sequence number and identifier to an event. -/
def eventFromSeed (lib : External) (p : EventProcessor) (seed : EventSeed)
    (payload : EventPayload) : EventProcessor × DamEvent :=
  let sequence := (p.sequence + 1) % 2 ^ 64
  let digest := lib.sha256.digest
    (toUtf8 p.config.sensorId ++ leBytes 8 seed.monotonicTimestampNs ++ leBytes 8 sequence)
  ({ p with sequence },
    { schemaVersion := EVENT_SCHEMA_VERSION
      eventId := "evt-" ++ encodeHex (digest.take 16)
      observedAt := seed.observedAt
      monotonicTimestampNs := seed.monotonicTimestampNs
      customerId := p.config.customerId
      tenantId := p.config.tenantId
      sourceId := p.config.sourceId
      regionalCellId := p.config.regionalCellId
      capture := seed.capture
      kubernetes := seed.kubernetes
      process := seed.process
      identity := none
      payload })

def event (lib : External) (p : EventProcessor) (host : Host) (raw : KernelEvent)
    (truncated : Bool) (payload : EventPayload) : EventProcessor × DamEvent :=
  p.eventFromSeed lib (p.seed host raw truncated) payload

/-! ### Connections -/

/-- `connections.entry(key).or_default()`, then an update of the entry. -/
def updateConnection (p : EventProcessor) (key : ConnectionKey)
    (f : ConnectionState → ConnectionState) : EventProcessor :=
  { p with connections := p.connections.insert key (f (p.connections.getD key {})) }

/-- Endpoints of a socket, from the cache while it is fresh. -/
def socketEndpoints (p : EventProcessor) (host : Host) (tgid : ℕ) (fd : ℤ) :
    EventProcessor × Option (NetworkEndpoint × NetworkEndpoint) :=
  match (p.endpointCache.get? (tgid, fd)).filter
      (fun cached => host.instant - cached.insertedAt < 5000000000) with
  | some cached => (p, some (cached.localEndpoint, cached.remoteEndpoint))
  | none =>
    match host.resolveSocketEndpoints tgid fd with
    | none => (p, none)
    | some (localEndpoint, remoteEndpoint) =>
      ({ p with
          endpointCache := p.endpointCache.insert (tgid, fd)
            { insertedAt := host.instant, localEndpoint, remoteEndpoint } },
        some (localEndpoint, remoteEndpoint))

def connectionMetadata (p : EventProcessor) (host : Host) (raw : KernelEvent) :
    EventProcessor × ConnectionMetadata :=
  let state := p.connections.getD raw.key {}
  let p := p.updateConnection raw.key id
  let (p, endpoints) :=
    if 0 ≤ raw.fd then p.socketEndpoints host raw.tgid raw.fd else (p, none)
  (p,
    { connectionId := p.config.nodeName ++ ":" ++ toString raw.tgid ++ ":" ++
        hexPadded 16 raw.connectionKey
      fd := raw.fd
      localEndpoint := endpoints.map Prod.fst
      remoteEndpoint := endpoints.map Prod.snd
      tcpSrttUs := state.tcpSrttUs
      retransmits := if 0 < state.retransmits then some state.retransmits else none
      tls :=
        match raw.source with
        | 2 => some true
        | 1 => some false
        | _ => none })

/-! ### Pending requests -/

/-- The first of the oldest entries, in the order the map is visited. -/
def oldestPending {ρ : Type} (timestamp : ρ → ℕ) (host : Host) (pending : Table PendingKey ρ) :
    Option PendingKey :=
  ((host.pendingOrder.visit pending.keys).filterMap (fun key =>
      (pending.get? key).map (fun request => (key, timestamp request)))).foldl
    (fun best entry =>
      match best with
      | none => some entry
      | some found => if entry.2 < found.2 then some entry else some found)
    none |>.map Prod.fst

/-- A full table without its expired entries, and without its oldest entry when it
is still full. -/
def prunedPending {ρ : Type} (timestamp : ρ → ℕ) (host : Host) (nowNs : ℕ)
    (pending : Table PendingKey ρ) : Table PendingKey ρ :=
  if pending.size < MAX_PENDING_REQUESTS then pending
  else
    let retained := pending.filter
      (fun _ request => nowNs - PENDING_REQUEST_TTL_NS ≤ timestamp request)
    if retained.size < MAX_PENDING_REQUESTS then retained
    else
      match oldestPending timestamp host retained with
      | none => retained
      | some oldest => retained.erase oldest

def prunePendingRequests (p : EventProcessor) (host : Host) (nowNs : ℕ) : EventProcessor :=
  { p with
    pending := prunedPending (fun request => request.seed.monotonicTimestampNs) host nowNs
      p.pending }

/-! ### Messages -/

/-- The principal of a completed authentication request: its own, or the one the
connection remembers. -/
def sessionAuthPrincipal (p : EventProcessor) (request : PendingRequest) : Option String :=
  request.targetPrincipalHash.or
    (p.connections.getD request.connectionStateKey {}).pendingAuthPrincipalHash

/-- The connection state after an authentication request completed. -/
def settleAuthentication (command : MongoCommand) (principal : Option String)
    (succeeded authDone : Option Bool) (state : ConnectionState) : ConnectionState :=
  if succeeded = some false then { state with pendingAuthPrincipalHash := none }
  else if succeeded = some true ∧ authenticationExchangeCompleted command authDone then
    { state with authenticatedPrincipalHash := principal, pendingAuthPrincipalHash := none }
  else state

/-- The activity of a completed request. -/
def activityOf (p : EventProcessor) (request : PendingRequest)
    (response : Option (DecodedMessage × ℕ)) : MongodbActivity :=
  let status := response.bind (fun r => r.1.status)
  { command := request.command.name
    database := request.command.database
    collection := request.command.collection
    principal := request.actorPrincipalHash
    principalHashed := request.actorPrincipalHash.isSome
    deleteScope := request.command.deleteScope.map deleteScopeName
    deleteStatements := request.command.deleteStatements
    affectedDocuments := status.bind (·.affectedCount)
    query := if p.config.captureQueryContent then request.command.query else none
    requestId := request.requestId
    responseId := response.map (fun r => r.1.requestId)
    requestBytes := request.requestBytes
    responseBytes := response.map (fun r => r.1.wireBytes)
    durationUs := response.map Prod.snd
    succeeded := status.bind (·.ok)
    errorCode := status.bind (·.code)
    errorName := status.bind (·.codeName)
    expectsResponse := request.expectsResponse
    compressed := request.compressed
    connection := request.connection }

/-- The authentication event of a completed request. -/
def authOf (request : PendingRequest) (sessionPrincipal : Option String)
    (succeeded : Option Bool) : MongodbAuth where
  mechanism := request.command.authMechanism.getD
    (if isUserManagementCommand request.command.name then "user_management" else "unknown")
  principal :=
    if commandCarriesAuthentication request.command then sessionPrincipal
    else request.targetPrincipalHash
  principalHashed := true
  succeeded
  connectionId := request.connection.connectionId

/-- The seed of an activity: query content makes it more than metadata. -/
def activitySeed (seed : EventSeed) (activity : MongodbActivity) : EventSeed :=
  if activity.query.isSome then
    { seed with capture := { seed.capture with metadataOnly := false } }
  else seed

/-- The events of a completed request: its activity, and an authentication event when
it is an authentication request. -/
def reportCompleted (lib : External) (p : EventProcessor) (request : PendingRequest)
    (response : Option (DecodedMessage × ℕ)) (sessionPrincipal : Option String) :
    EventProcessor × List DamEvent :=
  let activity := p.activityOf request response
  let (p, first) :=
    p.eventFromSeed lib (activitySeed request.seed activity) (.mongodbActivity activity)
  if isAuthCommand request.command.name || request.command.speculativeAuth then
    let succeeded := (response.bind (fun r => r.1.status)).bind (·.ok)
    let (p, second) :=
      p.eventFromSeed lib request.seed (.mongodbAuth (authOf request sessionPrincipal succeeded))
    (p, [first, second])
  else (p, [first])

def eventsForCompletedRequest (lib : External) (p : EventProcessor) (request : PendingRequest)
    (response : Option (DecodedMessage × ℕ)) : EventProcessor × List DamEvent :=
  let status := response.bind (fun r => r.1.status)
  let succeeded := status.bind (·.ok)
  let authDone := status.bind (·.authDone)
  if commandCarriesAuthentication request.command then
    let sessionPrincipal := p.sessionAuthPrincipal request
    let p := p.updateConnection request.connectionStateKey
      (settleAuthentication request.command sessionPrincipal succeeded authDone)
    p.reportCompleted lib request response sessionPrincipal
  else p.reportCompleted lib request response none

/-- Remember the principal of an authentication request. -/
def rememberPrincipal (command : MongoCommand) (principal : Option String)
    (state : ConnectionState) : ConnectionState :=
  if commandCarriesAuthentication command ∧ principal.isSome then
    { state with pendingAuthPrincipalHash := principal }
  else state

/-- The request record of a message, with the connection state updated for it. -/
def openRequest (lib : External) (p : EventProcessor) (host : Host) (raw : KernelEvent)
    (truncated : Bool) (message : DecodedMessage) (command : MongoCommand) :
    EventProcessor × PendingRequest :=
  let (command, targetPrincipalHash) := takeHashedPrincipal lib command p.config.principalHashSalt
  let p := p.updateConnection raw.key (rememberPrincipal command targetPrincipalHash)
  let actorPrincipalHash := (p.connections.getD raw.key {}).authenticatedPrincipalHash
  let seed := p.seed host raw truncated
  let (p, connection) := p.connectionMetadata host raw
  (p,
    { command
      targetPrincipalHash
      actorPrincipalHash
      connectionStateKey := raw.key
      requestId := message.requestId
      requestBytes := message.wireBytes
      compressed := message.compressed
      expectsResponse := !message.moreToCome
      seed
      connection })

def processMessage (lib : External) (p : EventProcessor) (host : Host) (raw : KernelEvent)
    (truncated : Bool) (message : DecodedMessage) : EventProcessor × List DamEvent :=
  if message.responseTo = 0 then
    match message.command with
    | none => (p, [])
    | some command =>
      let (p, request) := p.openRequest lib host raw truncated message command
      if request.expectsResponse then
        let p := p.prunePendingRequests host raw.timestampNs
        let key : PendingKey := (raw.tgid, raw.connectionKey, request.requestId)
        ({ p with pending := p.pending.insert key request }, [])
      else p.eventsForCompletedRequest lib request none
  else
    let key : PendingKey := (raw.tgid, raw.connectionKey, message.responseTo)
    match p.pending.get? key with
    | none => (p, [])
    | some request =>
      let p := { p with pending := p.pending.erase key }
      p.eventsForCompletedRequest lib request
        (some (message, (raw.timestampNs - request.seed.monotonicTimestampNs) / 1000))

/-- Hand decoded messages to `processMessage`, in order. Each is answered by the
host in its own turn. -/
def processMessages (lib : External) (raw : KernelEvent) (truncated : Bool) :
    EventProcessor → List (Host × DecodedMessage) → EventProcessor × List DamEvent
  | p, [] => (p, [])
  | p, (host, message) :: rest =>
    let (p, events) := p.processMessage lib host raw truncated message
    let (p, more) := processMessages lib raw truncated p rest
    (p, events ++ more)

/-! ### I/O chunks -/

/-- The captured bytes of a record. -/
def capturedLength (raw : KernelEvent) : ℕ := min raw.capturedLen MAX_CAPTURE_BYTES

/-- The sensor copied less than the operation moved. -/
def isTruncated (raw : KernelEvent) : Bool := raw.capturedLen < raw.bytes

def streamKey (raw : KernelEvent) : StreamKey := (raw.tgid, raw.connectionKey, raw.direction)

/-- The decoder of a stream, created on first use. -/
def streamDecoder (p : EventProcessor) (raw : KernelEvent) : StreamDecoder :=
  p.streams.getD (streamKey raw)
    (.new { maxMessageBytes := p.config.maxMessageBytes, maxBufferBytes := MAX_CAPTURE_BYTES * 2 })

/-- The decoding half of `processIoChunk`: the messages completed by a chunk. A
truncated chunk, or an error, drops the decoder of the stream. -/
def decodeChunk (lib : External) (p : EventProcessor) (raw : KernelEvent) :
    EventProcessor × Except String (List DecodedMessage) :=
  let captured := raw.data.take (capturedLength raw)
  if capturedLength raw = 0 then (p, .ok [])
  else if isTruncated raw then
    let decoder := p.streamDecoder raw
    let remaining := MAX_CAPTURE_BYTES - decoder.bufferedBytes
    let result := (decoder.pushTruncated lib.codecs (captured.take remaining)).2
    ({ p with streams := p.streams.erase (streamKey raw) },
      match result with
      | .error e => .error e.toText
      | .ok message => .ok [message])
  else
    match (p.streamDecoder raw).pushBoundedPrefix lib.codecs captured MAX_CAPTURE_BYTES with
    | (_, .error e) =>
      ({ p with streams := p.streams.erase (streamKey raw) }, .error e.toText)
    | (decoder, .ok messages) =>
      ({ p with streams := p.streams.insert (streamKey raw) decoder }, .ok messages)

/-- `hosts i` answers the `i`-th message of the chunk. -/
def processIoChunk (lib : External) (p : EventProcessor) (hosts : ℕ → Host)
    (captured : CapturedKernelEvent) : EventProcessor × Except String (List DamEvent) :=
  match p.decodeChunk lib captured.raw with
  | (p, .error e) => (p, .error e)
  | (p, .ok messages) =>
    let (p, events) := processMessages lib captured.raw (isTruncated captured.raw) p
      (messages.zipIdx.map (fun entry => (hosts entry.2, entry.1)))
    (p, .ok events)

/-! ### Other records -/

/-- Remember a DNS query, making room first when too many wait. -/
def rememberDns (p : EventProcessor) (raw : KernelEvent) (message : DecodedDnsMessage) :
    EventProcessor :=
  let pendingDns :=
    if p.pendingDns.size < 4096 then p.pendingDns
    else
      let retained := p.pendingDns.filter
        (fun _ query => raw.timestampNs - 30000000000 ≤ query.timestampNs)
      if retained.size < 4096 then retained else .empty
  { p with
    pendingDns := pendingDns.insert (raw.tgid, raw.connectionKey, message.queryId)
      { timestampNs := raw.timestampNs, name := message.name, recordType := message.recordType } }

def processDns (lib : External) (p : EventProcessor) (host : Host)
    (captured : CapturedKernelEvent) : EventProcessor × Except String (List DamEvent) :=
  let raw := captured.raw
  match decodeDnsMessage (raw.data.take (capturedLength raw)) with
  | .error e => (p, .error e)
  | .ok message =>
    let key : DnsKey := (raw.tgid, raw.connectionKey, message.queryId)
    let waiting := if message.response then p.pendingDns.get? key else none
    let p :=
      if message.response then { p with pendingDns := p.pendingDns.erase key }
      else p.rememberDns raw message
    let (p, connection) := p.connectionMetadata host raw
    let (p, event) := p.event lib host raw (isTruncated raw) (.dnsActivity
      { operation := if message.response then "response" else "query"
        transport := "udp"
        queryId := message.queryId
        name := message.name.or (waiting.bind (·.name))
        recordType := message.recordType.or (waiting.bind (·.recordType))
        responseCode := if message.response then some message.responseCode else none
        answerCount := if message.response then some message.answerCount else none
        durationUs := waiting.map (fun query => (raw.timestampNs - query.timestampNs) / 1000)
        connection })
    (p, .ok [event])

def processLatency (lib : External) (p : EventProcessor) (host : Host)
    (captured : CapturedKernelEvent) : EventProcessor × List DamEvent :=
  let raw := captured.raw
  if raw.operation = OP_OFFCPU then
    let (p, event) := p.event lib host raw false (.profile
      { profileType := "off_cpu", periodHz := 0, count := 1, userStackId := -1
        kernelStackId := -1, durationUs := some (raw.durationNs / 1000)
        userStackAddresses := [], kernelStackAddresses := [] })
    (p, [event])
  else
    let operation :=
      if raw.operation = OP_PREAD then some "pread"
      else if raw.operation = OP_PWRITE then some "pwrite"
      else if raw.operation = OP_FSYNC then some "fsync"
      else if raw.operation = OP_FDATASYNC then some "fdatasync"
      else if raw.operation = OP_OPENAT then some "openat"
      else if raw.operation = OP_PAGE_FAULT then some "page_fault"
      else none
    match operation with
    | none => (p, [])
    | some operation =>
      let (p, event) := p.event lib host raw false (.hostIo
        { operation
          durationUs := raw.durationNs / 1000
          bytes := if 0 < raw.bytes then some raw.bytes else none
          fd := if 0 ≤ raw.fd then some raw.fd else none
          result := raw.result })
      (p, [event])

/-- State name, duration and reason of a connection record; `none` for other operations. -/
def connectionReport (raw : KernelEvent) : Option (String × Option ℕ × Option String) :=
  let positive := if 0 < raw.durationNs then some (raw.durationNs / 1000) else none
  if raw.operation = OP_TCP_CONNECT then some ("connect_started", none, none)
  else if raw.operation = OP_TCP_ACCEPT then some ("accepted", none, none)
  else if raw.operation = OP_TCP_CLOSE then some ("closed", none, none)
  else if raw.operation = OP_TCP_RTT then some ("rtt_sample", some (raw.durationNs / 1000), none)
  else if raw.operation = OP_TCP_RETRANSMIT then some ("retransmit", none, none)
  else if raw.operation = OP_TCP_HANDSHAKE then some ("handshake_established", positive, none)
  else if raw.operation = OP_TCP_RESET_RECEIVED then some ("reset", none, some "peer_reset")
  else if raw.operation = OP_TCP_RESET_SENT then some ("reset", none, some "active_reset")
  else if raw.operation = OP_TCP_ZERO_WINDOW then
    some ("zero_window", none, some "peer_advertised_zero_window")
  else if raw.operation = OP_TCP_TIMEOUT then
    some ("timeout", positive, some "connect_or_retransmission_timeout")
  else none

/-- The measurements a connection record adds to the connection state. -/
def measureConnection (raw : KernelEvent) (state : ConnectionState) : ConnectionState :=
  if raw.operation = OP_TCP_RTT then
    { state with tcpSrttUs := some (min (raw.durationNs / 1000) (2 ^ 32 - 1)) }
  else if raw.operation = OP_TCP_RETRANSMIT then
    { state with retransmits := min (state.retransmits + 1) (2 ^ 32 - 1) }
  else state

/-- Forget everything about a connection. -/
def forgetConnection (p : EventProcessor) (key : ConnectionKey) : EventProcessor :=
  { p with
    connections := p.connections.erase key
    streams := p.streams.filter (fun k _ => decide ((k.1, k.2.1) ≠ key))
    pending := p.pending.filter (fun k _ => decide ((k.1, k.2.1) ≠ key))
    pendingDns := p.pendingDns.filter (fun k _ => decide ((k.1, k.2.1) ≠ key)) }

def processConnection (lib : External) (p : EventProcessor) (host : Host)
    (captured : CapturedKernelEvent) : EventProcessor × List DamEvent :=
  let raw := captured.raw
  let p := p.updateConnection raw.key (measureConnection raw)
  match connectionReport raw with
  | none => (p, [])
  | some (state, durationUs, reason) =>
    let (p, connection) := p.connectionMetadata host raw
    let p := if raw.operation = OP_TCP_CLOSE then p.forgetConnection raw.key else p
    let (p, event) := p.event lib host raw false
      (.mongodbConnection { state, connection, durationUs, reason })
    (p, [event])

def processProfile (lib : External) (p : EventProcessor) (host : Host)
    (captured : CapturedKernelEvent) : EventProcessor × List DamEvent :=
  let raw := captured.raw
  let sample (profileType : String) (periodHz : ℕ) (durationUs : Option ℕ)
      (userStackId kernelStackId : ℤ) : ProfileSample :=
    { profileType, periodHz, count := 1, userStackId, kernelStackId, durationUs
      userStackAddresses := captured.userStackAddresses
      kernelStackAddresses := captured.kernelStackAddresses }
  if raw.operation = OP_CPU_SAMPLE then
    let userStackId := if -2 ^ 31 ≤ raw.result ∧ raw.result < 2 ^ 31 then raw.result else -1
    let (p, event) := p.event lib host raw false
      (.profile (sample "on_cpu" p.config.cpuProfileHz none userStackId raw.fd))
    (p, [event])
  else if raw.operation = OP_LOCK_WAIT then
    let (p, event) := p.event lib host raw false
      (.profile (sample "pthread_mutex_wait" 0 (some (raw.durationNs / 1000)) (-1) (-1)))
    (p, [event])
  else (p, [])

/-- Forget everything about a process. -/
def forgetProcess (p : EventProcessor) (tgid : ℕ) : EventProcessor :=
  { p with
    streams := p.streams.filter (fun k _ => decide (k.1 ≠ tgid))
    pending := p.pending.filter (fun k _ => decide (k.1 ≠ tgid))
    pendingDns := p.pendingDns.filter (fun k _ => decide (k.1 ≠ tgid))
    connections := p.connections.filter (fun k _ => decide (k.1 ≠ tgid))
    endpointCache := p.endpointCache.filter (fun k _ => decide (k.1 ≠ tgid)) }

def processLifecycle (lib : External) (p : EventProcessor) (host : Host)
    (captured : CapturedKernelEvent) : EventProcessor × List DamEvent :=
  let raw := captured.raw
  if raw.operation = OP_PROCESS_EXEC ∨ raw.operation = OP_PROCESS_EXIT then
    let p := if raw.operation = OP_PROCESS_EXIT then p.forgetProcess raw.tgid else p
    let (p, event) := p.event lib host raw false (.processLifecycle
      { state := if raw.operation = OP_PROCESS_EXEC then "exec" else "exit"
        executable := host.processExecutable raw.tgid })
    (p, [event])
  else (p, [])

/-! ### Records -/

/-- Return what a handler emits as a success. -/
def succeed (result : EventProcessor × List DamEvent) :
    EventProcessor × Except String (List DamEvent) :=
  (result.1, .ok result.2)

/-- Handle a record that is not an I/O chunk. -/
def processRecord (lib : External) (p : EventProcessor) (host : Host)
    (captured : CapturedKernelEvent) : EventProcessor × Except String (List DamEvent) :=
  let eventType := captured.raw.eventType
  if eventType = EVENT_SYSCALL_LATENCY then succeed (p.processLatency lib host captured)
  else if eventType = EVENT_CONNECTION then succeed (p.processConnection lib host captured)
  else if eventType = EVENT_PROFILE then succeed (p.processProfile lib host captured)
  else if eventType = EVENT_PROCESS then succeed (p.processLifecycle lib host captured)
  else if eventType = EVENT_DNS_CHUNK then p.processDns lib host captured
  else (p, .error ("unsupported kernel event type " ++ toString eventType))

/-- Handle one record. The host answers the messages of an I/O chunk in turn, and
any other record with its first answer. -/
def process (lib : External) (p : EventProcessor) (hosts : ℕ → Host)
    (captured : CapturedKernelEvent) : EventProcessor × Except String (List DamEvent) :=
  if captured.raw.eventType = EVENT_IO_CHUNK then p.processIoChunk lib hosts captured
  else p.processRecord lib (hosts 0) captured

end EventProcessor

end MongoDam.Observer
