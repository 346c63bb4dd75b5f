import MongoDam.Observer.CheckedDns
import MongoDam.Observer.CheckedProc
import MongoDam.Observer.Runs
import MongoDam.Protocol.CheckedStream

/-!
# I/O chunks, with panics

The handler of I/O chunks with the index, slice and overflow checks of everything it
calls: the stream decoder, the readers of `/proc` and the handling of each message. In
any state of the processor it returns what it returns without the checks.
-/

namespace MongoDam.Observer

open Lib Schema Protocol Outcome

namespace Checked

variable {ε : Type} (lib : External)

/-! ### Seeds and events -/

/-- `KernelEvent::command`. -/
def command (raw : KernelEvent) : Outcome ε String := do
  let stop := (raw.comm.findIdx? (· == 0)).getD raw.comm.length
  return fromUtf8Lossy (← slice raw.comm 0 stop)

def podMetadata (p : EventProcessor) (proc : ProcFs) (tgid : ℕ) :
    Outcome ε (Option KubernetesMetadata) := do
  return (← podUid proc tgid).map fun uid =>
    { clusterName := some p.config.clusterName, podUid := some uid }

/-- The command name in a seed. -/
def seedCommand (host : Host) (raw : KernelEvent) : Outcome ε String :=
  if EventProcessor.foreignKernelContext raw then
    match host.processCommand raw.tgid with
    | some name => return name
    | none => command raw
  else command raw

def seed (p : EventProcessor) (host : Host) (proc : ProcFs) (raw : KernelEvent)
    (truncated : Bool) : Outcome ε EventSeed := do
  let foreign := EventProcessor.foreignKernelContext raw
  let credentials :=
    if foreign then host.processCredentials raw.tgid else some (raw.uid, raw.gid)
  let command ← seedCommand host raw
  let kubernetes ← podMetadata p proc raw.tgid
  return {
    observedAt := host.nowUtc
    monotonicTimestampNs := raw.timestampNs
    capture :=
      { sensorId := p.config.sensorId
        nodeName := p.config.nodeName
        source := captureSource raw.source
        confidence :=
          if truncated then .partialCapture
          else if raw.eventType = EVENT_IO_CHUNK then .complete
          else .inferred
        metadataOnly := true
        truncated }
    kubernetes
    process := some
      { pid := raw.pid
        tgid := raw.tgid
        uid := credentials.map Prod.fst
        gid := credentials.map Prod.snd
        cgroupId := if foreign then none else some raw.cgroupId
        command
        executable := host.processExecutable raw.tgid } }

def eventFromSeed (p : EventProcessor) (seed : EventSeed) (payload : EventPayload) :
    Outcome ε (EventProcessor × DamEvent) := do
  let sequence := (p.sequence + 1) % 2 ^ 64
  let digest := lib.sha256.digest
    (toUtf8 p.config.sensorId ++ leBytes 8 seed.monotonicTimestampNs ++ leBytes 8 sequence)
  let eventId ← slice digest 0 16
  return ({ p with sequence },
    { schemaVersion := EVENT_SCHEMA_VERSION
      eventId := "evt-" ++ encodeHex eventId
      observedAt := seed.observedAt
      monotonicTimestampNs := seed.monotonicTimestampNs
      customerId := p.config.customerId
      tenantId := p.config.tenantId
      sourceId := p.config.sourceId
      regionalCellId := p.config.regionalCellId
      capture := seed.capture
      kubernetes := seed.kubernetes
      process := seed.process
      identity := none
      payload })

/-! ### Messages -/

def socketEndpoints (p : EventProcessor) (host : Host) (proc : ProcFs) (tgid : ℕ) (fd : ℤ) :
    Outcome ε (EventProcessor × Option (NetworkEndpoint × NetworkEndpoint)) := do
  match (p.endpointCache.get? (tgid, fd)).filter
      (fun cached => host.instant - cached.insertedAt < 5000000000) with
  | some cached => return (p, some (cached.localEndpoint, cached.remoteEndpoint))
  | none =>
    match ← resolveSocketEndpoints proc tgid fd with
    | none => return (p, none)
    | some (localEndpoint, remoteEndpoint) =>
      return ({ p with
          endpointCache := p.endpointCache.insert (tgid, fd)
            { insertedAt := host.instant, localEndpoint, remoteEndpoint } },
        some (localEndpoint, remoteEndpoint))

/-- The endpoints in the metadata of a connection. -/
def rawEndpoints (p : EventProcessor) (host : Host) (proc : ProcFs) (raw : KernelEvent) :
    Outcome ε (EventProcessor × Option (NetworkEndpoint × NetworkEndpoint)) :=
  if 0 ≤ raw.fd then socketEndpoints p host proc raw.tgid raw.fd else return (p, none)

def connectionMetadata (p : EventProcessor) (host : Host) (proc : ProcFs) (raw : KernelEvent) :
    Outcome ε (EventProcessor × ConnectionMetadata) := do
  let state := p.connections.getD raw.key {}
  let p := p.updateConnection raw.key id
  let (p, endpoints) ← rawEndpoints p host proc raw
  return (p,
    { connectionId := p.config.nodeName ++ ":" ++ toString raw.tgid ++ ":" ++
        hexPadded 16 raw.connectionKey
      fd := raw.fd
      localEndpoint := endpoints.map Prod.fst
      remoteEndpoint := endpoints.map Prod.snd
      tcpSrttUs := state.tcpSrttUs
      retransmits := if 0 < state.retransmits then some state.retransmits else none
      tls :=
        match raw.source with
        | 2 => some true
        | 1 => some false
        | _ => none })

def reportCompleted (p : EventProcessor) (request : PendingRequest)
    (response : Option (DecodedMessage × ℕ)) (sessionPrincipal : Option String) :
    Outcome ε (EventProcessor × List DamEvent) := do
  let activity := p.activityOf request response
  let (p, first) ← eventFromSeed lib p (EventProcessor.activitySeed request.seed activity)
    (.mongodbActivity activity)
  if isAuthCommand request.command.name || request.command.speculativeAuth then
    let succeeded := (response.bind (fun r => r.1.status)).bind (·.ok)
    let (p, second) ← eventFromSeed lib p request.seed
      (.mongodbAuth (EventProcessor.authOf request sessionPrincipal succeeded))
    return (p, [first, second])
  else return (p, [first])

def eventsForCompletedRequest (p : EventProcessor) (request : PendingRequest)
    (response : Option (DecodedMessage × ℕ)) : Outcome ε (EventProcessor × List DamEvent) :=
  let status := response.bind (fun r => r.1.status)
  let succeeded := status.bind (·.ok)
  let authDone := status.bind (·.authDone)
  if commandCarriesAuthentication request.command then
    let sessionPrincipal := p.sessionAuthPrincipal request
    let p := p.updateConnection request.connectionStateKey
      (EventProcessor.settleAuthentication request.command sessionPrincipal succeeded authDone)
    reportCompleted lib p request response sessionPrincipal
  else reportCompleted lib p request response none

def openRequest (p : EventProcessor) (host : Host) (proc : ProcFs) (raw : KernelEvent)
    (truncated : Bool) (message : DecodedMessage) (command : MongoCommand) :
    Outcome ε (EventProcessor × PendingRequest) := do
  let (command, targetPrincipalHash) := takeHashedPrincipal lib command p.config.principalHashSalt
  let p := p.updateConnection raw.key
    (EventProcessor.rememberPrincipal command targetPrincipalHash)
  let actorPrincipalHash := (p.connections.getD raw.key {}).authenticatedPrincipalHash
  let seed ← seed p host proc raw truncated
  let (p, connection) ← connectionMetadata p host proc raw
  return (p,
    { command
      targetPrincipalHash
      actorPrincipalHash
      connectionStateKey := raw.key
      requestId := message.requestId
      requestBytes := message.wireBytes
      compressed := message.compressed
      expectsResponse := !message.moreToCome
      seed
      connection })

def processMessage (p : EventProcessor) (host : Host) (proc : ProcFs) (raw : KernelEvent)
    (truncated : Bool) (message : DecodedMessage) :
    Outcome ε (EventProcessor × List DamEvent) := do
  if message.responseTo = 0 then
    match message.command with
    | none => return (p, [])
    | some command =>
      let (p, request) ← openRequest lib p host proc raw truncated message command
      if request.expectsResponse then
        let p := p.prunePendingRequests host raw.timestampNs
        let key : PendingKey := (raw.tgid, raw.connectionKey, request.requestId)
        return ({ p with pending := p.pending.insert key request }, [])
      else eventsForCompletedRequest lib p request none
  else
    let key : PendingKey := (raw.tgid, raw.connectionKey, message.responseTo)
    match p.pending.get? key with
    | none => return (p, [])
    | some request =>
      let p := { p with pending := p.pending.erase key }
      eventsForCompletedRequest lib p request
        (some (message, (raw.timestampNs - request.seed.monotonicTimestampNs) / 1000))

def processMessages (raw : KernelEvent) (truncated : Bool) :
    EventProcessor → List ((Host × ProcFs) × DecodedMessage) →
      Outcome ε (EventProcessor × List DamEvent)
  | p, [] => return (p, [])
  | p, ((host, proc), message) :: rest => do
    let (p, events) ← processMessage lib p host proc raw truncated message
    let (p, more) ← processMessages raw truncated p rest
    return (p, events ++ more)

/-! ### I/O chunks -/

def decodeChunk (fuel : ℕ) (p : EventProcessor) (raw : KernelEvent) :
    Outcome ε (EventProcessor × Except String (List DecodedMessage)) := do
  if EventProcessor.capturedLength raw = 0 then return (p, .ok [])
  else if EventProcessor.isTruncated raw then
    let decoder := p.streamDecoder raw
    let remaining := MAX_CAPTURE_BYTES - decoder.bufferedBytes
    let captured ← slice raw.data 0 (min (EventProcessor.capturedLength raw) remaining)
    let (_, result) ← Protocol.Checked.pushTruncated lib.codecs fuel decoder captured
    return ({ p with streams := p.streams.erase (EventProcessor.streamKey raw) },
      match result with
      | .error e => .error e.toText
      | .ok message => .ok [message])
  else
    let captured ← slice raw.data 0 (EventProcessor.capturedLength raw)
    match ← Protocol.Checked.pushBoundedPrefix lib.codecs fuel (p.streamDecoder raw) captured
      MAX_CAPTURE_BYTES with
    | (_, .error e) =>
      return ({ p with streams := p.streams.erase (EventProcessor.streamKey raw) },
        .error e.toText)
    | (decoder, .ok messages) =>
      return ({ p with streams := p.streams.insert (EventProcessor.streamKey raw) decoder },
        .ok messages)

def processIoChunk (fuel : ℕ) (p : EventProcessor) (hosts : ℕ → Host) (procs : ℕ → ProcFs)
    (captured : CapturedKernelEvent) :
    Outcome ε (EventProcessor × Except String (List DamEvent)) := do
  match ← decodeChunk lib fuel p captured.raw with
  | (p, .error e) => return (p, .error e)
  | (p, .ok messages) =>
    let (p, events) ← processMessages lib captured.raw
      (EventProcessor.isTruncated captured.raw) p
      (messages.zipIdx.map (fun entry => ((hosts entry.2, procs entry.2), entry.1)))
    return (p, .ok events)

/-- The DNS message of a record. -/
def recordDnsMessage (fuel : ℕ) (raw : KernelEvent) : Outcome String DecodedDnsMessage := do
  decodeDnsMessage fuel (← slice raw.data 0 (EventProcessor.capturedLength raw))

end Checked

/-! ### Seeds and events -/

section Chunk

variable {ε : Type} {lib : External} {p : EventProcessor} {host : Host} {proc : ProcFs}
  {raw : KernelEvent} {truncated : Bool}

theorem command_returned :
    (Checked.command raw : Outcome ε String) = returned (.ok raw.command) := by
  have hstop : (raw.comm.findIdx? (· == 0)).getD raw.comm.length = raw.comm.findIdx (· == 0) := by
    rw [List.findIdx_eq_getD_findIdx?]
  have htake : raw.comm.take (raw.comm.findIdx (· == 0)) = raw.comm.takeWhile (· ≠ 0) := by
    rw [List.takeWhile_eq_take_findIdx_not]
    congr 2
    funext byte
    by_cases hnul : byte = 0 <;> simp [hnul]
  unfold Checked.command KernelEvent.command
  dsimp only
  rw [hstop, slice_zero_eq List.findIdx_le_length, htake]
  rfl

theorem podMetadata_returned (hproc : proc.FitsMemory) (tgid : ℕ) :
    (Checked.podMetadata p proc tgid : Outcome ε _) =
      returned (.ok (p.podMetadata (host.readingFiles proc) tgid)) :=
  bind_ok (podUid_returned hproc) rfl

theorem seedCommand_returned :
    (Checked.seedCommand host raw : Outcome ε String) =
      returned (.ok (if EventProcessor.foreignKernelContext raw then
        (host.processCommand raw.tgid).getD raw.command else raw.command)) := by
  unfold Checked.seedCommand
  rw [command_returned]
  split
  · cases host.processCommand raw.tgid <;> rfl
  · rfl

theorem seed_returned (hproc : proc.FitsMemory) :
    (Checked.seed p host proc raw truncated : Outcome ε EventSeed) =
      returned (.ok (p.seed (host.readingFiles proc) raw truncated)) :=
  bind_ok seedCommand_returned (bind_ok (podMetadata_returned hproc raw.tgid) rfl)

theorem eventFromSeed_returned (seed : EventSeed) (payload : EventPayload) :
    (Checked.eventFromSeed lib p seed payload : Outcome ε _) =
      returned (.ok (p.eventFromSeed lib seed payload)) := by
  refine bind_ok (slice_zero_eq ?_) rfl
  rw [lib.sha256.digest_length]
  decide

/-! ### Messages -/

theorem socketEndpoints_returned (tgid : ℕ) (fd : ℤ) :
    (Checked.socketEndpoints p host proc tgid fd : Outcome ε _) =
      returned (.ok (p.socketEndpoints (host.readingFiles proc) tgid fd)) := by
  have hresolve : (host.readingFiles proc).resolveSocketEndpoints tgid fd =
    resolveSocketEndpoints proc tgid fd := rfl
  have hinstant : (host.readingFiles proc).instant = host.instant := rfl
  unfold Checked.socketEndpoints EventProcessor.socketEndpoints
  rw [hresolve, hinstant]
  cases (p.endpointCache.get? (tgid, fd)).filter
      (fun cached => host.instant - cached.insertedAt < 5000000000) with
  | some cached => rfl
  | none =>
    refine bind_ok (resolveSocketEndpoints_returned proc tgid fd) ?_
    cases resolveSocketEndpoints proc tgid fd <;> rfl

theorem connectionMetadata_returned :
    (Checked.connectionMetadata p host proc raw : Outcome ε _) =
      returned (.ok (p.connectionMetadata (host.readingFiles proc) raw)) := by
  have hendpoints (p : EventProcessor) : (Checked.rawEndpoints p host proc raw : Outcome ε _) =
      returned (.ok (if 0 ≤ raw.fd then
        p.socketEndpoints (host.readingFiles proc) raw.tgid raw.fd else (p, none))) := by
    unfold Checked.rawEndpoints
    rw [socketEndpoints_returned]
    split <;> rfl
  exact bind_ok (hendpoints _) rfl

theorem reportCompleted_returned (request : PendingRequest)
    (response : Option (DecodedMessage × ℕ)) (sessionPrincipal : Option String) :
    (Checked.reportCompleted lib p request response sessionPrincipal : Outcome ε _) =
      returned (.ok (p.reportCompleted lib request response sessionPrincipal)) := by
  refine bind_ok (eventFromSeed_returned _ _) ?_
  unfold EventProcessor.reportCompleted
  dsimp only
  split
  · exact bind_ok (eventFromSeed_returned _ _) rfl
  · rfl

theorem eventsForCompletedRequest_returned (request : PendingRequest)
    (response : Option (DecodedMessage × ℕ)) :
    (Checked.eventsForCompletedRequest lib p request response : Outcome ε _) =
      returned (.ok (p.eventsForCompletedRequest lib request response)) := by
  unfold Checked.eventsForCompletedRequest EventProcessor.eventsForCompletedRequest
  dsimp only
  split
  · exact reportCompleted_returned ..
  · exact reportCompleted_returned ..

theorem openRequest_returned (hproc : proc.FitsMemory) (message : DecodedMessage)
    (command : MongoCommand) :
    (Checked.openRequest lib p host proc raw truncated message command : Outcome ε _) =
      returned (.ok (p.openRequest lib (host.readingFiles proc) raw truncated message command)) :=
  bind_ok (seed_returned hproc) (bind_ok connectionMetadata_returned rfl)

theorem processMessage_returned (hproc : proc.FitsMemory) (message : DecodedMessage) :
    (Checked.processMessage lib p host proc raw truncated message : Outcome ε _) =
      returned (.ok (p.processMessage lib (host.readingFiles proc) raw truncated message)) := by
  unfold Checked.processMessage EventProcessor.processMessage
  split
  · cases message.command with
    | none => rfl
    | some command =>
      refine bind_ok (openRequest_returned hproc message command) ?_
      dsimp only
      split
      · rfl
      · exact eventsForCompletedRequest_returned ..
  · dsimp only
    cases p.pending.get? (raw.tgid, raw.connectionKey, message.responseTo) with
    | none => rfl
    | some request => exact eventsForCompletedRequest_returned ..

theorem processMessages_returned (entries : List ((Host × ProcFs) × DecodedMessage))
    (hprocs : ∀ entry ∈ entries, entry.1.2.FitsMemory) (p : EventProcessor) :
    (Checked.processMessages lib raw truncated p entries : Outcome ε _) =
      returned (.ok (EventProcessor.processMessages lib raw truncated p
        (entries.map fun entry => (entry.1.1.readingFiles entry.1.2, entry.2)))) := by
  induction entries generalizing p with
  | nil => rfl
  | cons entry rest ih =>
    obtain ⟨hproc, hrest⟩ := List.forall_mem_cons.mp hprocs
    exact bind_ok (processMessage_returned hproc entry.2) (bind_ok (ih hrest _) rfl)

/-! ### I/O chunks -/

theorem decodeChunk_returned {fuel : ℕ} (hfuel : 2 ^ 64 ≤ fuel)
    (hbuffer : (p.streamDecoder raw).buffer.length < 2 ^ 63) :
    (Checked.decodeChunk lib fuel p raw : Outcome ε _) =
      returned (.ok (p.decodeChunk lib raw)) := by
  have hcaptured : EventProcessor.capturedLength raw ≤ raw.data.length := by
    rw [raw.data_length]
    exact Nat.min_le_right ..
  have hdata : raw.data.length < 2 ^ 31 := by
    rw [raw.data_length]
    decide
  unfold Checked.decodeChunk EventProcessor.decodeChunk
  dsimp only
  split
  · rfl
  split
  · rw [slice_zero_eq (by omega), returned_ok_bind,
      pushTruncated_returned (by omega) hbuffer (by rw [List.length_take]; omega), List.take_take,
      Nat.min_comm]
    rfl
  · rw [slice_zero_eq hcaptured, returned_ok_bind,
      pushBoundedPrefix_returned (by omega) (by rw [List.length_take]; omega) hbuffer
        (by rw [List.length_take]; omega), returned_ok_bind]
    cases (p.streamDecoder raw).pushBoundedPrefix lib.codecs
        (raw.data.take (EventProcessor.capturedLength raw)) MAX_CAPTURE_BYTES with
    | mk decoder result => cases result <;> rfl

theorem processIoChunk_returned {fuel : ℕ} (hfuel : 2 ^ 64 ≤ fuel) {hosts : ℕ → Host}
    {procs : ℕ → ProcFs} {captured : CapturedKernelEvent} (hprocs : ∀ i, (procs i).FitsMemory)
    (hbuffer : (p.streamDecoder captured.raw).buffer.length < 2 ^ 63) :
    (Checked.processIoChunk lib fuel p hosts procs captured : Outcome ε _) =
      returned (.ok (p.processIoChunk lib (fun i => (hosts i).readingFiles (procs i))
        captured)) := by
  refine bind_ok (decodeChunk_returned hfuel hbuffer) ?_
  unfold EventProcessor.processIoChunk
  cases p.decodeChunk lib captured.raw with
  | mk p result =>
    cases result with
    | error e => rfl
    | ok messages =>
      refine bind_ok (processMessages_returned _ ?_ p) ?_
      · intro entry hentry
        obtain ⟨indexed, -, rfl⟩ := List.mem_map.mp hentry
        exact hprocs indexed.2
      · dsimp only
        rw [List.map_map]
        rfl

theorem recordDnsMessage_returned {fuel : ℕ} (hfuel : 144 ≤ fuel) :
    Checked.recordDnsMessage fuel raw =
      returned (decodeDnsMessage (raw.data.take (EventProcessor.capturedLength raw))) := by
  have hcaptured : EventProcessor.capturedLength raw ≤ raw.data.length := by
    rw [raw.data_length]
    exact Nat.min_le_right ..
  refine bind_ok (slice_zero_eq hcaptured) (decodeDnsMessage_returned ?_ hfuel)
  rw [List.length_take, raw.data_length]
  have hlimit : MAX_CAPTURE_BYTES < 2 ^ 31 := by decide
  omega

end Chunk

/-- The decoder never panics and always ends: whatever bytes it is given and whatever it has
buffered, it returns what it returns without the checks, in fewer than `2 ^ 64` rounds a loop. -/
theorem decoder_never_panics {ε : Type} (lib : External) {fuel : ℕ} (hfuel : 2 ^ 64 ≤ fuel) :
    (∀ frame maxMessageBytes, Protocol.Checked.decodeFrame lib.codecs fuel frame maxMessageBytes =
      returned (decodeFrame lib.codecs frame maxMessageBytes)) ∧
    (∀ captured maxMessageBytes,
      Protocol.Checked.decodeFramePrefix lib.codecs fuel captured maxMessageBytes =
        returned (decodeFramePrefix lib.codecs captured maxMessageBytes)) ∧
    (∀ (decoder : StreamDecoder) (bytes : Bytes), decoder.buffer.length < 2 ^ 63 →
      bytes.length < 2 ^ 31 →
        (Protocol.Checked.push lib.codecs fuel decoder bytes : Outcome ε _) =
          returned (.ok (decoder.push lib.codecs bytes)) ∧
        (∀ prefixLimit, (Protocol.Checked.pushBoundedPrefix lib.codecs fuel decoder bytes
            prefixLimit : Outcome ε _) =
          returned (.ok (decoder.pushBoundedPrefix lib.codecs bytes prefixLimit))) ∧
        (Protocol.Checked.pushTruncated lib.codecs fuel decoder bytes : Outcome ε _) =
          returned (.ok (decoder.pushTruncated lib.codecs bytes))) ∧
    (∀ (p : EventProcessor) (hosts : ℕ → Host) (procs : ℕ → ProcFs)
      (captured : CapturedKernelEvent), (∀ i, (procs i).FitsMemory) →
        (p.streamDecoder captured.raw).buffer.length < 2 ^ 63 →
          (Checked.processIoChunk lib fuel p hosts procs captured : Outcome ε _) =
            returned (.ok (p.processIoChunk lib (fun i => (hosts i).readingFiles (procs i))
              captured))) ∧
    (∀ bytes : Bytes, bytes.length < 2 ^ 31 →
      Checked.decodeDnsMessage fuel bytes = returned (decodeDnsMessage bytes)) ∧
    ∀ raw : KernelEvent, Checked.recordDnsMessage fuel raw =
      returned (decodeDnsMessage (raw.data.take (EventProcessor.capturedLength raw))) := by
  refine ⟨fun frame => ?_, fun captured => ?_, fun decoder bytes hbuffer hbytes => ⟨?_, ?_, ?_⟩,
    fun p hosts procs captured hprocs hbuffer => ?_, fun bytes hbytes => ?_, fun raw => ?_⟩
  · exact decodeFrame_returned (by omega) frame
  · exact decodeFramePrefix_returned (by omega) captured
  · exact push_returned (by omega) (by omega) hbuffer hbytes
  · exact pushBoundedPrefix_returned (by omega) (by omega) hbuffer hbytes
  · exact pushTruncated_returned (by omega) hbuffer hbytes
  · exact processIoChunk_returned hfuel hprocs hbuffer
  · exact decodeDnsMessage_returned hbytes (by omega)
  · exact recordDnsMessage_returned (by omega)

/-- A host whose process 7 runs in a pod. -/
def ProcFs.samplePod : ProcFs where
  readLink _ := none
  readFile path :=
    if path = ["7", "cgroup"] then
      some (toUtf8 "0::/kubepods/pod01234567-89ab-cdef-0123-456789abcdef")
    else none

theorem ProcFs.samplePod_fitsMemory : ProcFs.samplePod.FitsMemory := by
  intro path text htext
  obtain ⟨content, hcontent, rfl⟩ := Option.map_eq_some_iff.mp htext
  obtain ⟨bytes, hbytes, hdecoded⟩ := Option.bind_eq_some_iff.mp hcontent
  dsimp only [ProcFs.samplePod] at hbytes
  split at hbytes
  · cases hbytes
    have hsame : some content = some "0::/kubepods/pod01234567-89ab-cdef-0123-456789abcdef" :=
      hdecoded.symm.trans (by decide +kernel)
    rw [Option.some.inj hsame]
    decide +kernel
  · cases hbytes

/-- A frame that declares more bytes than follow, on a stream that has buffered nothing, and a
name that is a pointer to itself. -/
theorem decoder_never_panics_on_long_frame :
    let lib := External.ofDigests []
    let p := EventProcessor.new .sample
    let raw := KernelEvent.ofChunk 1 7 9 0 (leBytes 4 100 ++ List.replicate 12 0)
    let name := List.replicate 12 1 ++ [192, 12]
    ((Checked.processIoChunk lib (2 ^ 64) p (fun _ => .silent) (fun _ => .samplePod)
        ⟨raw, [], []⟩ : Outcome String _) =
      returned (.ok (p.processIoChunk lib (fun _ => Host.silent.readingFiles .samplePod)
        ⟨raw, [], []⟩))) ∧
    (Protocol.Checked.push lib.codecs (2 ^ 64) (.new ⟨48000000, 2048⟩) (leBytes 4 100) :
        Outcome String _) =
      returned (.ok ((StreamDecoder.new ⟨48000000, 2048⟩).push lib.codecs (leBytes 4 100))) ∧
    Checked.decodeDnsMessage (2 ^ 64) name = returned (decodeDnsMessage name) := by
  intro lib p raw name
  obtain ⟨-, -, hstream, hchunk, hdns, -⟩ := @decoder_never_panics String lib _ (Nat.le_refl _)
  refine ⟨hchunk p _ _ ⟨raw, [], []⟩ (fun _ => ProcFs.samplePod_fitsMemory) (by decide), ?_,
    hdns name (by decide)⟩
  exact (hstream _ _ (by decide) (by decide)).1

end MongoDam.Observer
