import MongoDam.Observer.Processor

/-!
# What one step of the processor does

The correlation state of the processor is the table of pending requests and the
session part of every connection state. This file says once what each operation
does to that state; the run-level results use these lemmas and never unfold a
handler again.
-/

namespace MongoDam.Observer

open Lib Schema Protocol

/-- The identity part of a connection state: the authenticated and the pending
principal. -/
def ConnectionState.session (state : ConnectionState) : Option String × Option String :=
  (state.authenticatedPrincipalHash, state.pendingAuthPrincipalHash)

namespace EventProcessor

variable (lib : External) (p : EventProcessor) (host : Host) (raw : KernelEvent)

/-- The state of a connection, the default one when it has no entry. -/
def connection (key : ConnectionKey) : ConnectionState := p.connections.getD key {}

/-- The request that waits on a connection under a request identifier. -/
def waiting (key : ConnectionKey) (requestId : ℤ) : Option PendingRequest :=
  p.pending.get? (key.1, key.2, requestId)

@[simp] theorem connection_new (config : ProcessorConfig) (key : ConnectionKey) :
    (EventProcessor.new config).connection key = {} := rfl

@[simp] theorem waiting_new (config : ProcessorConfig) (key : ConnectionKey) (requestId : ℤ) :
    (EventProcessor.new config).waiting key requestId = none := rfl

/-! ### Events and connection updates -/

/-- Emitting an event only advances the sequence number. -/
@[simp] theorem eventFromSeed_fst (seed : EventSeed) (payload : EventPayload) :
    (p.eventFromSeed lib seed payload).1 = { p with sequence := (p.sequence + 1) % 2 ^ 64 } := rfl

@[simp] theorem event_fst (truncated : Bool) (payload : EventPayload) :
    (p.event lib host raw truncated payload).1 =
      { p with sequence := (p.sequence + 1) % 2 ^ 64 } := rfl

@[simp] theorem updateConnection_config (key : ConnectionKey)
    (f : ConnectionState → ConnectionState) : (p.updateConnection key f).config = p.config := rfl

@[simp] theorem updateConnection_pending (key : ConnectionKey)
    (f : ConnectionState → ConnectionState) : (p.updateConnection key f).pending = p.pending := rfl

@[simp] theorem updateConnection_streams (key : ConnectionKey)
    (f : ConnectionState → ConnectionState) : (p.updateConnection key f).streams = p.streams := rfl

@[simp] theorem updateConnection_pendingDns (key : ConnectionKey)
    (f : ConnectionState → ConnectionState) :
    (p.updateConnection key f).pendingDns = p.pendingDns := rfl

/-- Updating an entry changes the state of that connection only. -/
theorem connection_updateConnection (key j : ConnectionKey)
    (f : ConnectionState → ConnectionState) :
    (p.updateConnection key f).connection j =
      if j = key then f (p.connection key) else p.connection j := by
  unfold connection updateConnection Table.getD
  rw [Table.get?_insert]
  split <;> rfl

/-- Looking endpoints up touches the endpoint cache only. -/
theorem socketEndpoints_fst (tgid : ℕ) (fd : ℤ) :
    ∃ cache, (p.socketEndpoints host tgid fd).1 = { p with endpointCache := cache } := by
  unfold socketEndpoints
  split
  · exact ⟨p.endpointCache, rfl⟩
  · split
    · exact ⟨p.endpointCache, rfl⟩
    · exact ⟨_, rfl⟩

/-- Connection metadata creates the entry of the connection and may fill the
endpoint cache. -/
theorem connectionMetadata_fst :
    ∃ cache, (p.connectionMetadata host raw).1 =
      { p.updateConnection raw.key id with endpointCache := cache } := by
  unfold connectionMetadata
  dsimp only
  split
  · exact (p.updateConnection raw.key id).socketEndpoints_fst host raw.tgid raw.fd
  · exact ⟨p.endpointCache, rfl⟩

@[simp] theorem connectionMetadata_config :
    (p.connectionMetadata host raw).1.config = p.config := by
  obtain ⟨cache, h⟩ := p.connectionMetadata_fst host raw
  rw [h]
  rfl

@[simp] theorem connectionMetadata_streams :
    (p.connectionMetadata host raw).1.streams = p.streams := by
  obtain ⟨cache, h⟩ := p.connectionMetadata_fst host raw
  rw [h]
  rfl

@[simp] theorem connectionMetadata_pending :
    (p.connectionMetadata host raw).1.pending = p.pending := by
  obtain ⟨cache, h⟩ := p.connectionMetadata_fst host raw
  rw [h]
  rfl

@[simp] theorem connectionMetadata_pendingDns :
    (p.connectionMetadata host raw).1.pendingDns = p.pendingDns := by
  obtain ⟨cache, h⟩ := p.connectionMetadata_fst host raw
  rw [h]
  rfl

@[simp] theorem connectionMetadata_connections :
    (p.connectionMetadata host raw).1.connections =
      p.connections.insert raw.key (p.connection raw.key) := by
  obtain ⟨cache, h⟩ := p.connectionMetadata_fst host raw
  rw [h]
  rfl

@[simp] theorem connection_connectionMetadata (j : ConnectionKey) :
    (p.connectionMetadata host raw).1.connection j = p.connection j := by
  unfold connection
  rw [connectionMetadata_connections, Table.getD, Table.get?_insert]
  split
  · next h =>
    subst h
    rfl
  · rfl

theorem connection_forgetConnection (key j : ConnectionKey) :
    (p.forgetConnection key).connection j = if j = key then {} else p.connection j := by
  unfold connection forgetConnection Table.getD
  simp only [Table.get?_erase]
  split <;> rfl

theorem connection_forgetProcess (tgid : ℕ) (j : ConnectionKey) :
    (p.forgetProcess tgid).connection j = if j.1 = tgid then {} else p.connection j := by
  unfold connection forgetProcess Table.getD
  simp only [Table.get?_filterKey]
  by_cases h : j.1 = tgid <;> simp [h]

/-! ### Pruning -/

section Pruning

variable {ρ σ : Type} (timestamp : ρ → ℕ) (nowNs : ℕ)

/-- Pruning only removes entries. -/
theorem get?_prunedPending {pending : Table PendingKey ρ} {key : PendingKey} {request : ρ}
    (h : (prunedPending timestamp host nowNs pending).get? key = some request) :
    pending.get? key = some request := by
  have hretained : ∀ keep : PendingKey → ρ → Bool, (pending.filter keep).get? key = some request →
      pending.get? key = some request := by
    intro keep hget
    rw [Table.get?_filter, Option.filter_eq_some_iff] at hget
    exact hget.1
  unfold prunedPending at h
  split at h
  · exact h
  · dsimp only at h
    split at h
    · exact hretained _ h
    · split at h
      · exact hretained _ h
      · rw [Table.get?_erase] at h
        split at h
        · cases h
        · exact hretained _ h

theorem prunedPending_of_lt {pending : Table PendingKey ρ}
    (h : pending.size < MAX_PENDING_REQUESTS) :
    prunedPending timestamp host nowNs pending = pending :=
  if_pos h

/-- Pruning looks at the keys and the timestamps only. -/
theorem prunedPending_mapVal (f : ρ → σ) (timestamp' : σ → ℕ)
    (htimestamp : ∀ request, timestamp' (f request) = timestamp request)
    (pending : Table PendingKey ρ) :
    (prunedPending timestamp host nowNs pending).mapVal f =
      prunedPending timestamp' host nowNs (pending.mapVal f) := by
  have hretained : (pending.filter (fun _ request => decide (nowNs - PENDING_REQUEST_TTL_NS ≤
      timestamp request))).mapVal f = (pending.mapVal f).filter (fun _ request =>
        decide (nowNs - PENDING_REQUEST_TTL_NS ≤ timestamp' request)) :=
    Table.mapVal_filter f pending fun _ request => by rw [htimestamp]
  have holdest : ∀ retained : Table PendingKey ρ,
      oldestPending timestamp' host (retained.mapVal f) =
        oldestPending timestamp host retained := by
    intro retained
    simp only [oldestPending, Table.keys_mapVal, Table.get?_mapVal, Option.map_map,
      Function.comp_def, htimestamp]
  unfold prunedPending
  rw [Table.size_mapVal]
  split
  · rfl
  · dsimp only
    rw [← hretained, Table.size_mapVal, holdest]
    split
    · rfl
    · split
      · rfl
      · exact Table.mapVal_filter f _ fun _ _ => rfl

end Pruning

@[simp] theorem prunePendingRequests_config (nowNs : ℕ) :
    (p.prunePendingRequests host nowNs).config = p.config := rfl

@[simp] theorem prunePendingRequests_connections (nowNs : ℕ) :
    (p.prunePendingRequests host nowNs).connections = p.connections := rfl

/-! ### Requests and completions -/

section Requests

variable (truncated : Bool) (message : DecodedMessage) (command : MongoCommand)

@[simp] theorem openRequest_config :
    (p.openRequest lib host raw truncated message command).1.config = p.config := by
  simp [openRequest]

@[simp] theorem openRequest_pending :
    (p.openRequest lib host raw truncated message command).1.pending = p.pending := by
  simp [openRequest]

/-- Opening a request remembers its principal on its own connection. -/
theorem connection_openRequest (j : ConnectionKey) :
    (p.openRequest lib host raw truncated message command).1.connection j =
      if j = raw.key then
        rememberPrincipal command (takeHashedPrincipal lib command p.config.principalHashSalt).2
          (p.connection raw.key)
      else p.connection j := by
  simp only [openRequest, connection_connectionMetadata, connection_updateConnection]
  rfl

@[simp] theorem openRequest_streams :
    (p.openRequest lib host raw truncated message command).1.streams = p.streams := by
  simp [openRequest]

@[simp] theorem openRequest_pendingDns :
    (p.openRequest lib host raw truncated message command).1.pendingDns = p.pendingDns := by
  simp [openRequest]

/-- The actor of a request is the principal its connection had authenticated. -/
theorem openRequest_actor :
    (p.openRequest lib host raw truncated message command).2.actorPrincipalHash =
      (p.connection raw.key).authenticatedPrincipalHash := by
  have h := fun f => p.connection_updateConnection raw.key raw.key f
  simp only [if_true] at h
  change (connection _ _).authenticatedPrincipalHash = _
  rw [h]
  unfold rememberPrincipal
  split <;> rfl

variable (request : PendingRequest) (response : Option (DecodedMessage × ℕ))

/-- Reporting only advances the sequence number. -/
theorem reportCompleted_fst (sessionPrincipal : Option String) :
    ∃ sequence, (p.reportCompleted lib request response sessionPrincipal).1 =
      { p with sequence } := by
  unfold reportCompleted
  dsimp only
  split <;> exact ⟨_, rfl⟩

/-- Completing a request settles the connection it was opened on, when it carries
authentication, and changes nothing else but the sequence number. -/
theorem eventsForCompletedRequest_fst :
    ∃ sequence, (p.eventsForCompletedRequest lib request response).1 =
      { (if commandCarriesAuthentication request.command then
          p.updateConnection request.connectionStateKey
            (settleAuthentication request.command (p.sessionAuthPrincipal request)
              ((response.bind (·.1.status)).bind (·.ok))
              ((response.bind (·.1.status)).bind (·.authDone)))
        else p) with sequence } := by
  unfold eventsForCompletedRequest
  dsimp only
  split <;> exact reportCompleted_fst ..

@[simp] theorem eventsForCompletedRequest_config :
    (p.eventsForCompletedRequest lib request response).1.config = p.config := by
  obtain ⟨sequence, h⟩ := p.eventsForCompletedRequest_fst lib request response
  rw [h]
  dsimp only
  split <;> rfl

@[simp] theorem eventsForCompletedRequest_pending :
    (p.eventsForCompletedRequest lib request response).1.pending = p.pending := by
  obtain ⟨sequence, h⟩ := p.eventsForCompletedRequest_fst lib request response
  rw [h]
  dsimp only
  split <;> rfl

@[simp] theorem eventsForCompletedRequest_streams :
    (p.eventsForCompletedRequest lib request response).1.streams = p.streams := by
  obtain ⟨sequence, h⟩ := p.eventsForCompletedRequest_fst lib request response
  rw [h]
  dsimp only
  split <;> rfl

@[simp] theorem eventsForCompletedRequest_pendingDns :
    (p.eventsForCompletedRequest lib request response).1.pendingDns = p.pendingDns := by
  obtain ⟨sequence, h⟩ := p.eventsForCompletedRequest_fst lib request response
  rw [h]
  dsimp only
  split <;> rfl

/-- The connection states after a completed request. -/
theorem connection_eventsForCompletedRequest (j : ConnectionKey) :
    (p.eventsForCompletedRequest lib request response).1.connection j =
      if commandCarriesAuthentication request.command ∧ j = request.connectionStateKey then
        settleAuthentication request.command (p.sessionAuthPrincipal request)
          ((response.bind (·.1.status)).bind (·.ok))
          ((response.bind (·.1.status)).bind (·.authDone)) (p.connection j)
      else p.connection j := by
  obtain ⟨sequence, h⟩ := p.eventsForCompletedRequest_fst lib request response
  rw [h]
  by_cases hcarries : commandCarriesAuthentication request.command
  · simp only [hcarries, if_true, true_and]
    refine (p.connection_updateConnection request.connectionStateKey j _).trans ?_
    split
    · next hj => rw [hj]
    · rfl
  · simp only [hcarries, Bool.false_eq_true, if_false, false_and]
    rfl

/-- A completed request emits exactly one activity. -/
theorem eventsForCompletedRequest_activities :
    (p.eventsForCompletedRequest lib request response).2.filterMap DamEvent.activity? =
      [p.activityOf request response] := by
  unfold eventsForCompletedRequest reportCompleted
  dsimp only
  split <;> split <;> rfl

end Requests

/-! ### Messages -/

/-- What a message can do: nothing, open a request that waits, report a one-way
request, or complete the request it answers. -/
theorem processMessage_cases (truncated : Bool) (message : DecodedMessage) :
    (p.processMessage lib host raw truncated message = (p, []) ∧
        (message.responseTo = 0 → message.command = none) ∧
        (message.responseTo ≠ 0 → p.waiting raw.key message.responseTo = none)) ∨
      (∃ command, message.responseTo = 0 ∧ message.command = some command ∧
        message.moreToCome = false ∧
        p.processMessage lib host raw truncated message =
          let opened := p.openRequest lib host raw truncated message command
          let pruned := opened.1.prunePendingRequests host raw.timestampNs
          ({ pruned with
              pending := pruned.pending.insert (raw.tgid, raw.connectionKey, message.requestId)
                opened.2 }, [])) ∨
      (∃ command, message.responseTo = 0 ∧ message.command = some command ∧
        message.moreToCome = true ∧
        p.processMessage lib host raw truncated message =
          let opened := p.openRequest lib host raw truncated message command
          opened.1.eventsForCompletedRequest lib opened.2 none) ∨
      ∃ request, message.responseTo ≠ 0 ∧ p.waiting raw.key message.responseTo = some request ∧
        p.processMessage lib host raw truncated message =
          eventsForCompletedRequest lib
            { p with pending := p.pending.erase (raw.tgid, raw.connectionKey, message.responseTo) }
            request
            (some (message, (raw.timestampNs - request.seed.monotonicTimestampNs) / 1000)) := by
  by_cases hreply : message.responseTo = 0
  · cases hcommand : message.command with
    | none =>
      left
      simp [processMessage, hreply, hcommand]
    | some command =>
      right
      cases hmore : message.moreToCome with
      | false =>
        left
        refine ⟨command, hreply, rfl, rfl, ?_⟩
        simp [processMessage, hreply, hcommand, openRequest, hmore]
      | true =>
        right
        left
        refine ⟨command, hreply, rfl, rfl, ?_⟩
        simp [processMessage, hreply, hcommand, openRequest, hmore]
  · cases hwaiting : p.waiting raw.key message.responseTo with
    | none =>
      left
      have hget : p.pending.get? (raw.tgid, raw.connectionKey, message.responseTo) = none :=
        hwaiting
      simp [processMessage, hreply, hget]
    | some request =>
      right
      right
      right
      have hget : p.pending.get? (raw.tgid, raw.connectionKey, message.responseTo) =
          some request := hwaiting
      refine ⟨request, hreply, rfl, ?_⟩
      simp [processMessage, hreply, hget]

theorem processMessage_config (truncated : Bool) (message : DecodedMessage) :
    (p.processMessage lib host raw truncated message).1.config = p.config := by
  rcases p.processMessage_cases lib host raw truncated message with
    ⟨heq, -, -⟩ | ⟨command, -, -, -, heq⟩ | ⟨command, -, -, -, heq⟩ | ⟨request, -, -, heq⟩ <;>
    simp [heq]

theorem processMessage_streams (truncated : Bool) (message : DecodedMessage) :
    (p.processMessage lib host raw truncated message).1.streams = p.streams := by
  rcases p.processMessage_cases lib host raw truncated message with
    ⟨heq, -, -⟩ | ⟨command, -, -, -, heq⟩ | ⟨command, -, -, -, heq⟩ | ⟨request, -, -, heq⟩ <;>
    simp [heq, prunePendingRequests]

theorem processMessage_pendingDns (truncated : Bool) (message : DecodedMessage) :
    (p.processMessage lib host raw truncated message).1.pendingDns = p.pendingDns := by
  rcases p.processMessage_cases lib host raw truncated message with
    ⟨heq, -, -⟩ | ⟨command, -, -, -, heq⟩ | ⟨command, -, -, -, heq⟩ | ⟨request, -, -, heq⟩ <;>
    simp [heq, prunePendingRequests]

end EventProcessor

end MongoDam.Observer
