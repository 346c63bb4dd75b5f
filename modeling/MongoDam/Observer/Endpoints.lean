import MongoDam.Lib.Trace
import MongoDam.Observer.Provenance

/-!
# Endpoints and reused descriptors

The endpoints of a socket are looked up by process and descriptor and served from a
cache while they are fresh. A descriptor can be reused by another connection within
that time, and closing a connection leaves its cached endpoints in place. An event
reports endpoints that were looked up after every close of another connection on its
descriptor, unless the cache serves an entry from before such a close, or the request
it completes was already waiting at such a close.
-/

namespace MongoDam.Observer

open Lib Schema Protocol

/-- The connection metadata of an event. -/
def connectionOf (event : DamEvent) : Option ConnectionMetadata :=
  match event.payload with
  | .mongodbActivity activity => some activity.connection
  | .mongodbConnection report => some report.connection
  | .dnsActivity activity => some activity.connection
  | _ => none

namespace Call

/-- The host and the record with which a call takes the metadata of its connection. -/
def describes : Call → Option (Host × KernelEvent)
  | .message host raw _ decoded =>
    if decoded.responseTo = 0 ∧ decoded.command.isSome then some (host, raw) else none
  | .chunk _ => none
  | .record host captured =>
    if captured.raw.eventType = EVENT_CONNECTION then
      (EventProcessor.connectionReport captured.raw).map (fun _ => (host, captured.raw))
    else if captured.raw.eventType = EVENT_DNS_CHUNK then
      match decodeDnsMessage
          (captured.raw.data.take (EventProcessor.capturedLength captured.raw)) with
      | .ok _ => some (host, captured.raw)
      | .error _ => none
    else none

/-- The call closes another connection on the descriptor. -/
def closesOther (key : ConnectionKey) (fd : ℤ) : Call → Prop
  | .record _ captured =>
    captured.raw.eventType = EVENT_CONNECTION ∧ captured.raw.operation = OP_TCP_CLOSE ∧
      captured.raw.tgid = key.1 ∧ captured.raw.fd = fd ∧ captured.raw.key ≠ key
  | _ => False

end Call

namespace EventProcessor

variable {lib : External} {p q : EventProcessor} {host : Host} {raw : KernelEvent}

/-- The cached endpoints of a descriptor while they are fresh. -/
def freshEntry (p : EventProcessor) (host : Host) (tgid : ℕ) (fd : ℤ) :
    Option EndpointCacheEntry :=
  (p.endpointCache.get? (tgid, fd)).filter
    (fun cached => host.instant - cached.insertedAt < 5000000000)

/-- The endpoints that the metadata of a record reports. -/
def reportedEndpoints (p : EventProcessor) (host : Host) (raw : KernelEvent) :
    Option (NetworkEndpoint × NetworkEndpoint) :=
  if 0 ≤ raw.fd then (p.socketEndpoints host raw.tgid raw.fd).2 else none

/-- The three outcomes of asking for endpoints: a fresh entry, a lookup that fails, and a
lookup that fills the cache. -/
theorem socketEndpoints_cases (p : EventProcessor) (host : Host) (tgid : ℕ) (fd : ℤ) :
    (∃ cached, p.freshEntry host tgid fd = some cached ∧
        p.socketEndpoints host tgid fd = (p, some (cached.localEndpoint, cached.remoteEndpoint))) ∨
      (p.freshEntry host tgid fd = none ∧ host.resolveSocketEndpoints tgid fd = none ∧
        p.socketEndpoints host tgid fd = (p, none)) ∨
      ∃ localEndpoint remoteEndpoint, p.freshEntry host tgid fd = none ∧
        host.resolveSocketEndpoints tgid fd = some (localEndpoint, remoteEndpoint) ∧
        p.socketEndpoints host tgid fd =
          ({ p with
              endpointCache := p.endpointCache.insert (tgid, fd)
                { insertedAt := host.instant, localEndpoint, remoteEndpoint } },
            some (localEndpoint, remoteEndpoint)) := by
  unfold socketEndpoints freshEntry
  cases hfresh : (p.endpointCache.get? (tgid, fd)).filter
      (fun cached => host.instant - cached.insertedAt < 5000000000) with
  | some cached => exact .inl ⟨cached, rfl, rfl⟩
  | none =>
    cases hresolve : host.resolveSocketEndpoints tgid fd with
    | none => exact .inr (.inl ⟨rfl, rfl, rfl⟩)
    | some endpoints => exact .inr (.inr ⟨endpoints.1, endpoints.2, rfl, rfl, rfl⟩)

/-- Endpoints depend on the cache only. -/
private theorem socketEndpoints_congr (host : Host) (h : q.endpointCache = p.endpointCache)
    (tgid : ℕ) (fd : ℤ) :
    (q.socketEndpoints host tgid fd).1.endpointCache =
        (p.socketEndpoints host tgid fd).1.endpointCache ∧
      (q.socketEndpoints host tgid fd).2 = (p.socketEndpoints host tgid fd).2 := by
  unfold socketEndpoints
  rw [h]
  split
  · exact ⟨h, rfl⟩
  · split
    · exact ⟨h, rfl⟩
    · exact ⟨rfl, rfl⟩

/-- The cache after taking metadata. -/
def describedCache (p : EventProcessor) (host : Host) (raw : KernelEvent) :
    Table (ℕ × ℤ) EndpointCacheEntry :=
  if 0 ≤ raw.fd then (p.socketEndpoints host raw.tgid raw.fd).1.endpointCache
  else p.endpointCache

/-- The metadata of a record taken in a state. -/
structure Describes (p : EventProcessor) (host : Host) (raw : KernelEvent)
    (connection : ConnectionMetadata) : Prop where
  fd : connection.fd = raw.fd
  localEndpoint : connection.localEndpoint = (p.reportedEndpoints host raw).map Prod.fst
  remoteEndpoint : connection.remoteEndpoint = (p.reportedEndpoints host raw).map Prod.snd

/-- What taking metadata does with the cache and reports of it. -/
theorem connectionMetadata_spec (host : Host) (raw : KernelEvent)
    (h : q.endpointCache = p.endpointCache) :
    (q.connectionMetadata host raw).1.endpointCache = p.describedCache host raw ∧
      p.Describes host raw (q.connectionMetadata host raw).2 := by
  have hupdated : (q.updateConnection raw.key id).endpointCache = p.endpointCache := h
  obtain ⟨hcache, hendpoints⟩ := socketEndpoints_congr host hupdated raw.tgid raw.fd
  unfold connectionMetadata describedCache
  dsimp only
  split
  · next hfd =>
    have hreported : p.reportedEndpoints host raw = (p.socketEndpoints host raw.tgid raw.fd).2 :=
      if_pos hfd
    exact ⟨hcache, rfl, by rw [hreported, ← hendpoints], by rw [hreported, ← hendpoints]⟩
  · next hfd =>
    have hreported : p.reportedEndpoints host raw = none := if_neg hfd
    exact ⟨h, rfl, by rw [hreported], by rw [hreported]⟩

/-! ### One step -/

variable (lib p) in
/-- Completing a request leaves the cache alone and reports the request's metadata. -/
theorem eventsForCompletedRequest_spec (request : PendingRequest)
    (response : Option (DecodedMessage × ℕ)) :
    (p.eventsForCompletedRequest lib request response).1.endpointCache = p.endpointCache ∧
      ∀ event ∈ (p.eventsForCompletedRequest lib request response).2, ∀ connection,
        connectionOf event = some connection → connection = request.connection := by
  constructor
  · obtain ⟨sequence, h⟩ := p.eventsForCompletedRequest_fst lib request response
    rw [h]
    dsimp only
    split <;> rfl
  · have hreport : ∀ (q : EventProcessor) (principal : Option String),
        ∀ event ∈ (q.reportCompleted lib request response principal).2, ∀ connection,
          connectionOf event = some connection → connection = request.connection := by
      intro q principal event hmem connection hconnection
      unfold reportCompleted at hmem
      dsimp only at hmem
      split at hmem
      · rcases List.mem_pair.mp hmem with rfl | rfl
        · exact (Option.some.inj hconnection).symm
        · cases hconnection
      · obtain rfl := List.mem_singleton.mp hmem
        exact (Option.some.inj hconnection).symm
    unfold eventsForCompletedRequest
    dsimp only
    split <;> exact hreport _ _

/-- A call that takes metadata fills the cache for it and reports it; any other call drops
entries of the cache at most, and reports the metadata of the request it completes. -/
def StepSpec (lib : External) (p : EventProcessor) (call : Call) : Prop :=
  (∃ host raw, call.describes = some (host, raw) ∧ call.key = raw.key ∧
      (call.step lib p).1.endpointCache = p.describedCache host raw ∧
      ∀ event ∈ (call.step lib p).2, ∀ connection, connectionOf event = some connection →
        p.Describes host raw connection) ∨
    (call.describes = none ∧
      (∃ keep, (call.step lib p).1.endpointCache = p.endpointCache.filter keep) ∧
      ∀ event ∈ (call.step lib p).2, ∀ connection, connectionOf event = some connection →
        ∃ requestId request, call.answers call.key requestId ∧
          p.waiting call.key requestId = some request ∧ connection = request.connection)

private theorem stepSpec_message (host : Host) (raw : KernelEvent) (truncated : Bool)
    (decoded : DecodedMessage) : StepSpec lib p (.message host raw truncated decoded) := by
  have hsame : ∃ keep, p.endpointCache = p.endpointCache.filter keep :=
    ⟨fun _ _ => true, (p.endpointCache.filter_eq_self fun _ _ => rfl).symm⟩
  have hopened : ∀ command,
      (p.openRequest lib host raw truncated decoded command).1.endpointCache =
          p.describedCache host raw ∧
        p.Describes host raw (p.openRequest lib host raw truncated decoded command).2.connection :=
    fun command => connectionMetadata_spec (q := p.updateConnection _ _) host raw rfl
  rcases p.processMessage_cases lib host raw truncated decoded with
    ⟨heq, hnone, -⟩ | ⟨command, hreply, hcommand, -, heq⟩ | ⟨command, hreply, hcommand, -, heq⟩ |
    ⟨request, hreply, hwaiting, heq⟩
  · refine .inr ⟨if_neg ?_, ?_, ?_⟩
    · rintro ⟨hreply, hsome⟩
      rw [hnone hreply] at hsome
      cases hsome
    · rw [Call.step, heq]
      exact hsame
    · rw [Call.step, heq]
      rintro event (_ | _)
  · refine .inl ⟨host, raw, if_pos ⟨hreply, by rw [hcommand]; rfl⟩, rfl, ?_, ?_⟩
    · rw [Call.step, heq]
      exact (hopened command).1
    · rw [Call.step, heq]
      rintro event (_ | _)
  · obtain ⟨hcache, hevents⟩ := eventsForCompletedRequest_spec lib
      (p.openRequest lib host raw truncated decoded command).1
      (p.openRequest lib host raw truncated decoded command).2 none
    refine .inl ⟨host, raw, if_pos ⟨hreply, by rw [hcommand]; rfl⟩, rfl, ?_, ?_⟩
    · rw [Call.step, heq]
      exact hcache.trans (hopened command).1
    · rw [Call.step, heq]
      intro event hmem connection hconnection
      rw [hevents event hmem connection hconnection]
      exact (hopened command).2
  · obtain ⟨hcache, hevents⟩ := eventsForCompletedRequest_spec lib
      { p with pending := p.pending.erase (raw.tgid, raw.connectionKey, decoded.responseTo) }
      request (some (decoded, (raw.timestampNs - request.seed.monotonicTimestampNs) / 1000))
    refine .inr ⟨if_neg fun h => hreply h.1, ?_, ?_⟩
    · rw [Call.step, heq, hcache]
      exact hsame
    · rw [Call.step, heq]
      intro event hmem connection hconnection
      exact ⟨decoded.responseTo, request, ⟨rfl, rfl, hreply⟩, hwaiting,
        hevents event hmem connection hconnection⟩

/-- A call that takes no metadata, reports none and only drops entries of the cache. -/
private theorem stepSpec_of_filter {call : Call} (hdescribes : call.describes = none)
    (hcache : ∃ keep, (call.step lib p).1.endpointCache = p.endpointCache.filter keep)
    (hevents : ∀ event ∈ (call.step lib p).2, connectionOf event = none) :
    StepSpec lib p call := by
  refine .inr ⟨hdescribes, hcache, fun event hmem connection hconnection => ?_⟩
  rw [hevents event hmem] at hconnection
  cases hconnection

private theorem stepSpec_connection (host : Host) (captured : CapturedKernelEvent)
    (htype : captured.raw.eventType = EVENT_CONNECTION) :
    StepSpec lib p (.record host captured) := by
  have hlatency : EVENT_CONNECTION ≠ EVENT_SYSCALL_LATENCY := by decide
  have hprocess : p.processRecord lib host captured =
      succeed (p.processConnection lib host captured) := by
    simp [processRecord, htype, hlatency]
  cases hreport : connectionReport captured.raw with
  | none =>
    refine stepSpec_of_filter (by simp [Call.describes, htype, hreport]) ⟨fun _ _ => true, ?_⟩ ?_
    · simp only [Call.step, hprocess, succeed, processConnection, hreport]
      exact (p.endpointCache.filter_eq_self fun _ _ => rfl).symm
    · simp [Call.step, hprocess, succeed, processConnection, hreport, Except.toOption]
  | some report =>
    have hspec := connectionMetadata_spec (p := p) host captured.raw
      (q := p.updateConnection captured.raw.key (measureConnection captured.raw)) rfl
    refine .inl ⟨host, captured.raw, by simp [Call.describes, htype, hreport], rfl, ?_, ?_⟩
    · simp only [Call.step, hprocess, succeed, processConnection, hreport]
      refine Eq.trans ?_ hspec.1
      split <;> rfl
    · simp only [Call.step, hprocess, succeed, processConnection, hreport, Except.toOption,
        Option.getD_some]
      intro event hmem connection hconnection
      obtain rfl := List.mem_singleton.mp hmem
      obtain rfl := Option.some.inj hconnection
      exact hspec.2

private theorem stepSpec_dns (host : Host) (captured : CapturedKernelEvent)
    (htype : captured.raw.eventType = EVENT_DNS_CHUNK) :
    StepSpec lib p (.record host captured) := by
  have hprocess : p.processRecord lib host captured = p.processDns lib host captured := by
    simp [processRecord, htype, EVENT_DNS_CHUNK, EVENT_SYSCALL_LATENCY, EVENT_CONNECTION,
      EVENT_PROFILE, EVENT_PROCESS]
  have hconnection : EVENT_DNS_CHUNK ≠ EVENT_CONNECTION := by decide
  cases hdecoded : decodeDnsMessage (captured.raw.data.take (capturedLength captured.raw)) with
  | error e =>
    refine stepSpec_of_filter ?_ ⟨fun _ _ => true, ?_⟩ ?_
    · simp [Call.describes, htype, hconnection, hdecoded]
    · simp only [Call.step, hprocess, processDns, hdecoded]
      exact (p.endpointCache.filter_eq_self fun _ _ => rfl).symm
    · simp [Call.step, hprocess, processDns, hdecoded, Except.toOption]
  | ok message =>
    have hspec : ∀ pendingDns : Table DnsKey PendingDnsQuery,
        (connectionMetadata { p with pendingDns } host captured.raw).1.endpointCache =
            p.describedCache host captured.raw ∧
          p.Describes host captured.raw
            (connectionMetadata { p with pendingDns } host captured.raw).2 :=
      fun pendingDns => connectionMetadata_spec host captured.raw rfl
    refine .inl ⟨host, captured.raw, ?_, rfl, ?_, ?_⟩
    · simp [Call.describes, htype, hconnection, hdecoded]
    · simp only [Call.step, hprocess, processDns, hdecoded]
      split <;> exact (hspec _).1
    · simp only [Call.step, hprocess, processDns, hdecoded, Except.toOption, Option.getD_some]
      intro event hmem connection hconnection
      obtain rfl := List.mem_singleton.mp hmem
      obtain rfl := Option.some.inj hconnection
      split <;> exact (hspec _).2

private theorem stepSpec_record (host : Host) (captured : CapturedKernelEvent) :
    StepSpec lib p (.record host captured) := by
  by_cases hconnection : captured.raw.eventType = EVENT_CONNECTION
  · exact stepSpec_connection host captured hconnection
  · by_cases hdns : captured.raw.eventType = EVENT_DNS_CHUNK
    · exact stepSpec_dns host captured hdns
    · have hsame : ∃ keep, p.endpointCache = p.endpointCache.filter keep :=
        ⟨fun _ _ => true, (p.endpointCache.filter_eq_self fun _ _ => rfl).symm⟩
      have hdescribes : (Call.record host captured).describes = none := by
        simp [Call.describes, hconnection, hdns]
      have hother : ((p.processRecord lib host captured).1.endpointCache = p.endpointCache ∨
            (p.processRecord lib host captured).1.endpointCache =
              p.endpointCache.filter (fun k _ => decide (k.1 ≠ captured.raw.tgid))) ∧
          ∀ event ∈ (p.processRecord lib host captured).2.toOption.getD [],
            connectionOf event = none := by
        unfold processRecord succeed
        dsimp only
        rw [if_neg hconnection, if_neg hdns]
        split
        · unfold processLatency
          dsimp only
          split
          · exact ⟨.inl rfl, List.forall_mem_singleton.mpr rfl⟩
          · split
            · exact ⟨.inl rfl, List.forall_mem_nil _⟩
            · exact ⟨.inl rfl, List.forall_mem_singleton.mpr rfl⟩
        · split
          · unfold processProfile
            dsimp only
            split
            · exact ⟨.inl rfl, List.forall_mem_singleton.mpr rfl⟩
            · split
              · exact ⟨.inl rfl, List.forall_mem_singleton.mpr rfl⟩
              · exact ⟨.inl rfl, List.forall_mem_nil _⟩
          · split
            · unfold processLifecycle
              dsimp only
              split
              · split
                · exact ⟨.inr rfl, List.forall_mem_singleton.mpr rfl⟩
                · exact ⟨.inl rfl, List.forall_mem_singleton.mpr rfl⟩
              · exact ⟨.inl rfl, List.forall_mem_nil _⟩
            · exact ⟨.inl rfl, List.forall_mem_nil _⟩
      refine stepSpec_of_filter hdescribes ?_ hother.2
      rcases hother.1 with hcache | hcache
      · exact ⟨fun _ _ => true, hcache.trans (p.endpointCache.filter_eq_self fun _ _ => rfl).symm⟩
      · exact ⟨_, hcache⟩

variable (lib p) in
/-- What every call does with the cache, and where the metadata it reports is from. -/
theorem stepSpec (call : Call) : StepSpec lib p call := by
  cases call with
  | chunk raw =>
    obtain ⟨streams, hdecode⟩ := p.decodeChunk_fst lib raw
    refine .inr ⟨rfl, ⟨fun _ _ => true, ?_⟩, ?_⟩
    · rw [Call.step, hdecode]
      exact (p.endpointCache.filter_eq_self fun _ _ => rfl).symm
    · rintro event (_ | _)
  | message host raw truncated decoded => exact stepSpec_message host raw truncated decoded
  | record host captured => exact stepSpec_record host captured

end EventProcessor

/-! ### Runs -/

/-- The call looks the endpoints of a descriptor up, and finds them. -/
def Call.resolves (p : EventProcessor) (tgid : ℕ) (fd : ℤ)
    (endpoints : NetworkEndpoint × NetworkEndpoint) (call : Call) : Prop :=
  ∃ host raw, call.describes = some (host, raw) ∧ raw.tgid = tgid ∧ raw.fd = fd ∧ 0 ≤ fd ∧
    p.freshEntry host tgid fd = none ∧ host.resolveSocketEndpoints tgid fd = some endpoints

/-- The endpoints were looked up, and no other connection on the descriptor was closed then
or since. -/
def LookedUpSince (lib : External) (p : EventProcessor) (calls : List Call) (key : ConnectionKey)
    (fd : ℤ) (endpoints : NetworkEndpoint × NetworkEndpoint) : Prop :=
  ∃ before looked since, calls = before ++ looked :: since ∧
    looked.resolves (p.afterCalls lib before) key.1 fd endpoints ∧
    ∀ call ∈ looked :: since, ¬ call.closesOther key fd

/-- The metadata reports no endpoints, or endpoints that were looked up since the last close
of another connection on the descriptor. -/
def ReportsCurrent (lib : External) (p : EventProcessor) (calls : List Call) (key : ConnectionKey)
    (connection : ConnectionMetadata) : Prop :=
  connection.localEndpoint = none ∧ connection.remoteEndpoint = none ∨
    ∃ localEndpoint remoteEndpoint, connection.localEndpoint = some localEndpoint ∧
      connection.remoteEndpoint = some remoteEndpoint ∧
      LookedUpSince lib p calls key connection.fd (localEndpoint, remoteEndpoint)

/-- The call is not served a cached entry that the cache has held since a close of another
connection on the descriptor. -/
def ServesOpen (lib : External) (p : EventProcessor) (before : List Call) (call : Call) : Prop :=
  ∀ host raw, call.describes = some (host, raw) → 0 ≤ raw.fd →
    ∀ earlier close between cached, before = earlier ++ close :: between →
      close.closesOther raw.key raw.fd →
      (∀ first rest, between = first ++ rest →
        (p.afterCalls lib (earlier ++ close :: first)).endpointCache.get? (raw.tgid, raw.fd) =
          some cached) →
      (p.afterCalls lib before).freshEntry host raw.tgid raw.fd ≠ some cached

/-- The call does not complete a request with endpoints that has waited since before a close
of another connection on its descriptor. -/
def AnswersOpen (lib : External) (p : EventProcessor) (before : List Call) (call : Call) : Prop :=
  ∀ requestId request, call.answers call.key requestId →
    (p.afterCalls lib before).waiting call.key requestId = some request →
    request.connection.localEndpoint ≠ none →
    ∀ earlier close between, before = earlier ++ close :: between →
      close.closesOther call.key request.connection.fd →
      ¬∀ first rest, close :: between = first ++ rest →
        (p.afterCalls lib (earlier ++ first)).waiting call.key requestId = some request

namespace EventProcessor

variable {lib : External} {p : EventProcessor} {config : ProcessorConfig} {calls before : List Call}
  {call : Call} {key : ConnectionKey} {fd : ℤ}

/-- A call does not close another connection than its own. -/
theorem not_closesOther_key (call : Call) (fd : ℤ) : ¬ call.closesOther call.key fd := by
  cases call with
  | chunk raw => exact id
  | message host raw truncated decoded => exact id
  | record host captured => exact fun h => h.2.2.2.2 rfl

theorem lookedUpSince_append {endpoints : NetworkEndpoint × NetworkEndpoint} {more : List Call}
    (h : LookedUpSince lib p calls key fd endpoints)
    (hmore : ∀ call ∈ more, ¬ call.closesOther key fd) :
    LookedUpSince lib p (calls ++ more) key fd endpoints := by
  obtain ⟨before, looked, since, rfl, hresolves, hsince⟩ := h
  refine ⟨before, looked, since ++ more, by simp, hresolves, ?_⟩
  rw [← List.cons_append]
  exact List.forall_mem_append.mpr ⟨hsince, hmore⟩

/-- An entry that a call puts into the cache is the result of its lookup. -/
theorem resolves_of_cached {tgid : ℕ} {cached : EndpointCacheEntry}
    (hbefore : p.endpointCache.get? (tgid, fd) ≠ some cached)
    (hafter : (call.step lib p).1.endpointCache.get? (tgid, fd) = some cached) :
    call.resolves p tgid fd (cached.localEndpoint, cached.remoteEndpoint) := by
  rcases stepSpec lib p call with
    ⟨host, raw, hdescribes, -, hcache, -⟩ | ⟨-, ⟨keep, hcache⟩, -⟩
  · rw [hcache] at hafter
    unfold describedCache at hafter
    split at hafter
    · next hfd =>
      rcases p.socketEndpoints_cases host raw.tgid raw.fd with
        ⟨entry, -, heq⟩ | ⟨-, -, heq⟩ | ⟨localEndpoint, remoteEndpoint, hfresh, hresolve, heq⟩
      · rw [heq] at hafter
        exact absurd hafter hbefore
      · rw [heq] at hafter
        exact absurd hafter hbefore
      · rw [heq, Table.get?_insert] at hafter
        split at hafter
        · next hkey =>
          obtain ⟨rfl, rfl⟩ := Prod.mk.inj hkey
          obtain rfl := Option.some.inj hafter
          exact ⟨host, raw, hdescribes, rfl, rfl, hfd, hfresh, hresolve⟩
        · exact absurd hafter hbefore
    · exact absurd hafter hbefore
  · rw [hcache, Table.get?_filter, Option.filter_eq_some_iff] at hafter
    exact absurd hafter.1 hbefore

/-- A cached entry was looked up by a call of the run, and the cache has held it since. -/
theorem cached_origin {tgid : ℕ} {cached : EndpointCacheEntry}
    (h : ((EventProcessor.new config).afterCalls lib calls).endpointCache.get? (tgid, fd) =
      some cached) :
    ∃ before looked since, calls = before ++ looked :: since ∧
      looked.resolves ((EventProcessor.new config).afterCalls lib before) tgid fd
        (cached.localEndpoint, cached.remoteEndpoint) ∧
      ∀ first rest, since = first ++ rest →
        ((EventProcessor.new config).afterCalls lib
          (before ++ looked :: first)).endpointCache.get? (tgid, fd) = some cached := by
  obtain ⟨before, looked, since, hsplit, hbefore, hsince⟩ := exists_last_switch
    (P := fun calls => ((EventProcessor.new config).afterCalls lib calls).endpointCache.get?
      (tgid, fd) = some cached) nofun h
  have hlooked := hsince [] since rfl
  rw [afterCalls_append] at hlooked
  exact ⟨before, looked, since, hsplit, resolves_of_cached hbefore hlooked, hsince⟩

/-- The metadata a call takes is current when the cache does not serve a closed entry. -/
theorem reportsCurrent_of_describes {host : Host} {raw : KernelEvent}
    {connection : ConnectionMetadata} (hdescribes : call.describes = some (host, raw))
    (hkey : call.key = raw.key)
    (hconnection :
      ((EventProcessor.new config).afterCalls lib before).Describes host raw connection)
    (hserves : ServesOpen lib (EventProcessor.new config) before call) :
    ReportsCurrent lib (EventProcessor.new config) (before ++ [call]) raw.key connection := by
  have hown : ¬ call.closesOther raw.key raw.fd := by
    rw [← hkey]
    exact not_closesOther_key call raw.fd
  obtain ⟨hfd, hlocal, hremote⟩ := hconnection
  unfold reportedEndpoints at hlocal hremote
  split at hlocal
  · next hpositive =>
    rw [if_pos hpositive] at hremote
    rcases socketEndpoints_cases ((EventProcessor.new config).afterCalls lib before) host raw.tgid
      raw.fd with ⟨cached, hfresh, heq⟩ | ⟨-, -, heq⟩ | ⟨l, r, hfresh, hresolve, heq⟩
    · rw [heq] at hlocal hremote
      refine .inr ⟨_, _, hlocal, hremote, ?_⟩
      rw [hfd]
      obtain ⟨earlier, looked, since, rfl, hresolves, hsince⟩ :=
        cached_origin (Option.filter_eq_some_iff.mp hfresh).1
      refine lookedUpSince_append ⟨earlier, looked, since, rfl, hresolves, ?_⟩ (by simpa using hown)
      -- a close since the lookup would have left the entry that is served now
      intro close hmem hcloses
      obtain ⟨between, rest, hbetween⟩ := List.append_of_mem hmem
      refine hserves host raw hdescribes hpositive (earlier ++ between) close rest cached
        (by rw [hbetween, List.append_assoc]) hcloses (fun first more hsplit => ?_) hfresh
      subst hsplit
      cases between with
      | nil =>
        obtain ⟨rfl, rfl⟩ := List.cons.inj hbetween
        rw [List.append_nil]
        exact hsince first more rfl
      | cons next between =>
        obtain ⟨rfl, rfl⟩ := List.cons.inj hbetween
        have hheld := hsince (between ++ close :: first) more (by simp)
        simpa using hheld
    · rw [heq] at hlocal hremote
      exact .inl ⟨hlocal, hremote⟩
    · rw [heq] at hlocal hremote
      refine .inr ⟨l, r, hlocal, hremote, before, call, [], rfl, ?_, by simpa [hfd] using hown⟩
      rw [hfd]
      exact ⟨host, raw, hdescribes, rfl, rfl, hpositive, hfresh, hresolve⟩
  · next hnegative =>
    rw [if_neg hnegative] at hremote
    exact .inl ⟨hlocal, hremote⟩

/-- A request that waits was opened by a call of the run, and it has waited since. -/
theorem waiting_since {requestId : ℤ} {request : PendingRequest}
    (h : ((EventProcessor.new config).afterCalls lib calls).waiting key requestId =
      some request) :
    ∃ before opener since, calls = before ++ opener :: since ∧ opener.inserts key requestId ∧
      opener.opens lib ((EventProcessor.new config).afterCalls lib before) = some request ∧
      ∀ first rest, since = first ++ rest →
        ((EventProcessor.new config).afterCalls lib (before ++ opener :: first)).waiting key
          requestId = some request := by
  obtain ⟨before, opener, since, hsplit, hbefore, hsince⟩ := exists_last_switch
    (P := fun calls => ((EventProcessor.new config).afterCalls lib calls).waiting key requestId =
      some request) nofun h
  have hopened := hsince [] since rfl
  rw [afterCalls_append] at hopened
  rcases waiting_step hopened with ⟨hinserts, hopens⟩ | ⟨hwaiting, -⟩
  · exact ⟨before, opener, since, hsplit, hinserts, hopens, hsince⟩
  · exact absurd hwaiting hbefore

/-- The metadata of a request is taken when it is opened. -/
theorem describes_of_opens {request : PendingRequest} (h : call.opens lib p = some request) :
    ∃ host raw, call.describes = some (host, raw) ∧ call.key = raw.key ∧
      p.Describes host raw request.connection := by
  cases call with
  | chunk raw => cases h
  | record host captured => cases h
  | message host raw truncated decoded =>
    simp only [Call.opens] at h
    split at h
    · next hreply =>
      obtain ⟨command, hcommand, rfl⟩ := Option.map_eq_some_iff.mp h
      refine ⟨host, raw, if_pos ⟨hreply, by rw [hcommand]; rfl⟩, rfl, ?_⟩
      exact (connectionMetadata_spec (p := p) (q := p.updateConnection _ _) host raw rfl).2
    · cases h

/-- The metadata of a completed request is current when no close passed it while it waited. -/
theorem reportsCurrent_of_waiting {requestId : ℤ} {request : PendingRequest}
    (hanswers : call.answers call.key requestId)
    (hwaiting : ((EventProcessor.new config).afterCalls lib before).waiting call.key requestId =
      some request)
    (hserves : ∀ earlier opener since, before = earlier ++ opener :: since →
      ServesOpen lib (EventProcessor.new config) earlier opener)
    (hopen : AnswersOpen lib (EventProcessor.new config) before call) :
    ReportsCurrent lib (EventProcessor.new config) (before ++ [call]) call.key
      request.connection := by
  obtain ⟨earlier, opener, since, rfl, hinserts, hopens, hsince⟩ := waiting_since hwaiting
  have hkey := key_of_inserts hinserts
  obtain ⟨host, raw, hdescribes, hraw, hconnection⟩ := describes_of_opens hopens
  have hopened := reportsCurrent_of_describes hdescribes hraw hconnection
    (hserves earlier opener since rfl)
  rw [← hraw, hkey] at hopened
  rcases hopened with hnone | ⟨l, r, hlocal, hremote, hlooked⟩
  · exact .inl hnone
  · refine .inr ⟨l, r, hlocal, hremote, ?_⟩
    have hmore : ∀ later ∈ since ++ [call], ¬ later.closesOther call.key request.connection.fd := by
      intro later hmem hcloses
      rcases List.mem_append.mp hmem with hmem | hmem
      · obtain ⟨between, rest, rfl⟩ := List.append_of_mem hmem
        refine hopen requestId request hanswers hwaiting (by rw [hlocal]; nofun)
          (earlier ++ opener :: between) later rest (by simp) hcloses fun first more hsplit => ?_
        have hheld := hsince (between ++ first) more (by rw [hsplit, List.append_assoc])
        simpa using hheld
      · obtain rfl := List.mem_singleton.mp hmem
        exact not_closesOther_key later _ hcloses
    have hall := lookedUpSince_append hlooked hmore
    simpa using hall

end EventProcessor

/-- Where no call is served an entry from before a close of another connection on the
descriptor, and no response completes a request from before one, every event reports
endpoints that were looked up since the last such close. -/
theorem endpoints_current {lib : External} {config : ProcessorConfig} {records : List Record}
    (hsteps : ∀ before call after,
      (EventProcessor.new config).trace lib records = before ++ call :: after →
        ServesOpen lib (EventProcessor.new config) before call ∧
          AnswersOpen lib (EventProcessor.new config) before call) :
    ∀ before call after,
      (EventProcessor.new config).trace lib records = before ++ call :: after →
        ∀ event ∈ (call.step lib ((EventProcessor.new config).afterCalls lib before)).2,
          ∀ connection, connectionOf event = some connection →
            ReportsCurrent lib (EventProcessor.new config) (before ++ [call]) call.key
              connection := by
  intro before call after htrace event hevent connection hconnection
  obtain ⟨hserves, hanswers⟩ := hsteps before call after htrace
  rcases EventProcessor.stepSpec lib ((EventProcessor.new config).afterCalls lib before) call with
    ⟨host, raw, hdescribes, hkey, -, hreports⟩ | ⟨-, -, hreports⟩
  · rw [hkey]
    exact EventProcessor.reportsCurrent_of_describes hdescribes hkey
      (hreports event hevent connection hconnection) hserves
  · obtain ⟨requestId, request, hcall, hwaiting, rfl⟩ :=
      hreports event hevent connection hconnection
    refine EventProcessor.reportsCurrent_of_waiting hcall hwaiting ?_ hanswers
    rintro earlier opener since rfl
    exact (hsteps earlier opener (since ++ call :: after) (by rw [htrace]; simp)).1

/-- A record of a connection on descriptor 12, with the peer's port found for it. -/
def descriptorRecord (operation connectionKey instant : ℕ) (port : Option ℕ) : Record :=
  (fun _ =>
    { Host.silent with
      instant
      resolveSocketEndpoints := fun _ _ => port.map fun port =>
        ({ address := some "10.0.0.1", port := some 27017 },
          { address := some "10.0.0.2", port := some port }) },
    { raw :=
        { KernelEvent.ofChunk 1 7 connectionKey 0 [] with
          eventType := EVENT_CONNECTION, operation, fd := 12 } })

/-- A measured connection is closed, and another one is measured on its descriptor. -/
def reuseRecords (measured : ℕ) : List Record :=
  [descriptorRecord OP_TCP_RTT 8 0 (some 40001), descriptorRecord OP_TCP_CLOSE 8 1 none,
    descriptorRecord OP_TCP_RTT 9 measured (some 40002)]

/-- The call of a record that is not a chunk. -/
def Call.ofRecord (record : Record) : Call := .record (record.1 0) record.2

theorem trace_reuseRecords (lib : External) (measured : ℕ) :
    (EventProcessor.new .sample).trace lib (reuseRecords measured) =
      (reuseRecords measured).map Call.ofRecord := rfl

private theorem split_three {α : Type} {a b c x : α} {before after : List α}
    (h : [a, b, c] = before ++ x :: after) :
    (before = [] ∧ x = a ∧ after = [b, c]) ∨ (before = [a] ∧ x = b ∧ after = [c]) ∨
      (before = [a, b] ∧ x = c ∧ after = []) := by
  rcases before with _ | ⟨d, _ | ⟨e, _ | ⟨f, rest⟩⟩⟩ <;> simp_all

/-- Five seconds after the close the endpoints of the second connection are looked up. -/
theorem lateReuse_current :
    (((EventProcessor.new .sample).emittedRecords (.ofDigests sampleDigests)
        (reuseRecords 5000000000)).filterMap connectionOf).length = 3 ∧
      ∀ before call after,
        (EventProcessor.new .sample).trace (.ofDigests sampleDigests) (reuseRecords 5000000000) =
            before ++ call :: after →
          ∀ event ∈ (call.step (.ofDigests sampleDigests)
              ((EventProcessor.new .sample).afterCalls (.ofDigests sampleDigests) before)).2,
            ∀ connection, connectionOf event = some connection →
              ReportsCurrent (.ofDigests sampleDigests) (EventProcessor.new .sample)
                (before ++ [call]) call.key connection := by
  refine ⟨by decide +kernel, endpoints_current fun before call after htrace => ?_⟩
  have hcall : ∃ record, call = Call.ofRecord record := by
    have hmem : call ∈ (reuseRecords 5000000000).map Call.ofRecord := by
      rw [← trace_reuseRecords (.ofDigests sampleDigests), htrace]
      simp
    obtain ⟨record, -, heq⟩ := List.mem_map.mp hmem
    exact ⟨record, heq.symm⟩
  refine ⟨?_, ?_⟩
  · intro host raw hdescribes _ earlier close between cached hsplit hcloses hheld hfresh
    have hall : (reuseRecords 5000000000).map Call.ofRecord =
        earlier ++ close :: (between ++ call :: after) := by
      rw [← trace_reuseRecords (.ofDigests sampleDigests), htrace, hsplit]
      simp
    rcases split_three hall with ⟨-, rfl, -⟩ | ⟨rfl, rfl, -⟩ | ⟨-, -, hnone⟩
    · exact absurd hcloses.2.1 (by decide)
    · -- only the third call follows the close
      rw [trace_reuseRecords, hsplit] at htrace
      rcases split_three htrace with ⟨hbefore, -, -⟩ | ⟨hbefore, -, -⟩ | ⟨hbefore, rfl, -⟩
      · simp at hbefore
      · simp at hbefore
      · obtain ⟨rfl, rfl⟩ := Prod.mk.inj (Option.some.inj hdescribes)
        rw [hsplit, hbefore] at hfresh
        cases hfresh
    · simp at hnone
  · obtain ⟨record, rfl⟩ := hcall
    intro requestId request hanswers
    cases hanswers

/-- Within five seconds of the close the second connection is reported with the endpoints of
the first. -/
theorem earlyReuse_reports_closed :
    ¬∀ before call after,
      (EventProcessor.new .sample).trace (.ofDigests sampleDigests) (reuseRecords 2) =
          before ++ call :: after →
        ∀ event ∈ (call.step (.ofDigests sampleDigests)
            ((EventProcessor.new .sample).afterCalls (.ofDigests sampleDigests) before)).2,
          ∀ connection, connectionOf event = some connection →
            ReportsCurrent (.ofDigests sampleDigests) (EventProcessor.new .sample)
              (before ++ [call]) call.key connection := by
  intro hclaim
  have hreports := hclaim ((reuseRecords 2).take 2 |>.map Call.ofRecord)
    (Call.ofRecord (descriptorRecord OP_TCP_RTT 9 2 (some 40002))) [] rfl _
    (List.mem_singleton.mpr rfl) _ rfl
  rcases hreports with
    ⟨hnone, -⟩ | ⟨l, r, -, hremote, before, looked, since, hsplit, hresolves, hsince⟩
  · exact absurd hnone (by decide +kernel)
  · have hport : r.port = some 40001 := by
      cases hremote
      rfl
    rcases split_three hsplit with ⟨-, rfl, rfl⟩ | ⟨-, rfl, -⟩ | ⟨-, rfl, -⟩
    · -- the close of the first connection follows its lookup
      have hcloses : Call.closesOther (7, 9) 12
          (Call.ofRecord (descriptorRecord OP_TCP_CLOSE 8 1 none)) :=
        ⟨rfl, rfl, rfl, rfl, by decide⟩
      exact hsince _ (List.mem_cons_of_mem _ List.mem_cons_self) hcloses
    · obtain ⟨host, raw, hdescribes, -, -, -, -, hresolve⟩ := hresolves
      obtain ⟨rfl, rfl⟩ := Prod.mk.inj (Option.some.inj hdescribes)
      cases hresolve
    · obtain ⟨host, raw, hdescribes, -, -, -, -, hresolve⟩ := hresolves
      obtain ⟨rfl, rfl⟩ := Prod.mk.inj (Option.some.inj hdescribes)
      cases hresolve
      cases hport

end MongoDam.Observer
