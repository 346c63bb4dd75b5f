import MongoDam.Observer.Provenance
import Mathlib.Data.Set.Card

/-!
# The connections that have an entry

Describing the connection of a record creates an entry for it. Only a TCP close and
the exit of the process remove one. DNS records are described as well, but the
sockets that they come from are never closed in this sense: an entry that a DNS
record creates stays. A run in which no DNS record creates one has entries only for
the connections of its chunks and connection records.
-/

namespace MongoDam.Observer

open Lib Schema Protocol

/-- The record is one of those that report what happens on a connection. -/
def reportsConnection (raw : KernelEvent) : Prop :=
  raw.eventType = EVENT_IO_CHUNK ∨ raw.eventType = EVENT_CONNECTION

/-- The record closes the connection or ends its process. -/
def forgetsConnection (raw : KernelEvent) (key : ConnectionKey) : Prop :=
  closesConnection raw key ∨ exitsProcess raw key.1

/-- The connection appeared in a record since it was last closed or its process exited. -/
def SeenSince (records : List Record) (key : ConnectionKey) : Prop :=
  ∃ before record after, records = before ++ record :: after ∧
    reportsConnection record.2.raw ∧ record.2.raw.key = key ∧
    ∀ later ∈ record :: after, ¬forgetsConnection later.2.raw key

/-- The message that a DNS record carries, when it can be decoded. -/
def dnsMessage (raw : KernelEvent) : Option DecodedDnsMessage :=
  (decodeDnsMessage (raw.data.take (EventProcessor.capturedLength raw))).toOption

/-- A DNS record that can be decoded comes from a connection that has an entry. -/
def DnsOnKnown (p : EventProcessor) (raw : KernelEvent) : Prop :=
  raw.eventType = EVENT_DNS_CHUNK → dnsMessage raw ≠ none → p.connections.get? raw.key ≠ none

/-- Connections, streams and waiting requests are as before. -/
def SameConnections (p q : EventProcessor) : Prop :=
  q.connections = p.connections ∧ q.streams = p.streams ∧ q.pending = p.pending

/-- In every state there are at most as many entries as there are connections that appeared
since their last close. -/
def EntriesBounded (lib : External) (config : ProcessorConfig) (records : List Record) : Prop :=
  ∀ before after, records = before ++ after →
    ((EventProcessor.new config).afterRecords lib before).connections.size ≤
      {key | SeenSince before key}.ncard

/-- Every DNS record leaves connections, streams and waiting requests alone. -/
def DnsKeeps (lib : External) (config : ProcessorConfig) (records : List Record) : Prop :=
  ∀ before record after, records = before ++ record :: after →
    record.2.raw.eventType = EVENT_DNS_CHUNK →
      let p := (EventProcessor.new config).afterRecords lib before
      SameConnections p (p.process lib record.1 record.2).1

namespace EventProcessor

variable {lib : External} {p : EventProcessor} {key : ConnectionKey}

/-! ### One record -/

/-- A DNS record that can be decoded is described, and nothing else happens to the
connections. -/
theorem processDns_connections (host : Host) (captured : CapturedKernelEvent) :
    (p.processDns lib host captured).1.connections =
        (if dnsMessage captured.raw = none then p.connections
        else p.connections.insert captured.raw.key (p.connection captured.raw.key)) ∧
      (p.processDns lib host captured).1.streams = p.streams ∧
      (p.processDns lib host captured).1.pending = p.pending := by
  unfold processDns dnsMessage
  dsimp only
  split
  · next e hdecode =>
    rw [hdecode]
    exact ⟨(if_pos rfl).symm, rfl, rfl⟩
  · next message hdecode =>
    have hdecoded : (decodeDnsMessage (captured.raw.data.take
        (capturedLength captured.raw))).toOption ≠ none := by
      rw [hdecode]
      nofun
    rw [if_neg hdecoded]
    split
    · simp only [event_fst, connectionMetadata_connections, connectionMetadata_streams,
        connectionMetadata_pending, connection, and_self]
    · simp only [event_fst, connectionMetadata_connections, connectionMetadata_streams,
        connectionMetadata_pending, rememberDns, connection, and_self]

/-- A DNS record changes the connections exactly when it creates an entry. -/
theorem sameConnections_dns_iff (hosts : ℕ → Host) {captured : CapturedKernelEvent}
    (hdns : captured.raw.eventType = EVENT_DNS_CHUNK) :
    SameConnections p (p.process lib hosts captured).1 ↔ DnsOnKnown p captured.raw := by
  have hprocess : (p.process lib hosts captured).1 = (p.processDns lib (hosts 0) captured).1 := by
    simp [process, processRecord, hdns, EVENT_DNS_CHUNK, EVENT_IO_CHUNK, EVENT_SYSCALL_LATENCY,
      EVENT_CONNECTION, EVENT_PROFILE, EVENT_PROCESS]
  obtain ⟨hconnections, hstreams, hpending⟩ :=
    @processDns_connections lib p (hosts 0) captured
  rw [SameConnections, hprocess, hconnections, hstreams, hpending]
  constructor
  · rintro ⟨hsame, -, -⟩ - hdecoded hnew
    rw [if_neg hdecoded] at hsame
    have hget := Table.get?_insert_self p.connections captured.raw.key
      (p.connection captured.raw.key)
    rw [hsame, hnew] at hget
    cases hget
  · intro hknown
    refine ⟨?_, rfl, rfl⟩
    split
    · rfl
    · next hdecoded =>
      obtain ⟨state, hstate⟩ := Option.ne_none_iff_exists'.mp (hknown hdns hdecoded)
      refine Table.insert_eq_self ?_
      simp [connection, Table.getD, hstate]

/-- A connection record creates the entry of its connection, and removes it with a close. -/
private theorem processConnection_entry {host : Host} {captured : CapturedKernelEvent}
    (h : (p.processConnection lib host captured).1.connections.get? key ≠ none) :
    ¬(captured.raw.operation = OP_TCP_CLOSE ∧ captured.raw.key = key) ∧
      (p.connections.get? key ≠ none ∨ captured.raw.key = key) := by
  have hupdated : ∀ f, (p.updateConnection captured.raw.key f).connections.get? key ≠ none →
      p.connections.get? key ≠ none ∨ captured.raw.key = key := by
    intro f hget
    rw [updateConnection, Table.get?_insert] at hget
    split at hget
    · next heq => exact Or.inr heq.symm
    · exact Or.inl hget
  unfold processConnection at h
  dsimp only at h
  split at h
  · next hreport =>
    refine ⟨?_, hupdated _ h⟩
    rintro ⟨hclose, -⟩
    simp [connectionReport, hclose, OP_TCP_CONNECT, OP_TCP_ACCEPT, OP_TCP_CLOSE] at hreport
  · have hdescribed : ∀ q : EventProcessor,
        q.connections = ((p.updateConnection captured.raw.key
          (measureConnection captured.raw)).connectionMetadata host captured.raw).1.connections →
        q.connections.get? key ≠ none →
          p.connections.get? key ≠ none ∨ captured.raw.key = key := by
      intro q hq hget
      rw [hq, connectionMetadata_connections, Table.get?_insert] at hget
      split at hget
      · next heq => exact Or.inr heq.symm
      · exact hupdated _ hget
    split at h
    · next hclose =>
      rw [event_fst, forgetConnection, Table.get?_erase] at h
      split at h
      · exact absurd rfl h
      · next hother =>
        exact ⟨fun hcloses => hother hcloses.2.symm, hdescribed _ rfl h⟩
    · next hopen => exact ⟨fun hcloses => hopen hcloses.1, hdescribed _ rfl h⟩

/-- The exit of a process removes the entries of its connections. -/
private theorem processLifecycle_entry {host : Host} {captured : CapturedKernelEvent}
    (h : (p.processLifecycle lib host captured).1.connections.get? key ≠ none) :
    ¬(captured.raw.operation = OP_PROCESS_EXIT ∧ captured.raw.tgid = key.1) ∧
      p.connections.get? key ≠ none := by
  unfold processLifecycle at h
  dsimp only at h
  split at h
  · split at h
    · rw [event_fst, forgetProcess, Table.get?_filterKey] at h
      split at h
      · next hother => exact ⟨fun hexits => by simp [hexits.2] at hother, h⟩
      · exact absurd rfl h
    · next hstays => exact ⟨fun hexits => hstays hexits.1, h⟩
  · next hneither => exact ⟨fun hexits => hneither (Or.inr hexits.1), h⟩

/-- An entry after a record that is not a chunk was there before, or it is that of the
connection that the record reports on. -/
private theorem processRecord_entry {host : Host} {captured : CapturedKernelEvent}
    (hknown : DnsOnKnown p captured.raw)
    (h : (p.processRecord lib host captured).1.connections.get? key ≠ none) :
    ¬forgetsConnection captured.raw key ∧ (p.connections.get? key ≠ none ∨
      (reportsConnection captured.raw ∧ captured.raw.key = key)) := by
  have hkeeps : captured.raw.eventType ≠ EVENT_CONNECTION → captured.raw.eventType ≠ EVENT_PROCESS →
      ¬forgetsConnection captured.raw key := by
    rintro hconnection hprocess (hcloses | hexits)
    · exact hconnection hcloses.1
    · exact hprocess hexits.1
  unfold processRecord succeed at h
  dsimp only at h
  split at h
  · next hlatency =>
    refine ⟨hkeeps (by rw [hlatency]; decide) (by rw [hlatency]; decide), Or.inl ?_⟩
    unfold processLatency at h
    dsimp only at h
    split at h
    · exact h
    · split at h <;> exact h
  split at h
  · next hconnection =>
    obtain ⟨hopen, hentry⟩ := processConnection_entry h
    refine ⟨?_, hentry.imp_right fun hkey => ⟨Or.inr hconnection, hkey⟩⟩
    rintro (hcloses | hexits)
    · exact hopen hcloses.2
    · exact absurd (hconnection.symm.trans hexits.1) (by decide)
  split at h
  · next hprofile =>
    refine ⟨hkeeps (by rw [hprofile]; decide) (by rw [hprofile]; decide), Or.inl ?_⟩
    unfold processProfile at h
    dsimp only at h
    split at h
    · exact h
    · split at h <;> exact h
  split at h
  · next hprocess =>
    obtain ⟨hstays, hentry⟩ := processLifecycle_entry h
    refine ⟨?_, Or.inl hentry⟩
    rintro (hcloses | hexits)
    · exact absurd (hprocess.symm.trans hcloses.1) (by decide)
    · exact hstays hexits.2
  · next hconnection _ hprocess =>
    refine ⟨hkeeps hconnection hprocess, Or.inl ?_⟩
    split at h
    · next hdns =>
      rw [(p.processDns_connections host captured).1] at h
      split at h
      · exact h
      · next hdecoded =>
        rw [Table.get?_insert] at h
        split at h
        · next heq =>
          rw [heq]
          exact hknown hdns hdecoded
        · exact h
    · exact h

/-- An entry after a message was there before, or it is that of the message's connection,
when the requests that wait there belong to it. -/
private theorem processMessage_entry {host : Host} {raw : KernelEvent} {truncated : Bool}
    {message : DecodedMessage}
    (howned : ∀ requestId request, p.waiting raw.key requestId = some request →
      request.connectionStateKey = raw.key)
    (h : (p.processMessage lib host raw truncated message).1.connections.get? key ≠ none) :
    p.connections.get? key ≠ none ∨ raw.key = key := by
  have hinserted : ∀ (q : EventProcessor) (state : ConnectionState),
      (q.connections.insert raw.key state).get? key ≠ none →
        q.connections.get? key ≠ none ∨ raw.key = key := by
    intro q state hget
    rw [Table.get?_insert] at hget
    split at hget
    · next heq => exact Or.inr heq.symm
    · exact Or.inl hget
  have hopened : ∀ command, (p.openRequest lib host raw truncated message
      command).1.connections.get? key ≠ none → p.connections.get? key ≠ none ∨ raw.key = key := by
    intro command hget
    rw [openRequest] at hget
    dsimp only at hget
    rw [connectionMetadata_connections] at hget
    exact (hinserted _ _ hget).elim (hinserted _ _) Or.inr
  have hcompleted : ∀ (q : EventProcessor) (request : PendingRequest) response,
      request.connectionStateKey = raw.key →
      (q.eventsForCompletedRequest lib request response).1.connections.get? key ≠ none →
        q.connections.get? key ≠ none ∨ raw.key = key := by
    intro q request response hkey hget
    obtain ⟨sequence, hfst⟩ := q.eventsForCompletedRequest_fst lib request response
    rw [hfst] at hget
    dsimp only at hget
    split at hget
    · rw [updateConnection, hkey] at hget
      exact hinserted _ _ hget
    · exact Or.inl hget
  rcases p.processMessage_cases lib host raw truncated message with
    ⟨heq, -, -⟩ | ⟨command, -, -, -, heq⟩ | ⟨command, -, -, -, heq⟩ | ⟨request, -, hwaits, heq⟩
  · rw [heq] at h
    exact Or.inl h
  · rw [heq] at h
    exact hopened command h
  · have hkey : (p.openRequest lib host raw truncated message command).2.connectionStateKey =
        raw.key := by
      rw [openRequest]
    rw [heq] at h
    rcases hcompleted (p.openRequest lib host raw truncated message command).1 _ none hkey h with
      hentry | hkey
    · exact hopened command hentry
    · exact Or.inr hkey
  · rw [heq] at h
    have hentry := hcompleted _ _ _ (howned _ _ hwaits) h
    exact hentry

/-! ### Runs -/

variable {config : ProcessorConfig}

/-- An entry after messages of one record was there before, or it is that of their
connection. -/
private theorem messages_entry {raw : KernelEvent} {calls messages : List Call}
    (hmessages : ∀ call ∈ messages, ∃ host truncated message,
      call = .message host raw truncated message)
    (h : ((EventProcessor.new config).afterCalls lib (calls ++ messages)).connections.get? key ≠
      none) :
    ((EventProcessor.new config).afterCalls lib calls).connections.get? key ≠ none ∨
      raw.key = key := by
  induction messages generalizing calls with
  | nil =>
    rw [List.append_nil] at h
    exact Or.inl h
  | cons call rest ih =>
    obtain ⟨⟨host, truncated, message, rfl⟩, hrest⟩ := List.forall_mem_cons.mp hmessages
    rw [List.append_cons] at h
    rcases ih hrest h with hentry | hkey
    · rw [afterCalls_append, afterCalls_cons, afterCalls_nil] at hentry
      exact processMessage_entry (fun _ _ hwaits => connectionStateKey_of_waiting hwaits) hentry
    · exact Or.inr hkey

/-- The calls of a chunk are its decoding and then its messages. -/
private theorem callsOf_chunk (p : EventProcessor) {record : Record}
    (hchunk : record.2.raw.eventType = EVENT_IO_CHUNK) :
    ∃ messages, p.callsOf lib record = .chunk record.2.raw :: messages ∧
      ∀ call ∈ messages, ∃ host truncated message,
        call = .message host record.2.raw truncated message := by
  rw [callsOf, if_pos hchunk]
  refine ⟨_, rfl, fun call hcall => ?_⟩
  split at hcall
  · cases hcall
  · obtain ⟨entry, -, rfl⟩ := List.mem_map.mp hcall
    exact ⟨_, _, _, rfl⟩

/-- An entry after a record of a run was there before, or it is that of the connection that
the record reports on. -/
private theorem process_entry {records : List Record} {record : Record}
    (hknown : DnsOnKnown ((EventProcessor.new config).afterRecords lib records) record.2.raw)
    (h : ((EventProcessor.new config).afterRecords lib (records ++ [record])).connections.get?
      key ≠ none) :
    ¬forgetsConnection record.2.raw key ∧
      (((EventProcessor.new config).afterRecords lib records).connections.get? key ≠ none ∨
        (reportsConnection record.2.raw ∧ record.2.raw.key = key)) := by
  rw [afterRecords, List.foldl_append] at h
  change ((((EventProcessor.new config).afterRecords lib records).process lib record.1
    record.2).1.connections.get? key ≠ none) at h
  by_cases hchunk : record.2.raw.eventType = EVENT_IO_CHUNK
  · refine ⟨?_, ?_⟩
    · rintro (hcloses | hexits)
      · exact absurd (hchunk.symm.trans hcloses.1) (by decide)
      · exact absurd (hchunk.symm.trans hexits.1) (by decide)
    obtain ⟨messages, hcalls, hmessages⟩ :=
      @callsOf_chunk lib ((EventProcessor.new config).afterRecords lib records) _ hchunk
    rw [(process_eq_run _ record).1, hcalls, afterRecords_eq_afterCalls, ← afterCalls_append,
      List.append_cons] at h
    refine (messages_entry hmessages h).imp (fun hentry => ?_) fun hkey => ⟨Or.inl hchunk, hkey⟩
    rw [afterCalls_append, afterCalls_cons, afterCalls_nil] at hentry
    obtain ⟨streams, hdecode⟩ := (EventProcessor.afterCalls lib (.new config)
      (trace lib (.new config) records)).decodeChunk_fst lib record.2.raw
    rw [Call.step, hdecode] at hentry
    rw [afterRecords_eq_afterCalls]
    exact hentry
  · rw [process, if_neg hchunk] at h
    exact processRecord_entry hknown h

/-- What has appeared since the last close, one record later. -/
private theorem seenSince_append {records : List Record} {record : Record}
    (hstays : ¬forgetsConnection record.2.raw key)
    (h : SeenSince records key ∨ (reportsConnection record.2.raw ∧ record.2.raw.key = key)) :
    SeenSince (records ++ [record]) key := by
  rcases h with ⟨before, first, after, rfl, hreports, hkey, hafter⟩ | ⟨hreports, hkey⟩
  · refine ⟨before, first, after ++ [record], by simp, hreports, hkey, ?_⟩
    rw [← List.cons_append]
    refine List.forall_mem_append.mpr ⟨hafter, ?_⟩
    simpa using hstays
  · exact ⟨records, record, [], rfl, hreports, hkey, by simpa using hstays⟩

/-- In a run in which DNS records come from known connections, every entry belongs to a
connection that appeared since its last close. -/
private theorem seenSince_of_entry {records : List Record}
    (hknown : ∀ before record after, records = before ++ record :: after →
      DnsOnKnown ((EventProcessor.new config).afterRecords lib before) record.2.raw)
    (h : ((EventProcessor.new config).afterRecords lib records).connections.get? key ≠ none) :
    SeenSince records key := by
  induction records using List.reverseRecOn with
  | nil => exact absurd rfl h
  | append_singleton records record ih =>
    obtain ⟨hstays, hentry⟩ := process_entry (hknown records record [] rfl) h
    refine seenSince_append hstays (hentry.imp_left (ih ?_))
    rintro before earlier after rfl
    exact hknown before earlier (after ++ [record]) (by simp)

/-- The connections that appeared are finitely many. -/
private theorem finite_seenSince (records : List Record) :
    {key | SeenSince records key}.Finite := by
  refine (records.map (·.2.raw.key)).finite_toSet.subset ?_
  rintro key ⟨before, record, after, rfl, -, rfl, -⟩
  simp

end EventProcessor

/-- In a run every DNS record leaves connections, streams and waiting requests alone, and there
are at most as many entries as connections that appeared since their last close, exactly when
every DNS record that can be decoded comes from a connection that has an entry already. -/
theorem connections_bounded_iff {lib : External} {config : ProcessorConfig}
    (records : List Record) :
    DnsKeeps lib config records ∧ EntriesBounded lib config records ↔
      ∀ before record after, records = before ++ record :: after →
        DnsOnKnown ((EventProcessor.new config).afterRecords lib before) record.2.raw := by
  constructor
  · rintro ⟨hkeeps, -⟩ before record after hsplit hdns
    exact (EventProcessor.sameConnections_dns_iff record.1 hdns).mp
      (hkeeps before record after hsplit hdns) hdns
  · intro hknown
    refine ⟨fun before record after hsplit hdns => ?_, fun before after hsplit => ?_⟩
    · exact (EventProcessor.sameConnections_dns_iff record.1 hdns).mpr
        (hknown before record after hsplit)
    · have hbefore : ∀ earlier record later, before = earlier ++ record :: later →
          DnsOnKnown ((EventProcessor.new config).afterRecords lib earlier) record.2.raw := by
        rintro earlier record later rfl
        exact hknown earlier record (later ++ after) (by simp [hsplit])
      generalize hp : (EventProcessor.new config).afterRecords lib before = p
      have hnodup : p.connections.keys.Nodup := p.connections.nodup
      calc p.connections.size = p.connections.keys.toFinset.card := by
            rw [List.toFinset_card_of_nodup hnodup, Table.keys, List.length_map, Table.size]
        _ = (p.connections.keys.toFinset : Set ConnectionKey).ncard :=
            (Set.ncard_coe_finset _).symm
        _ ≤ {key | SeenSince before key}.ncard := by
            refine Set.ncard_le_ncard (fun key hkey => ?_) (EventProcessor.finite_seenSince before)
            have hentry : p.connections.get? key ≠ none := by
              rw [Ne, Table.get?_eq_none_iff, not_not]
              simpa using hkey
            rw [← hp] at hentry
            exact EventProcessor.seenSince_of_entry hbefore hentry

/-- The record of a DNS message without questions. -/
def dnsRecord : Record :=
  (fun _ => .silent,
    { raw :=
        { KernelEvent.ofChunk 1 7 8 0 [0, 1, 0, 0, 0, 0, 0, 0, 0, 0, 0, 0] with
          eventType := EVENT_DNS_CHUNK } })

/-- A single DNS record creates an entry, although no connection has appeared. -/
theorem dnsRecord_creates_entry :
    ¬DnsKeeps (.ofDigests sampleDigests) .sample [dnsRecord] ∧
      ¬EntriesBounded (.ofDigests sampleDigests) .sample [dnsRecord] := by
  have hsize : ((EventProcessor.new .sample).afterRecords (.ofDigests sampleDigests)
      [dnsRecord]).connections.size = 1 := by
    decide +kernel
  constructor
  · intro hkeeps
    have hsame := congrArg Table.size (hkeeps [] dnsRecord [] rfl rfl).1
    exact absurd (hsize.symm.trans hsame) (by decide)
  · intro hbounded
    have hle := hbounded [dnsRecord] [] rfl
    have hnone : {key | SeenSince [dnsRecord] key} = ∅ := by
      refine Set.eq_empty_of_forall_notMem ?_
      rintro key ⟨before, record, after, hsplit, hreports, -⟩
      have hmem : record ∈ [dnsRecord] := by
        rw [hsplit]
        simp
      obtain rfl := List.mem_singleton.mp hmem
      exact absurd hreports (by unfold reportsConnection; decide)
    rw [hsize, hnone, Set.ncard_empty] at hle
    exact absurd hle (by decide)

end MongoDam.Observer
