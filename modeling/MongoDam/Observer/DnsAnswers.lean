import MongoDam.Lib.LastWrite
import MongoDam.Observer.DnsNames
import MongoDam.Observer.Runs

/-!
# The query a DNS response answers

A query waits under its process, its connection and its identifier until a message
with the same identifier, the end of the connection or the end of the process comes.
A response is reported with the query that waits for it: the one whose message is the
last of its transaction. Only a sensor that saw more queries than it remembers may
miss it.
-/

namespace MongoDam.Observer

open Lib Schema EventProcessor

/-- The DNS message of a record. -/
def dnsMessageOf (raw : KernelEvent) : Option DecodedDnsMessage :=
  if raw.eventType = EVENT_DNS_CHUNK then
    (decodeDnsMessage (raw.data.take (capturedLength raw))).toOption
  else none

/-- The transaction a message belongs to. -/
def dnsTransaction (raw : KernelEvent) (message : DecodedDnsMessage) : DnsKey :=
  (raw.tgid, raw.connectionKey, message.queryId)

/-- What is remembered of a query. -/
def dnsQuery (raw : KernelEvent) (message : DecodedDnsMessage) : PendingDnsQuery :=
  ⟨raw.timestampNs, message.name, message.recordType⟩

/-- The record is a query. -/
def isDnsQuery (raw : KernelEvent) : Bool := (dnsMessageOf raw).any fun message => !message.response

/-- The record puts the query under the transaction. -/
def Asks (key : DnsKey) (query : PendingDnsQuery) (raw : KernelEvent) : Prop :=
  ∃ message, dnsMessageOf raw = some message ∧ message.response = false ∧
    dnsTransaction raw message = key ∧ dnsQuery raw message = query

/-- The record ends what the transaction was: a message of the transaction, or the end
of its connection or process. -/
def Settles (key : DnsKey) (raw : KernelEvent) : Prop :=
  (∃ message, dnsMessageOf raw = some message ∧ dnsTransaction raw message = key) ∨
    closesConnection raw (key.1, key.2.1) ∨ exitsProcess raw key.1

/-- The query was the last message of its transaction, on a connection that is still
the same one. -/
def AskedSince (raws : List KernelEvent) (key : DnsKey) (query : PendingDnsQuery) : Prop :=
  ∃ older raw later, raws = older ++ raw :: later ∧ Asks key query raw ∧
    ∀ record ∈ later, ¬ Settles key record

/-- The activity reports the response: the name and the type of its own question, or without one
those of the query it answers. -/
structure Answers (raw : KernelEvent) (message : DecodedDnsMessage)
    (found : Option PendingDnsQuery) (activity : DnsActivity) : Prop where
  operation : activity.operation = "response"
  queryId : activity.queryId = message.queryId
  responseCode : activity.responseCode = some message.responseCode
  answerCount : activity.answerCount = some message.answerCount
  name : activity.name = message.name.or (found.bind (·.name))
  recordType : activity.recordType = message.recordType.or (found.bind (·.recordType))
  durationUs : activity.durationUs =
    found.map fun query => (raw.timestampNs - query.timestampNs) / 1000

/-! ### The table of queries along a run -/

/-- The queries that still wait when a new one needs room. -/
def dnsRoom (pending : Table DnsKey PendingDnsQuery) (raw : KernelEvent) :
    Table DnsKey PendingDnsQuery :=
  if pending.size < 4096 then pending
  else
    let retained := pending.filter
      (fun _ query => raw.timestampNs - 30000000000 ≤ query.timestampNs)
    if retained.size < 4096 then retained else .empty

/-- The queries that wait after a record. -/
def dnsAfter (pending : Table DnsKey PendingDnsQuery) (raw : KernelEvent) :
    Table DnsKey PendingDnsQuery :=
  match dnsMessageOf raw with
  | some message =>
    if message.response then pending.erase (dnsTransaction raw message)
    else (dnsRoom pending raw).insert (dnsTransaction raw message) (dnsQuery raw message)
  | none =>
    pending.filter fun k _ =>
      decide (¬ (closesConnection raw (k.1, k.2.1) ∨ exitsProcess raw k.1))

variable {lib : External} {pending : Table DnsKey PendingDnsQuery} {raw : KernelEvent}
  {key : DnsKey} {query : PendingDnsQuery}

/-- Making room only removes queries. -/
theorem get?_dnsRoom (h : (dnsRoom pending raw).get? key = some query) :
    pending.get? key = some query := by
  unfold dnsRoom at h
  split at h
  · exact h
  · dsimp only at h
    split at h
    · rw [Table.get?_filter, Option.filter_eq_some_iff] at h
      exact h.1
    · cases h

theorem size_dnsRoom_le : (dnsRoom pending raw).size ≤ pending.size := by
  unfold dnsRoom
  dsimp only
  split
  · exact Nat.le_refl _
  · split
    · exact Table.size_filter_le _ _
    · exact Nat.zero_le _

/-- A query that waits was put there by the record, or the record left it alone. -/
theorem asks_or_keeps (h : (dnsAfter pending raw).get? key = some query) :
    Asks key query raw ∨ ¬ Settles key raw ∧ pending.get? key = some query := by
  unfold dnsAfter at h
  cases hmessage : dnsMessageOf raw with
  | none =>
    simp only [hmessage, Table.get?_filterKey] at h
    split at h
    · next hkept =>
      refine .inr ⟨?_, h⟩
      rintro (⟨message, hfound, -⟩ | hgone)
      · cases hmessage.symm.trans hfound
      · exact of_decide_eq_true hkept hgone
    · cases h
  | some message =>
    have hother : dnsTransaction raw message ≠ key → ¬ Settles key raw := by
      rintro hne (⟨other, hfound, hsame⟩ | ⟨hclose, -⟩ | ⟨hexit, -⟩)
      · cases hmessage.symm.trans hfound
        exact hne hsame
      all_goals
        unfold dnsMessageOf at hmessage
        simp_all [EVENT_CONNECTION, EVENT_PROCESS, EVENT_DNS_CHUNK]
    simp only [hmessage] at h
    split at h
    · rw [Table.get?_erase] at h
      split at h
      · cases h
      · next hne => exact .inr ⟨hother fun hsame => hne hsame.symm, h⟩
    · next hquery =>
      rw [Table.get?_insert] at h
      split at h
      · next hsame =>
        exact .inl ⟨message, hmessage, by simpa using hquery, hsame.symm, Option.some.inj h⟩
      · next hne => exact .inr ⟨hother fun hsame => hne hsame.symm, get?_dnsRoom h⟩

theorem size_dnsAfter_le :
    (dnsAfter pending raw).size ≤ pending.size + if isDnsQuery raw then 1 else 0 := by
  unfold dnsAfter isDnsQuery
  cases dnsMessageOf raw with
  | none => exact Nat.le_add_right_of_le (Table.size_filter_le _ _)
  | some message =>
    cases hresponse : message.response with
    | true =>
      simp only [hresponse, if_true]
      exact Nat.le_add_right_of_le (Table.size_filter_le _ _)
    | false =>
      have hinsert := (dnsRoom pending raw).size_insert_le (dnsTransaction raw message)
        (dnsQuery raw message)
      have hroom := @size_dnsRoom_le pending raw
      simp only [hresponse, Option.any_some, Bool.not_false, Bool.false_eq_true, if_true, if_false]
      omega

/-- No more queries wait than there have been. -/
theorem size_after_le (raws : List KernelEvent) :
    (after dnsAfter .empty raws).size ≤ raws.countP isDnsQuery := by
  induction raws using List.reverseRecOn with
  | nil => exact Nat.le_refl 0
  | append_singleton raws raw ih =>
    rw [after_concat, List.countP_append, List.countP_singleton]
    exact Nat.le_trans size_dnsAfter_le (Nat.add_le_add_right ih _)

/-- A query finds room. -/
def Spacious (pending : Table DnsKey PendingDnsQuery) (raw : KernelEvent) : Prop :=
  isDnsQuery raw = true → pending.size < 4096

/-- A run with few queries has room for each of them. -/
theorem along_spacious {raws : List KernelEvent} (hfew : raws.countP isDnsQuery ≤ 4096) :
    Along dnsAfter Spacious .empty raws := by
  apply along_of_at
  rintro older raw later rfl hquery
  have hsize := size_after_le older
  rw [List.countP_append, List.countP_cons, if_pos hquery] at hfew
  omega

theorem dnsRoom_of_spacious (hspacious : Spacious pending raw) (hquery : isDnsQuery raw = true) :
    dnsRoom pending raw = pending := if_pos (hspacious hquery)

/-- A query that is asked waits. -/
theorem get?_of_asks (hasks : Asks key query raw) :
    (dnsAfter pending raw).get? key = some query := by
  obtain ⟨message, hmessage, hquery, rfl, rfl⟩ := hasks
  simp [dnsAfter, hmessage, hquery]

/-- A query goes on waiting while its transaction is left alone and there is room. -/
theorem get?_of_keeps (hspacious : Spacious pending raw) (hkeeps : ¬ Settles key raw)
    (hwaits : pending.get? key = some query) : (dnsAfter pending raw).get? key = some query := by
  cases hmessage : dnsMessageOf raw with
  | none =>
    have hopen : ¬ (closesConnection raw (key.1, key.2.1) ∨ exitsProcess raw key.1) :=
      fun hgone => hkeeps (.inr hgone)
    rw [not_or] at hopen
    simp [dnsAfter, hmessage, Table.get?_filterKey, hwaits, hopen]
  | some message =>
    have hne : key ≠ dnsTransaction raw message :=
      fun hsame => hkeeps (.inl ⟨message, hmessage, hsame.symm⟩)
    cases hresponse : message.response with
    | true => simp [dnsAfter, hmessage, hresponse, Table.get?_erase_of_ne _ hne, hwaits]
    | false =>
      have hroom := dnsRoom_of_spacious hspacious (by simp [isDnsQuery, hmessage, hresponse])
      simp [dnsAfter, hmessage, hresponse, hroom, Table.get?_insert_of_ne _ _ hne, hwaits]

/-- The query whose transaction is open, in the terms of runs. -/
theorem askedSince_iff {raws : List KernelEvent} :
    AskedSince raws key query ↔
      Since dnsAfter (fun _ raw => Asks key query raw) (fun _ raw => ¬ Settles key raw) .empty
        raws := by
  constructor
  · rintro ⟨older, raw, later, rfl, hasks, hkeeps⟩
    refine ⟨older, raw, later, rfl, hasks, along_of_at ?_⟩
    rintro first record rest rfl
    exact hkeeps record (by simp)
  · rintro ⟨older, raw, later, rfl, hasks, halong⟩
    refine ⟨older, raw, later, rfl, hasks, fun record hrecord => ?_⟩
    obtain ⟨first, rest, rfl⟩ := List.append_of_mem hrecord
    exact halong.at

/-- A query that waits was the last message of its transaction. -/
theorem askedSince_of_waits {raws : List KernelEvent}
    (h : (after dnsAfter .empty raws).get? key = some query) : AskedSince raws key query := by
  rw [askedSince_iff]
  exact Since.of_register (fun pending : Table DnsKey PendingDnsQuery => pending.get? key)
    (fun query _ raw => Asks key query raw) (fun _ _ _ => asks_or_keeps) rfl h

/-- The last message of a transaction waits when it was a query and there was room. -/
theorem waits_of_askedSince {raws : List KernelEvent} (hfew : raws.countP isDnsQuery ≤ 4096)
    (h : AskedSince raws key query) : (after dnsAfter .empty raws).get? key = some query := by
  rw [askedSince_iff] at h
  exact h.register (fun pending : Table DnsKey PendingDnsQuery => pending.get? key)
    (fun _ _ _ => get?_of_asks) (fun _ _ => get?_of_keeps) (along_spacious hfew)

/-! ### The processor keeps this table -/

theorem processMessages_pendingDns (truncated : Bool) (p : EventProcessor)
    (messages : List (Host × Protocol.DecodedMessage)) :
    (processMessages lib raw truncated p messages).1.pendingDns = p.pendingDns := by
  induction messages generalizing p with
  | nil => rfl
  | cons message rest ih =>
    rw [processMessages]
    exact (ih _).trans (processMessage_pendingDns ..)

theorem processIoChunk_pendingDns (p : EventProcessor) (hosts : ℕ → Host)
    (captured : CapturedKernelEvent) :
    (p.processIoChunk lib hosts captured).1.pendingDns = p.pendingDns := by
  obtain ⟨streams, hdecode⟩ := p.decodeChunk_fst lib captured.raw
  unfold processIoChunk
  rcases hresult : p.decodeChunk lib captured.raw with ⟨q, result⟩
  rw [hresult] at hdecode
  dsimp only at hdecode
  subst hdecode
  cases result with
  | error e => rfl
  | ok messages =>
    dsimp only
    rw [processMessages_pendingDns]

/-- A record that is neither a DNS message nor an end leaves the queries waiting. -/
private theorem dnsAfter_of_quiet (hmessage : dnsMessageOf raw = none)
    (hopen : ∀ key : DnsKey, ¬ (closesConnection raw (key.1, key.2.1) ∨ exitsProcess raw key.1)) :
    dnsAfter pending raw = pending := by
  simp only [dnsAfter, hmessage]
  exact Table.filter_eq_self _ fun k _ => decide_eq_true (hopen k)

theorem processConnection_pendingDns (p : EventProcessor) (host : Host)
    {captured : CapturedKernelEvent} (htype : captured.raw.eventType = EVENT_CONNECTION) :
    (p.processConnection lib host captured).1.pendingDns = dnsAfter p.pendingDns captured.raw := by
  have hmessage : dnsMessageOf captured.raw = none := by
    simp [dnsMessageOf, htype, EVENT_CONNECTION, EVENT_DNS_CHUNK]
  have hexit : ∀ tgid, ¬ exitsProcess captured.raw tgid := by
    simp [exitsProcess, htype, EVENT_CONNECTION, EVENT_PROCESS]
  unfold processConnection
  dsimp only
  by_cases hclose : captured.raw.operation = OP_TCP_CLOSE
  · have hreport : connectionReport captured.raw = some ("closed", none, none) := by
      simp [connectionReport, hclose, OP_TCP_CONNECT, OP_TCP_ACCEPT, OP_TCP_CLOSE]
    simp only [hreport, hclose, if_true, event_fst, forgetConnection,
      connectionMetadata_pendingDns, updateConnection_pendingDns, dnsAfter, hmessage,
      closesConnection, htype, true_and, hexit, or_false, ne_eq,
      eq_comm (a := captured.raw.key)]
  · rw [dnsAfter_of_quiet hmessage (by simp [closesConnection, hclose, hexit])]
    simp only [hclose, if_false]
    split
    · rfl
    · simp only [event_fst, connectionMetadata_pendingDns, updateConnection_pendingDns]

theorem processLifecycle_pendingDns (p : EventProcessor) (host : Host)
    {captured : CapturedKernelEvent} (htype : captured.raw.eventType = EVENT_PROCESS) :
    (p.processLifecycle lib host captured).1.pendingDns = dnsAfter p.pendingDns captured.raw := by
  have hmessage : dnsMessageOf captured.raw = none := by
    simp [dnsMessageOf, htype, EVENT_PROCESS, EVENT_DNS_CHUNK]
  have hclose : ∀ key, ¬ closesConnection captured.raw key := by
    simp [closesConnection, htype, EVENT_CONNECTION, EVENT_PROCESS]
  unfold processLifecycle
  dsimp only
  by_cases hexit : captured.raw.operation = OP_PROCESS_EXIT
  · simp only [hexit, or_true, if_true, event_fst, forgetProcess, dnsAfter, hmessage, hclose,
      exitsProcess, htype, true_and, false_or, ne_eq, eq_comm (a := captured.raw.tgid)]
  · rw [dnsAfter_of_quiet hmessage (by simp [exitsProcess, hexit, hclose])]
    simp only [hexit, or_false, if_false]
    split <;> rfl

theorem processDns_pendingDns (p : EventProcessor) (host : Host) {captured : CapturedKernelEvent}
    (htype : captured.raw.eventType = EVENT_DNS_CHUNK) :
    (p.processDns lib host captured).1.pendingDns = dnsAfter p.pendingDns captured.raw := by
  unfold processDns
  dsimp only
  cases hdecode : decodeDnsMessage (captured.raw.data.take (capturedLength captured.raw)) with
  | error e =>
    have hmessage : dnsMessageOf captured.raw = none := by
      simp [dnsMessageOf, hdecode, Except.toOption]
    rw [dnsAfter_of_quiet hmessage]
    simp [closesConnection, exitsProcess, htype, EVENT_CONNECTION, EVENT_PROCESS, EVENT_DNS_CHUNK]
  | ok message =>
    have hmessage : dnsMessageOf captured.raw = some message := by
      simp [dnsMessageOf, htype, hdecode, Except.toOption]
    simp only [event_fst, connectionMetadata_pendingDns, dnsAfter, hmessage]
    split <;> rfl

/-- Handling a record is one step of the table. -/
theorem process_pendingDns (p : EventProcessor) (hosts : ℕ → Host)
    (captured : CapturedKernelEvent) :
    (p.process lib hosts captured).1.pendingDns = dnsAfter p.pendingDns captured.raw := by
  have hquiet (hdns : captured.raw.eventType ≠ EVENT_DNS_CHUNK)
      (hconnection : captured.raw.eventType ≠ EVENT_CONNECTION)
      (hprocess : captured.raw.eventType ≠ EVENT_PROCESS) :
      dnsAfter p.pendingDns captured.raw = p.pendingDns := by
    apply dnsAfter_of_quiet
    · simp [dnsMessageOf, hdns]
    · simp [closesConnection, exitsProcess, hconnection, hprocess]
  unfold process
  by_cases hchunk : captured.raw.eventType = EVENT_IO_CHUNK
  · rw [if_pos hchunk, processIoChunk_pendingDns, hquiet] <;> rw [hchunk] <;> decide
  rw [if_neg hchunk]
  unfold processRecord succeed
  dsimp only
  by_cases hlatency : captured.raw.eventType = EVENT_SYSCALL_LATENCY
  · rw [if_pos hlatency, hquiet]
    · unfold processLatency
      dsimp only
      split
      · rfl
      · split <;> rfl
    all_goals
      rw [hlatency]
      decide
  rw [if_neg hlatency]
  by_cases hconnection : captured.raw.eventType = EVENT_CONNECTION
  · rw [if_pos hconnection]
    exact processConnection_pendingDns p (hosts 0) hconnection
  rw [if_neg hconnection]
  by_cases hprofile : captured.raw.eventType = EVENT_PROFILE
  · rw [if_pos hprofile, hquiet]
    · unfold processProfile
      dsimp only
      split
      · rfl
      · split <;> rfl
    all_goals
      rw [hprofile]
      decide
  rw [if_neg hprofile]
  by_cases hprocess : captured.raw.eventType = EVENT_PROCESS
  · rw [if_pos hprocess]
    exact processLifecycle_pendingDns p (hosts 0) hprocess
  rw [if_neg hprocess]
  by_cases hdns : captured.raw.eventType = EVENT_DNS_CHUNK
  · rw [if_pos hdns]
    exact processDns_pendingDns p (hosts 0) hdns
  · rw [if_neg hdns, hquiet hdns hconnection hprocess]

/-- The table after the records of a run. -/
theorem afterRecords_pendingDns (config : ProcessorConfig) (records : List Record) :
    ((EventProcessor.new config).afterRecords lib records).pendingDns =
      after dnsAfter .empty (records.map (·.2.raw)) := by
  induction records using List.reverseRecOn with
  | nil => rfl
  | append_singleton records record ih =>
    rw [afterRecords, List.foldl_append, List.map_append, List.map_singleton, after_concat, ← ih]
    exact process_pendingDns ..

/-! ### Responses -/

/-- A response is reported with the query found under its transaction. -/
theorem process_response (lib : External) (p : EventProcessor) (hosts : ℕ → Host)
    {captured : CapturedKernelEvent} {message : DecodedDnsMessage}
    (hmessage : dnsMessageOf captured.raw = some message) (hresponse : message.response = true) :
    ∃ event activity, (p.process lib hosts captured).2 = .ok [event] ∧
      event.payload = .dnsActivity activity ∧
      Answers captured.raw message
        (p.pendingDns.get? (dnsTransaction captured.raw message)) activity := by
  unfold dnsMessageOf at hmessage
  split at hmessage
  · next htype =>
    cases hdecode : decodeDnsMessage (captured.raw.data.take (capturedLength captured.raw)) with
    | error e =>
      rw [hdecode] at hmessage
      cases hmessage
    | ok decoded =>
      rw [hdecode] at hmessage
      cases hmessage
      simp only [process, processRecord, processDns, htype, hdecode, hresponse, if_true]
      refine ⟨_, _, rfl, rfl, ?_⟩
      constructor <;> rfl
  · cases hmessage

/-- A DNS response is reported once, with the query it answers: only a query that was
asked of the same process, connection and identifier and is not settled since, and that
query whenever the sensor has seen no more queries than it remembers. -/
theorem responses_answer_queries (lib : External) (config : ProcessorConfig)
    (records : List Record) (hosts : ℕ → Host) (captured : CapturedKernelEvent)
    {message : DecodedDnsMessage} (hmessage : dnsMessageOf captured.raw = some message)
    (hresponse : message.response = true) :
    ∃ event activity found,
      (((EventProcessor.new config).afterRecords lib records).process lib hosts captured).2 =
        .ok [event] ∧
      event.payload = .dnsActivity activity ∧ Answers captured.raw message found activity ∧
      (∀ query, found = some query → AskedSince (records.map (·.2.raw))
        (dnsTransaction captured.raw message) query) ∧
      ((records.map (·.2.raw)).countP isDnsQuery ≤ 4096 → ∀ query,
        AskedSince (records.map (·.2.raw)) (dnsTransaction captured.raw message) query →
          found = some query) := by
  obtain ⟨event, activity, hevents, hpayload, hanswers⟩ := process_response lib
    ((EventProcessor.new config).afterRecords lib records) hosts hmessage hresponse
  rw [afterRecords_pendingDns] at hanswers
  exact ⟨event, activity, _, hevents, hpayload, hanswers, fun _ => askedSince_of_waits,
    fun hfew _ => waits_of_askedSince hfew⟩

/-- The name of one letter. -/
private def letterName (c : Char) (hc : isNameCharacter c = true) : DnsName :=
  ⟨[⟨[c], List.cons_ne_nil _ _, by simp, by simp [hc]⟩], by simp [nameLength]⟩

/-- A DNS message with at most one question, in a record of its own. -/
def sampleDns (timestampNs : ℕ) (flags questionCount : UInt8) (question : Bytes) : KernelEvent :=
  { KernelEvent.ofChunk timestampNs 7 9 0
      ([0, 5, flags, 0, 0, questionCount, 0, 1, 0, 0, 0, 0] ++ question) with
    eventType := EVENT_DNS_CHUNK }

/-- A question for the address of `a`. -/
private def sampleAsks : KernelEvent :=
  sampleDns 1000 1 1 ((letterName 'a' rfl).encode ++ [0, 1, 0, 1])

/-- A response with a question of its own, for another name and type. -/
private def sampleEchoes : KernelEvent :=
  sampleDns 8000 129 1 ((letterName 'b' rfl).encode ++ [0, 28, 0, 1])

/-- A response without a question. -/
private def sampleReplies : KernelEvent := sampleDns 9000 129 0 []

private theorem parseDnsName_letter {header : Bytes} (hheader : header.length = 12) {c : Char}
    (hc : isNameCharacter c = true) (rest : Bytes) :
    parseDnsName (header ++ ((letterName c hc).encode ++ rest)) 12 =
      .ok (toAsciiLowercase (letterName c hc).text, 15) := by
  have hname := (letterName c hc).parsed ((letterName c hc).nameAt_encode header rest)
    (Nat.zero_le _)
  rwa [hheader] at hname

private theorem dnsMessageOf_sampleAsks :
    dnsMessageOf sampleAsks = some ⟨5, false, 0, 1, some "a", some "A"⟩ := by
  have hbytes : sampleAsks.data.take (capturedLength sampleAsks) =
      [0, 5, 1, 0, 0, 1, 0, 1, 0, 0, 0, 0] ++ ((letterName 'a' rfl).encode ++ [0, 1, 0, 1]) := by
    decide +kernel
  rw [dnsMessageOf, if_pos (by rfl), hbytes, decodeDnsMessage, if_neg (by decide),
    parseDnsName_letter rfl rfl]
  decide +kernel

private theorem dnsMessageOf_sampleEchoes :
    dnsMessageOf sampleEchoes = some ⟨5, true, 0, 1, some "b", some "AAAA"⟩ := by
  have hbytes : sampleEchoes.data.take (capturedLength sampleEchoes) =
      [0, 5, 129, 0, 0, 1, 0, 1, 0, 0, 0, 0] ++ ((letterName 'b' rfl).encode ++ [0, 28, 0, 1]) := by
    decide +kernel
  rw [dnsMessageOf, if_pos (by rfl), hbytes, decodeDnsMessage, if_neg (by decide),
    parseDnsName_letter rfl rfl]
  decide +kernel

private theorem dnsMessageOf_sampleReplies :
    dnsMessageOf sampleReplies = some ⟨5, true, 0, 1, none, none⟩ := by
  decide +kernel

/-- The two responses are reported with the query they answer: the name and the type are those
of the response's own question, and without one those of the query. -/
theorem sample_answered :
    (∃ event activity, (((EventProcessor.new .sample).afterRecords (.ofDigests [])
        [(fun _ => .silent, ⟨sampleAsks, [], []⟩)]).process (.ofDigests [])
          (fun _ => .silent) ⟨sampleEchoes, [], []⟩).2 = .ok [event] ∧
      event.payload = .dnsActivity activity ∧ activity.name = some "b" ∧
      activity.recordType = some "AAAA" ∧ activity.durationUs = some 7) ∧
    ∃ event activity, (((EventProcessor.new .sample).afterRecords (.ofDigests [])
        [(fun _ => .silent, ⟨sampleAsks, [], []⟩)]).process (.ofDigests [])
          (fun _ => .silent) ⟨sampleReplies, [], []⟩).2 = .ok [event] ∧
      event.payload = .dnsActivity activity ∧ activity.name = some "a" ∧
      activity.recordType = some "A" ∧ activity.durationUs = some 8 := by
  have hwaits : AskedSince [sampleAsks] (7, 9, 5) ⟨1000, some "a", some "A"⟩ :=
    ⟨[], sampleAsks, [], rfl, ⟨_, dnsMessageOf_sampleAsks, rfl, rfl, rfl⟩, nofun⟩
  have hfew : [sampleAsks].countP isDnsQuery ≤ 4096 :=
    Nat.le_trans List.countP_le_length (by decide)
  constructor
  · obtain ⟨event, activity, found, hevents, hpayload, hanswers, -, hcomplete⟩ :=
      responses_answer_queries (.ofDigests []) .sample [(fun _ => .silent, ⟨sampleAsks, [], []⟩)]
        (fun _ => .silent) ⟨sampleEchoes, [], []⟩ dnsMessageOf_sampleEchoes rfl
    obtain rfl := hcomplete hfew _ hwaits
    exact ⟨event, activity, hevents, hpayload, hanswers.name, hanswers.recordType,
      hanswers.durationUs⟩
  · obtain ⟨event, activity, found, hevents, hpayload, hanswers, -, hcomplete⟩ :=
      responses_answer_queries (.ofDigests []) .sample [(fun _ => .silent, ⟨sampleAsks, [], []⟩)]
        (fun _ => .silent) ⟨sampleReplies, [], []⟩ dnsMessageOf_sampleReplies rfl
    obtain rfl := hcomplete hfew _ hwaits
    exact ⟨event, activity, hevents, hpayload, hanswers.name, hanswers.recordType,
      hanswers.durationUs⟩

end MongoDam.Observer
