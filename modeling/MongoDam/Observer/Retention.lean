import MongoDam.Observer.Framing
import MongoDam.Protocol.Buffering

/-!
# What the processor retains

Requests wait for responses and DNS queries for answers, and captured bytes wait
for the rest of their frame. Each of these stores is bounded in every state of
every run. A full table of requests gives up its oldest entries: whatever pruning
evicts is at most as recent as whatever it keeps.
-/

namespace MongoDam.Observer

open Lib Schema Protocol

/-! ### Pruning -/

section Oldest

variable {κ : Type} {better : Option (κ × ℕ) → κ × ℕ → Option (κ × ℕ)}

/-- A search that keeps the earlier of two entries, from the best one found so far. -/
private theorem foldl_oldest
    (hbetter : ∀ found entry, better (some found) entry =
      if entry.2 < found.2 then some entry else some found)
    (entries : List (κ × ℕ)) (found : κ × ℕ) :
    ∃ oldest, entries.foldl better (some found) = some oldest ∧
      (oldest = found ∨ oldest ∈ entries) ∧ oldest.2 ≤ found.2 ∧
      ∀ entry ∈ entries, oldest.2 ≤ entry.2 := by
  induction entries generalizing found with
  | nil => exact ⟨found, rfl, Or.inl rfl, Nat.le_refl _, by simp⟩
  | cons entry rest ih =>
    rw [List.foldl_cons, hbetter]
    split
    · next hlt =>
      obtain ⟨oldest, hfold, hmem, hentry, hrest⟩ := ih entry
      refine ⟨oldest, hfold, Or.inr (List.mem_cons.mpr hmem), by omega, ?_⟩
      exact List.forall_mem_cons.mpr ⟨hentry, hrest⟩
    · next hle =>
      obtain ⟨oldest, hfold, hmem, hfound, hrest⟩ := ih found
      refine ⟨oldest, hfold, hmem.imp id (List.mem_cons_of_mem _), hfound, ?_⟩
      exact List.forall_mem_cons.mpr ⟨by omega, hrest⟩

/-- The search over some entries finds an entry that is no later than any other. -/
private theorem foldl_oldest_cons {result : Option (κ × ℕ)} {entry : κ × ℕ}
    {rest : List (κ × ℕ)} (h : (entry :: rest).foldl better none = result)
    (hfirst : better none entry = some entry)
    (hbetter : ∀ found entry, better (some found) entry =
      if entry.2 < found.2 then some entry else some found) :
    ∃ oldest, result = some oldest ∧ oldest ∈ entry :: rest ∧
      ∀ other ∈ entry :: rest, oldest.2 ≤ other.2 := by
  obtain ⟨oldest, hfold, hmem, hentry, hrest⟩ := foldl_oldest hbetter rest entry
  rw [List.foldl_cons, hfirst, hfold] at h
  exact ⟨oldest, h.symm, List.mem_cons.mpr hmem, List.forall_mem_cons.mpr ⟨hentry, hrest⟩⟩

end Oldest

section Pruning

variable {ρ : Type} (timestamp : ρ → ℕ) (host : Host) (nowNs : ℕ)

/-- The oldest entry is one of the entries, and no entry is older. -/
theorem oldestPending_eq_some {pending : Table PendingKey ρ} {oldest : PendingKey}
    (h : EventProcessor.oldestPending timestamp host pending = some oldest) :
    ∃ request, pending.get? oldest = some request ∧
      ∀ key other, pending.get? key = some other → timestamp request ≤ timestamp other := by
  unfold EventProcessor.oldestPending at h
  have hentries : ∀ entry, entry ∈ (host.pendingOrder.visit pending.keys).filterMap
      (fun key => (pending.get? key).map (fun request => (key, timestamp request))) ↔
        ∃ request, pending.get? entry.1 = some request ∧ entry.2 = timestamp request := by
    rintro ⟨key, time⟩
    rw [List.mem_filterMap]
    constructor
    · rintro ⟨visited, -, hget⟩
      obtain ⟨request, hrequest, heq⟩ := Option.map_eq_some_iff.mp hget
      obtain ⟨rfl, rfl⟩ := Prod.mk.inj heq
      exact ⟨request, hrequest, rfl⟩
    · rintro ⟨request, hrequest, rfl⟩
      refine ⟨key, (host.pendingOrder.visit_perm _).mem_iff.mpr ?_, by rw [hrequest]; rfl⟩
      exact List.mem_map.mpr ⟨_, Table.get?_eq_some_iff.mp hrequest, rfl⟩
  revert h hentries
  generalize (host.pendingOrder.visit pending.keys).filterMap
    (fun key => (pending.get? key).map (fun request => (key, timestamp request))) = entries
  intro h hentries
  cases entries with
  | nil => cases h
  | cons entry rest =>
    obtain ⟨best, hbest, rfl⟩ := Option.map_eq_some_iff.mp h
    obtain ⟨found, hfound, hmem, hleast⟩ := foldl_oldest_cons hbest rfl (fun _ _ => rfl)
    obtain rfl : best = found := Option.some.inj hfound
    obtain ⟨request, hrequest, htime⟩ := (hentries best).mp hmem
    refine ⟨request, hrequest, fun key other hother => ?_⟩
    rw [← htime]
    exact hleast (key, timestamp other) ((hentries _).mpr ⟨other, hother, rfl⟩)

/-- A table with entries has an oldest one. -/
theorem oldestPending_ne_none {pending : Table PendingKey ρ} (h : 0 < pending.size) :
    EventProcessor.oldestPending timestamp host pending ≠ none := by
  intro hnone
  obtain ⟨e, he⟩ := List.exists_mem_of_length_pos h
  have hvisited : e.1 ∈ host.pendingOrder.visit pending.keys :=
    (host.pendingOrder.visit_perm _).mem_iff.mpr (List.mem_map_of_mem he)
  have hentry : (e.1, timestamp e.2) ∈ (host.pendingOrder.visit pending.keys).filterMap
      (fun key => (pending.get? key).map (fun request => (key, timestamp request))) :=
    List.mem_filterMap.mpr ⟨e.1, hvisited, by rw [Table.get?_eq_some_iff.mpr he]; rfl⟩
  unfold EventProcessor.oldestPending at hnone
  revert hnone hentry
  generalize (host.pendingOrder.visit pending.keys).filterMap
    (fun key => (pending.get? key).map (fun request => (key, timestamp request))) = entries
  intro hnone hentry
  cases entries with
  | nil => cases hentry
  | cons entry rest =>
    obtain ⟨found, hfound, -⟩ :=
      foldl_oldest_cons (Option.map_eq_none_iff.mp hnone) rfl (fun _ _ => rfl)
    cases hfound

/-- Pruning makes room for one more request. -/
theorem size_prunedPending_lt {pending : Table PendingKey ρ}
    (h : pending.size ≤ MAX_PENDING_REQUESTS) :
    (EventProcessor.prunedPending timestamp host nowNs pending).size < MAX_PENDING_REQUESTS := by
  unfold EventProcessor.prunedPending
  split
  · assumption
  · dsimp only
    split
    · assumption
    · next hfull =>
      have hretained := Table.size_filter_le pending
        (fun _ request => decide (nowNs - PENDING_REQUEST_TTL_NS ≤ timestamp request))
      revert hfull hretained
      generalize pending.filter (fun _ request =>
        decide (nowNs - PENDING_REQUEST_TTL_NS ≤ timestamp request)) = retained
      intro hfull hretained
      split
      · next hnone =>
        refine absurd hnone (oldestPending_ne_none timestamp host ?_)
        have hpositive : 0 < MAX_PENDING_REQUESTS := by decide
        omega
      · next oldest holdest =>
        obtain ⟨request, hrequest, -⟩ := oldestPending_eq_some timestamp host holdest
        have hmem : oldest ∈ retained.keys :=
          List.mem_map.mpr ⟨_, Table.get?_eq_some_iff.mp hrequest, rfl⟩
        have hlt := Table.size_erase_lt hmem
        omega

/-- An evicted request is at most as recent as a request that remains. -/
theorem prunedPending_evicts_oldest {pending : Table PendingKey ρ} {gone kept : PendingKey}
    {evicted remaining : ρ} (hgone : pending.get? gone = some evicted)
    (hevicted : (EventProcessor.prunedPending timestamp host nowNs pending).get? gone = none)
    (hkept : (EventProcessor.prunedPending timestamp host nowNs pending).get? kept =
      some remaining) :
    timestamp evicted ≤ timestamp remaining := by
  unfold EventProcessor.prunedPending at hevicted hkept
  split at hevicted
  · rw [hgone] at hevicted
    cases hevicted
  · next hlarge =>
    rw [if_neg hlarge] at hkept
    dsimp only at hevicted hkept
    -- whatever the age test drops is older than the cutoff, and whatever it keeps is not
    have hdropped : (pending.filter (fun _ request =>
        decide (nowNs - PENDING_REQUEST_TTL_NS ≤ timestamp request))).get? gone = none →
          timestamp evicted < nowNs - PENDING_REQUEST_TTL_NS := by
      intro hnone
      rw [Table.get?_filter, hgone, Option.filter_eq_none_iff] at hnone
      have htest := hnone evicted rfl
      rw [decide_eq_true_iff] at htest
      omega
    have hrecent : ∀ key request, (pending.filter (fun _ request =>
        decide (nowNs - PENDING_REQUEST_TTL_NS ≤ timestamp request))).get? key = some request →
          nowNs - PENDING_REQUEST_TTL_NS ≤ timestamp request := by
      intro key request hget
      rw [Table.get?_filter, Option.filter_eq_some_iff] at hget
      exact decide_eq_true_iff.mp hget.2
    split at hevicted
    · next hroom =>
      rw [if_pos hroom] at hkept
      have hold := hdropped hevicted
      have hnew := hrecent kept remaining hkept
      omega
    · next hfull =>
      rw [if_neg hfull] at hkept
      split at hevicted
      · next hnone =>
        rw [hnone] at hkept
        have hold := hdropped hevicted
        have hnew := hrecent kept remaining hkept
        omega
      · next oldest holdest =>
        rw [holdest] at hkept
        dsimp only at hkept
        obtain ⟨request, hrequest, hleast⟩ := oldestPending_eq_some timestamp host holdest
        rw [Table.get?_erase] at hevicted hkept
        split at hkept
        · cases hkept
        · split at hevicted
          · next heq =>
            subst heq
            rw [Table.get?_filter, hgone, Option.filter_eq_some_iff] at hrequest
            rw [Option.some.inj hrequest.1]
            exact hleast kept remaining hkept
          · have hold := hdropped hevicted
            have hnew := hrecent kept remaining hkept
            omega

end Pruning

/-! ### Requests and DNS queries that wait -/

namespace EventProcessor

variable {lib : External} {p : EventProcessor}

/-- Nothing waits in more entries than its table has room for. -/
structure Bounded (p : EventProcessor) : Prop where
  pending : p.pending.size ≤ MAX_PENDING_REQUESTS
  pendingDns : p.pendingDns.size ≤ 4096

theorem bounded_new (config : ProcessorConfig) : (EventProcessor.new config).Bounded :=
  ⟨Nat.zero_le _, Nat.zero_le _⟩

/-- Remembering a query makes room first. -/
private theorem size_rememberDns_le (raw : KernelEvent) (message : DecodedDnsMessage) :
    (p.rememberDns raw message).pendingDns.size ≤ 4096 := by
  unfold rememberDns
  dsimp only
  refine Nat.le_trans (Table.size_insert_le _ _ _) (Nat.succ_le_of_lt ?_)
  split
  · assumption
  · split
    · assumption
    · exact Nat.succ_pos _

variable (lib p) in
/-- A record that is not a chunk creates no decoder and keeps the bound of the DNS queries. -/
private theorem processRecord_retains (host : Host) (captured : CapturedKernelEvent) :
    (∃ keep, (p.processRecord lib host captured).1.streams = p.streams.filter keep) ∧
      (p.pendingDns.size ≤ 4096 →
        (p.processRecord lib host captured).1.pendingDns.size ≤ 4096) := by
  have hsame : ∃ keep, p.streams = p.streams.filter keep :=
    ⟨fun _ _ => true, (p.streams.filter_eq_self fun _ _ => rfl).symm⟩
  have hfilter : ∀ keep : DnsKey → PendingDnsQuery → Bool,
      p.pendingDns.size ≤ 4096 → (p.pendingDns.filter keep).size ≤ 4096 :=
    fun keep h => Nat.le_trans (p.pendingDns.size_filter_le keep) h
  unfold processRecord succeed
  dsimp only
  split
  · unfold processLatency
    dsimp only
    split
    · exact ⟨hsame, id⟩
    · split <;> exact ⟨hsame, id⟩
  · split
    · unfold processConnection
      dsimp only
      split
      · exact ⟨hsame, id⟩
      · split
        · simp only [event_fst, forgetConnection, connectionMetadata_pendingDns,
            connectionMetadata_streams, updateConnection_streams, updateConnection_pendingDns]
          exact ⟨⟨_, rfl⟩, hfilter _⟩
        · simp only [event_fst, connectionMetadata_pendingDns, connectionMetadata_streams]
          exact ⟨hsame, id⟩
    · split
      · unfold processProfile
        dsimp only
        split
        · exact ⟨hsame, id⟩
        · split <;> exact ⟨hsame, id⟩
      · split
        · unfold processLifecycle
          dsimp only
          split
          · split
            · exact ⟨⟨fun k _ => decide (k.1 ≠ captured.raw.tgid), rfl⟩, hfilter _⟩
            · exact ⟨hsame, id⟩
          · exact ⟨hsame, id⟩
        · split
          · unfold processDns
            dsimp only
            split
            · exact ⟨hsame, id⟩
            · split
              · simp only [event_fst, connectionMetadata_pendingDns, connectionMetadata_streams]
                exact ⟨hsame, hfilter _⟩
              · simp only [event_fst, connectionMetadata_pendingDns, connectionMetadata_streams]
                exact ⟨hsame, fun _ => size_rememberDns_le _ _⟩
          · exact ⟨hsame, id⟩

/-- Every call keeps the bounds. -/
theorem Bounded.step (h : p.Bounded) (call : Call) : (call.step lib p).1.Bounded := by
  cases call with
  | chunk raw =>
    obtain ⟨streams, hdecode⟩ := p.decodeChunk_fst lib raw
    simp only [Call.step, hdecode]
    exact ⟨h.pending, h.pendingDns⟩
  | record host captured =>
    refine ⟨?_, (processRecord_retains lib p host captured).2 h.pendingDns⟩
    rw [(p.clears_record host captured).1]
    exact Nat.le_trans (p.pending.size_filter_le _) h.pending
  | message host raw truncated message =>
    refine ⟨?_, ?_⟩
    · simp only [Call.step]
      rcases p.processMessage_cases lib host raw truncated message with
        ⟨heq, -, -⟩ | ⟨command, -, -, -, heq⟩ | ⟨command, -, -, -, heq⟩ | ⟨request, -, -, heq⟩
      · rw [heq]
        exact h.pending
      · rw [heq]
        have hroom := size_prunedPending_lt (fun request => request.seed.monotonicTimestampNs)
          host raw.timestampNs h.pending
        refine Nat.le_trans (Table.size_insert_le _ _ _) (Nat.succ_le_of_lt ?_)
        simpa [prunePendingRequests] using hroom
      · simpa [heq] using h.pending
      · simp only [heq, eventsForCompletedRequest_pending]
        exact Nat.le_trans (p.pending.size_filter_le _) h.pending
    · rw [Call.step, processMessage_pendingDns]
      exact h.pendingDns

/-- Every run keeps the bounds. -/
theorem Bounded.afterCalls (h : p.Bounded) (calls : List Call) :
    (p.afterCalls lib calls).Bounded := by
  induction calls generalizing p with
  | nil => exact h
  | cons call rest ih => exact ih (h.step call)

/-! ### Captured bytes -/

/-- Every decoder holds less than a capture of one frame. -/
def Retains (p : EventProcessor) : Prop :=
  ∀ key decoder, p.streams.get? key = some decoder →
    decoder.config = p.decoderConfig ∧ decoder.Holds MAX_CAPTURE_BYTES

theorem retains_new (config : ProcessorConfig) : (EventProcessor.new config).Retains := by
  intro key decoder h
  cases h

/-- The decoder of a record's stream holds less than a capture of one frame. -/
theorem Retains.streamDecoder (h : p.Retains) (raw : KernelEvent) :
    (p.streamDecoder raw).config = p.decoderConfig ∧
      (p.streamDecoder raw).Holds MAX_CAPTURE_BYTES := by
  unfold EventProcessor.streamDecoder Table.getD
  cases hget : p.streams.get? (streamKey raw) with
  | none => exact ⟨rfl, (by decide : 0 < MAX_CAPTURE_BYTES), Or.inl (by decide : 0 < 4)⟩
  | some decoder => exact h _ _ hget

/-- What is captured of a chunk. -/
theorem length_captured_le (raw : KernelEvent) :
    (raw.data.take (capturedLength raw)).length ≤ MAX_CAPTURE_BYTES := by
  rw [List.length_take, raw.data_length]
  exact Nat.min_le_right _ _

/-- Decoding a chunk stores a decoder that holds less than a capture, or drops it. -/
private theorem Retains.decodeChunk (h : p.Retains) (raw : KernelEvent) :
    (p.decodeChunk lib raw).1.Retains := by
  have herased : ({ p with streams := p.streams.erase (streamKey raw) } :
      EventProcessor).Retains := by
    intro key decoder hget
    rw [Table.get?_erase] at hget
    split at hget
    · cases hget
    · exact h key decoder hget
  unfold EventProcessor.decodeChunk
  dsimp only
  split
  · exact h
  · split
    · exact herased
    · obtain ⟨hconfig, hholds⟩ := h.streamDecoder raw
      have hpushed := (hholds.pushBoundedPrefix lib.codecs (by decide)
        (by rw [hconfig]; exact Nat.le_of_eq (Nat.mul_comm ..)) (length_captured_le raw)).2
      split
      · exact herased
      · next decoder messages heq =>
        rw [heq] at hpushed
        obtain ⟨hsame, hholds'⟩ := hpushed messages rfl
        intro key other hget
        rw [Table.get?_insert] at hget
        split at hget
        · obtain rfl := Option.some.inj hget
          exact ⟨hsame.trans hconfig, hholds'⟩
        · exact h key other hget

/-- Every call leaves decoders that hold less than a capture. -/
theorem Retains.step (h : p.Retains) (call : Call) : (call.step lib p).1.Retains := by
  cases call with
  | chunk raw => exact h.decodeChunk raw
  | record host captured =>
    obtain ⟨⟨keep, hstreams⟩, -⟩ := processRecord_retains lib p host captured
    intro key decoder hget
    have hconfig : ((Call.record host captured).step lib p).1.config = p.config :=
      step_config p (Call.record host captured)
    simp only [Call.step] at hget hconfig
    rw [hstreams, Table.get?_filter, Option.filter_eq_some_iff] at hget
    rw [Call.step, decoderConfig, hconfig]
    exact h key decoder hget.1
  | message host raw truncated message =>
    intro key decoder hget
    rw [Call.step, processMessage_streams] at hget
    rw [Call.step, decoderConfig, processMessage_config]
    exact h key decoder hget

/-- Every run leaves decoders that hold less than a capture. -/
theorem Retains.afterCalls (h : p.Retains) (calls : List Call) :
    (p.afterCalls lib calls).Retains := by
  induction calls generalizing p with
  | nil => exact h
  | cons call rest ih => exact ih (h.step call)

end EventProcessor

/-- What is evicted between two states of the table is at most as recent as what remains. -/
def EvictsOldest (full pruned : Table PendingKey PendingRequest) : Prop :=
  ∀ gone kept evicted remaining, full.get? gone = some evicted → pruned.get? gone = none →
    pruned.get? kept = some remaining →
      evicted.seed.monotonicTimestampNs ≤ remaining.seed.monotonicTimestampNs

/-- The tables of waiting requests and DNS queries stay within their bounds, and a request
that is inserted evicts only the oldest of the others. -/
theorem waiting_bounded {lib : External} {config : ProcessorConfig} :
    (∀ records : List Record,
      ((EventProcessor.new config).afterRecords lib records).pending.size ≤ MAX_PENDING_REQUESTS ∧
        ((EventProcessor.new config).afterRecords lib records).pendingDns.size ≤ 4096) ∧
    ∀ calls host raw truncated message command,
      message.responseTo = 0 → message.command = some command → message.moreToCome = false →
      let p := (EventProcessor.new config).afterCalls lib calls
      let pruned := (p.prunePendingRequests host raw.timestampNs).pending
      EvictsOldest p.pending pruned ∧
        ((Call.message host raw truncated message).step lib p).1.pending =
          pruned.insert (raw.tgid, raw.connectionKey, message.requestId)
            (p.openRequest lib host raw truncated message command).2 := by
  refine ⟨fun records => ?_, ?_⟩
  · rw [EventProcessor.afterRecords_eq_afterCalls]
    have hbounded : ((EventProcessor.new config).afterCalls lib
        ((EventProcessor.new config).trace lib records)).Bounded :=
      (EventProcessor.bounded_new config).afterCalls _
    exact ⟨hbounded.pending, hbounded.pendingDns⟩
  · intro calls host raw truncated message command hreply hcommand hmore p pruned
    constructor
    · intro gone kept evicted remaining hgone hevicted hkept
      exact prunedPending_evicts_oldest
        (fun request : PendingRequest => request.seed.monotonicTimestampNs) host raw.timestampNs
        hgone hevicted hkept
    · rcases p.processMessage_cases lib host raw truncated message with
        ⟨-, hnone, -⟩ | ⟨other, -, hother, -, heq⟩ | ⟨other, -, -, hmore', -⟩ | ⟨request, hne, -, -⟩
      · rw [hnone hreply] at hcommand
        cases hcommand
      · obtain rfl : other = command := Option.some.inj (hother.symm.trans hcommand)
        simp only [Call.step, heq, EventProcessor.prunePendingRequests,
          EventProcessor.openRequest_pending, pruned]
      · rw [hmore] at hmore'
        cases hmore'
      · exact absurd hreply hne

/-- The command of a ping. -/
def pingCommand : MongoCommand where
  name := "ping"
  database := none
  collection := none
  authMechanism := none
  principal := none
  speculativeAuth := false
  deleteScope := none
  deleteStatements := none
  query := none

/-- The message of a ping with its request id. -/
def pingMessage (requestId : ℕ) : DecodedMessage where
  requestId
  responseTo := 0
  wireBytes := 36
  flags := 0
  moreToCome := false
  compressed := false
  command := some pingCommand
  status := none

/-- The second of two pings finds the first one waiting. -/
theorem secondPing_waiting :
    let p := (EventProcessor.new .sample).afterCalls (.ofDigests sampleDigests)
      [.message .silent (.ofChunk 1 7 8 0 []) false (pingMessage 1)]
    let pruned := (p.prunePendingRequests .silent 2).pending
    EvictsOldest p.pending pruned ∧
      ((Call.message .silent (.ofChunk 2 7 8 0 []) false (pingMessage 2)).step
        (.ofDigests sampleDigests) p).1.pending =
          pruned.insert (7, 8, 2) (p.openRequest (.ofDigests sampleDigests) .silent
            (.ofChunk 2 7 8 0 []) false (pingMessage 2) pingCommand).2 :=
  waiting_bounded.2 [.message .silent (.ofChunk 1 7 8 0 []) false (pingMessage 1)] .silent
    (.ofChunk 2 7 8 0 []) false (pingMessage 2) pingCommand rfl rfl rfl

/-- After any records every decoder holds less than a capture, of one frame within the limits,
and no push on the captured bytes of a further record finds the buffer too large. -/
theorem streams_bounded {lib : External} {config : ProcessorConfig} (records : List Record) :
    let p := (EventProcessor.new config).afterRecords lib records
    (∀ key decoder, p.streams.get? key = some decoder →
      decoder.buffer.length < 1024 ∧ (decoder.buffer.length < 4 ∨
        ∃ frame, WellFormedFrame frame ∧ frame.length ≤ config.maxMessageBytes ∧
          decoder.buffer <+: frame ∧ decoder.buffer.length < frame.length)) ∧
    ∀ raw : KernelEvent,
      let decoder := p.streamDecoder raw
      let captured := raw.data.take (EventProcessor.capturedLength raw)
      (decoder.push lib.codecs captured).2 ≠ .error .bufferTooLarge ∧
        (decoder.pushBoundedPrefix lib.codecs captured MAX_CAPTURE_BYTES).2 ≠
          .error .bufferTooLarge ∧
        (decoder.pushTruncated lib.codecs
          (captured.take (MAX_CAPTURE_BYTES - decoder.bufferedBytes))).2 ≠
            .error .bufferTooLarge := by
  intro p
  have hrun : p = (EventProcessor.new config).afterCalls lib
      ((EventProcessor.new config).trace lib records) :=
    EventProcessor.afterRecords_eq_afterCalls _ records
  have hconfig : p.config = config := by
    rw [hrun, EventProcessor.afterCalls_config]
    rfl
  have hretains : p.Retains := by
    rw [hrun]
    exact (EventProcessor.retains_new config).afterCalls _
  refine ⟨fun key decoder hget => ?_, fun raw => ?_⟩
  · obtain ⟨hdecoder, hholds⟩ := hretains key decoder hget
    have hone := hholds.oneFrame
    rw [hdecoder, EventProcessor.decoderConfig, hconfig] at hone
    exact ⟨hholds.short, hone⟩
  · obtain ⟨hdecoder, hholds⟩ := hretains.streamDecoder raw
    have hshort := hholds.short
    have hbytes := EventProcessor.length_captured_le raw
    have hbuffer : (p.streamDecoder raw).config.maxBufferBytes = 2 * MAX_CAPTURE_BYTES := by
      rw [hdecoder]
      exact Nat.mul_comm ..
    dsimp only
    refine ⟨?_, ?_, ?_⟩
    · exact (StreamDecoder.hasRoom_push (by omega)).ne
    · exact (hholds.pushBoundedPrefix lib.codecs (by decide) (by omega) hbytes).1.ne
    · refine (StreamDecoder.hasRoom_pushTruncated ?_).ne
      rw [List.length_take]
      unfold StreamDecoder.bufferedBytes
      omega

/-- The decoder after the first ten bytes of a ping holds them, as the beginning of a frame. -/
theorem startedPing_bounded :
    let p := (EventProcessor.new .sample).afterRecords (.ofDigests sampleDigests)
      [chunkRecord ((pingFrame 1).take 10)]
    ∃ decoder, p.streams.get? (7, 8, 0) = some decoder ∧ decoder.buffer = (pingFrame 1).take 10 ∧
      decoder.buffer.length < 1024 ∧ (decoder.buffer.length < 4 ∨
        ∃ frame, WellFormedFrame frame ∧ frame.length ≤ 48000000 ∧
          decoder.buffer <+: frame ∧ decoder.buffer.length < frame.length) := by
  have hget : ((EventProcessor.new .sample).afterRecords (.ofDigests sampleDigests)
      [chunkRecord ((pingFrame 1).take 10)]).streams.get? (7, 8, 0) =
        some ⟨⟨48000000, 2048⟩, (pingFrame 1).take 10⟩ := by
    decide +kernel
  exact ⟨_, hget, rfl, (streams_bounded [chunkRecord ((pingFrame 1).take 10)]).1 _ _ hget⟩

end MongoDam.Observer
