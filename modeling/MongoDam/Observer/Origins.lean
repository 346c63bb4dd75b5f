import MongoDam.Observer.Provenance

/-!
# The record and the number of an event

Every event of a run is made from a record: from the one that is handled, or, for a request
that waited, from the one the request came with. It carries the time and the process of
that record. The events are numbered in their order, and the number goes into the
identifier, so that two events share an identifier only where the digest of two
different texts begins in the same way.
-/

namespace MongoDam.Observer

open Lib Schema Protocol

/-- The record a call is about. -/
def Call.raw : Call → KernelEvent
  | .message _ raw _ _ => raw
  | .chunk raw => raw
  | .record _ captured => captured.raw

/-- The seed was taken from the record. -/
structure EventSeed.FromRecord (raw : KernelEvent) (seed : EventSeed) : Prop where
  monotonicTimestampNs : seed.monotonicTimestampNs = raw.timestampNs
  source : seed.capture.source = captureSource raw.source
  process : ∃ process, seed.process = some process ∧ process.pid = raw.pid ∧
    process.tgid = raw.tgid

/-- The event carries the time, the source and the process of the record. -/
structure FromRecord (raw : KernelEvent) (event : DamEvent) : Prop where
  monotonicTimestampNs : event.monotonicTimestampNs = raw.timestampNs
  source : event.capture.source = captureSource raw.source
  process : ∃ process, event.process = some process ∧ process.pid = raw.pid ∧
    process.tgid = raw.tgid

/-- The text whose digest identifies an event. -/
def idInput (sensorId : String) (timestampNs number : ℕ) : Bytes :=
  toUtf8 sensorId ++ leBytes 8 timestampNs ++ leBytes 8 (number % 2 ^ 64)

/-- The part of the digest that stands in the identifier. -/
def idDigest (lib : External) (input : Bytes) : Bytes := (lib.sha256.digest input).take 16

/-- The number is part of the text. -/
theorem idInput_ne {sensorId : String} {t u m n : ℕ} (hne : m % 2 ^ 64 ≠ n % 2 ^ 64) :
    idInput sensorId t m ≠ idInput sensorId u n := by
  intro heq
  have htails := List.append_inj_right' heq (by simp)
  have hlt : ∀ k : ℕ, k % 2 ^ 64 < 256 ^ 8 := fun k => Nat.mod_lt k (by decide)
  apply hne
  rw [← leNat_leBytes (hlt m), ← leNat_leBytes (hlt n), htails]

/-- The event was made as the one of this number, from one of these records. -/
structure MadeAs (lib : External) (config : ProcessorConfig) (known : List KernelEvent)
    (number : ℕ) (event : DamEvent) : Prop where
  eventId : event.eventId = "evt-" ++
    encodeHex (idDigest lib (idInput config.sensorId event.monotonicTimestampNs number))
  origin : ∃ raw ∈ known, FromRecord raw event

/-- What leads from one processor to the other makes these events, and numbers them. -/
structure Makes (lib : External) (known : List KernelEvent) (p q : EventProcessor)
    (events : List DamEvent) : Prop where
  config : q.config = p.config
  sequence : q.sequence % 2 ^ 64 = (p.sequence + events.length) % 2 ^ 64
  events : ∀ i (hi : i < events.length),
    MadeAs lib p.config known (p.sequence + i + 1) events[i]

variable {lib : External} {known more : List KernelEvent} {p q r : EventProcessor}
  {events others : List DamEvent} {raw : KernelEvent} {seed : EventSeed}

/-- A number counts up to its last sixty-four bits. -/
theorem MadeAs.congr {config : ProcessorConfig} {m n : ℕ} {event : DamEvent}
    (h : MadeAs lib config known m event) (hnumber : m % 2 ^ 64 = n % 2 ^ 64) :
    MadeAs lib config known n event where
  eventId := by
    rw [h.eventId, idInput, idInput, hnumber]
  origin := h.origin

theorem MadeAs.mono {config : ProcessorConfig} {n : ℕ} {event : DamEvent}
    (h : MadeAs lib config known n event) (hsubset : known ⊆ more) :
    MadeAs lib config more n event where
  eventId := h.eventId
  origin := by
    obtain ⟨raw, hraw, hfrom⟩ := h.origin
    exact ⟨raw, hsubset hraw, hfrom⟩

namespace Makes

/-- Nothing is made. -/
theorem nothing (hconfig : q.config = p.config) (hsequence : q.sequence = p.sequence) :
    Makes lib known p q [] where
  config := hconfig
  sequence := by simp [hsequence]
  events i hi := absurd hi (Nat.not_lt_zero i)

/-- One step after the other. -/
theorem trans (hfirst : Makes lib known p q events) (hsecond : Makes lib known q r others) :
    Makes lib known p r (events ++ others) where
  config := hsecond.config.trans hfirst.config
  sequence := by
    have h := hfirst.sequence
    rw [hsecond.sequence, List.length_append]
    omega
  events i hi := by
    by_cases hleft : i < events.length
    · rw [List.getElem_append_left hleft]
      exact hfirst.events i hleft
    · have hright : i - events.length < others.length := by
        rw [List.length_append] at hi
        omega
      rw [List.getElem_append_right (Nat.not_lt.mp hleft), ← hfirst.config]
      apply (hsecond.events _ hright).congr
      have h := hfirst.sequence
      omega

theorem mono (h : Makes lib known p q events) (hsubset : known ⊆ more) :
    Makes lib more p q events where
  config := h.config
  sequence := h.sequence
  events i hi := (h.events i hi).mono hsubset

/-- An event from a seed that was taken from a record. -/
theorem one {payload : EventPayload} (hconfig : q.config = p.config)
    (hsequence : q.sequence = p.sequence) (hseed : ∃ raw ∈ known, seed.FromRecord raw) :
    Makes lib known p (q.eventFromSeed lib seed payload).1
      [(q.eventFromSeed lib seed payload).2] where
  config := hconfig
  sequence := by
    rw [EventProcessor.eventFromSeed_fst, List.length_singleton, hsequence, Nat.mod_mod]
  events i hi := by
    obtain rfl : i = 0 := by simpa using hi
    obtain ⟨raw, hraw, hfrom⟩ := hseed
    rw [List.getElem_cons_zero, Nat.add_zero, ← hsequence, ← hconfig]
    exact ⟨rfl, raw, hraw, hfrom.monotonicTimestampNs, hfrom.source, hfrom.process⟩

/-- What is made from one record is from that record. -/
theorem fromRecord {event : DamEvent} (h : Makes lib [raw] p q events) (hevent : event ∈ events) :
    FromRecord raw event := by
  obtain ⟨i, hi, rfl⟩ := List.mem_iff_getElem.mp hevent
  obtain ⟨origin, horigin, hfrom⟩ := (h.events i hi).origin
  rwa [← List.mem_singleton.mp horigin]

end Makes

namespace EventProcessor

/-- The seed of a record is taken from it. -/
theorem seed_fromRecord (host : Host) (truncated : Bool) :
    (p.seed host raw truncated).FromRecord raw :=
  ⟨rfl, rfl, _, rfl, rfl, rfl⟩

/-! ### Records that are not chunks -/

section Records

variable (lib p) {host : Host} {captured : CapturedKernelEvent}

private theorem makes_event {truncated : Bool} {payload : EventPayload}
    (hconfig : q.config = p.config) (hsequence : q.sequence = p.sequence) :
    Makes lib [raw] p (q.event lib host raw truncated payload).1
      [(q.event lib host raw truncated payload).2] :=
  .one hconfig hsequence ⟨raw, List.mem_singleton_self raw, seed_fromRecord host truncated⟩

@[simp] theorem connectionMetadata_sequence :
    (p.connectionMetadata host raw).1.sequence = p.sequence := by
  obtain ⟨cache, h⟩ := p.connectionMetadata_fst host raw
  rw [h]
  rfl

private theorem makes_latency : Makes lib [captured.raw] p
    (p.processLatency lib host captured).1 (p.processLatency lib host captured).2 := by
  unfold processLatency
  dsimp only
  split
  · exact makes_event lib p rfl rfl
  · split
    · exact .nothing rfl rfl
    · exact makes_event lib p rfl rfl

private theorem makes_connection : Makes lib [captured.raw] p
    (p.processConnection lib host captured).1 (p.processConnection lib host captured).2 := by
  unfold processConnection
  dsimp only
  split
  · exact .nothing rfl rfl
  · apply makes_event
    · split <;> exact connectionMetadata_config ..
    · split <;> exact connectionMetadata_sequence ..

private theorem makes_profile : Makes lib [captured.raw] p
    (p.processProfile lib host captured).1 (p.processProfile lib host captured).2 := by
  unfold processProfile
  dsimp only
  split
  · exact makes_event lib p rfl rfl
  · split
    · exact makes_event lib p rfl rfl
    · exact .nothing rfl rfl

private theorem makes_lifecycle : Makes lib [captured.raw] p
    (p.processLifecycle lib host captured).1 (p.processLifecycle lib host captured).2 := by
  unfold processLifecycle
  dsimp only
  split
  · apply makes_event <;> split <;> rfl
  · exact .nothing rfl rfl

private theorem makes_dns : Makes lib [captured.raw] p (p.processDns lib host captured).1
    ((p.processDns lib host captured).2.toOption.getD []) := by
  unfold processDns
  dsimp only
  split
  · exact .nothing rfl rfl
  · apply makes_event
    · rw [connectionMetadata_config]
      split <;> rfl
    · rw [connectionMetadata_sequence]
      split <;> rfl

/-- A record that is no chunk makes its events from itself. -/
theorem makes_record : Makes lib [captured.raw] p (p.processRecord lib host captured).1
    ((p.processRecord lib host captured).2.toOption.getD []) := by
  unfold processRecord
  dsimp only
  split
  · exact makes_latency lib p
  split
  · exact makes_connection lib p
  split
  · exact makes_profile lib p
  split
  · exact makes_lifecycle lib p
  split
  · exact makes_dns lib p
  · exact .nothing rfl rfl

end Records

/-! ### Messages -/

section Messages

variable {request : PendingRequest} {response : Option (DecodedMessage × ℕ)}

private theorem makes_reported {sessionPrincipal : Option String}
    (hseed : ∃ raw ∈ known, request.seed.FromRecord raw) :
    Makes lib known p (p.reportCompleted lib request response sessionPrincipal).1
      (p.reportCompleted lib request response sessionPrincipal).2 := by
  have hactivity : ∃ raw ∈ known,
      (activitySeed request.seed (p.activityOf request response)).FromRecord raw := by
    obtain ⟨raw, hraw, hfrom⟩ := hseed
    refine ⟨raw, hraw, ?_⟩
    unfold activitySeed
    split
    · exact ⟨hfrom.monotonicTimestampNs, hfrom.source, hfrom.process⟩
    · exact hfrom
  unfold reportCompleted
  dsimp only
  split
  · exact (Makes.one rfl rfl hactivity).trans (.one rfl rfl hseed)
  · exact .one rfl rfl hactivity

/-- Completing a request makes its events from the seed the request was opened with. -/
theorem makes_completed (hconfig : q.config = p.config)
    (hsequence : q.sequence = p.sequence) (hseed : ∃ raw ∈ known, request.seed.FromRecord raw) :
    Makes lib known p (q.eventsForCompletedRequest lib request response).1
      (q.eventsForCompletedRequest lib request response).2 := by
  have hsame : ∀ q' : EventProcessor, q'.config = p.config → q'.sequence = p.sequence →
      ∀ sessionPrincipal, Makes lib known p
        (q'.reportCompleted lib request response sessionPrincipal).1
        (q'.reportCompleted lib request response sessionPrincipal).2 := by
    intro q' hconfig' hsequence' sessionPrincipal
    have hnothing : Makes lib known p q' [] := .nothing hconfig' hsequence'
    exact hnothing.trans (makes_reported hseed)
  unfold eventsForCompletedRequest
  dsimp only
  split
  · refine hsame (q.updateConnection _ _) ?_ ?_ _
    · exact hconfig
    · exact hsequence
  · exact hsame q hconfig hsequence _

@[simp] theorem openRequest_sequence {host : Host} {truncated : Bool} {message : DecodedMessage}
    {command : MongoCommand} :
    (p.openRequest lib host raw truncated message command).1.sequence = p.sequence := by
  simp only [openRequest, connectionMetadata_sequence]
  rfl

/-- The seed of a request a call opens is taken from the record of the call. -/
theorem opens_fromRecord {call : Call} (h : call.opens lib p = some request) :
    request.seed.FromRecord call.raw := by
  cases call with
  | chunk raw => cases h
  | record host captured => cases h
  | message host raw truncated decoded =>
    simp only [Call.opens] at h
    split at h
    · obtain ⟨command, -, rfl⟩ := Option.map_eq_some_iff.mp h
      exact seed_fromRecord host truncated
    · cases h

end Messages

/-! ### Runs -/

variable {config : ProcessorConfig}

section Steps

variable (lib config)

/-- A call of a run makes its events from the record it is about, or from that of a call
before it. -/
private theorem makes_step (calls : List Call) (call : Call) :
    Makes lib ((calls ++ [call]).map Call.raw) ((EventProcessor.new config).afterCalls lib calls)
      (call.step lib ((EventProcessor.new config).afterCalls lib calls)).1
      (call.step lib ((EventProcessor.new config).afterCalls lib calls)).2 := by
  have hown : [call.raw] ⊆ (calls ++ [call]).map Call.raw := by simp
  cases call with
  | chunk raw =>
    obtain ⟨streams, h⟩ :=
      ((EventProcessor.new config).afterCalls lib calls).decodeChunk_fst lib raw
    apply Makes.nothing <;> simp only [Call.step, h]
  | record host captured => exact (makes_record lib _).mono hown
  | message host raw truncated decoded =>
    simp only [Call.step]
    rcases processMessage_cases lib ((EventProcessor.new config).afterCalls lib calls) host raw
      truncated decoded with ⟨heq, -, -⟩ | ⟨command, -, -, -, heq⟩ | ⟨command, -, -, -, heq⟩ |
      ⟨waiter, -, hwaiting, heq⟩ <;> rw [heq]
    · exact .nothing rfl rfl
    · apply Makes.nothing
      · exact openRequest_config ..
      · exact openRequest_sequence
    · apply makes_completed (openRequest_config ..) openRequest_sequence
      exact ⟨raw, hown (List.mem_singleton_self raw), seed_fromRecord host truncated⟩
    · refine makes_completed ?_ ?_ ?_
      · rfl
      · rfl
      obtain ⟨before, opener, between, rfl, -, hopens, -⟩ := waiting_origin hwaiting
      exact ⟨opener.raw, by simp, opens_fromRecord hopens⟩

/-- The events of a run are made one after the other, each from a record of the run. -/
theorem makes_emitted (calls : List Call) :
    Makes lib (calls.map Call.raw) (EventProcessor.new config)
      ((EventProcessor.new config).afterCalls lib calls)
      ((EventProcessor.new config).emitted lib calls) := by
  induction calls using List.reverseRecOn with
  | nil => exact .nothing rfl rfl
  | append_singleton calls call ih =>
    rw [emitted_append, afterCalls_append]
    have hlast := makes_step lib config calls call
    simp only [emitted, List.append_nil, afterCalls_cons, afterCalls_nil]
    exact (ih.mono (by simp)).trans hlast

end Steps

/-- The calls of a run of records are about these records. -/
theorem raw_mem_of_mem_trace {records : List Record} {call : Call}
    (h : call ∈ p.trace lib records) : ∃ record ∈ records, call.raw = record.2.raw := by
  induction records generalizing p with
  | nil => cases h
  | cons record rest ih =>
    rw [trace, List.mem_append] at h
    rcases h with hfirst | hrest
    · refine ⟨record, List.mem_cons_self, ?_⟩
      unfold callsOf at hfirst
      split at hfirst
      · rcases List.mem_cons.mp hfirst with rfl | hmessage
        · rfl
        · split at hmessage
          · cases hmessage
          · obtain ⟨entry, -, rfl⟩ := List.mem_map.mp hmessage
            rfl
      · rw [List.mem_singleton.mp hfirst]
        rfl
    · obtain ⟨found, hfound, hraw⟩ := ih hrest
      exact ⟨found, List.mem_cons_of_mem record hfound, hraw⟩

/-- Every event of a run carries the time and the process of one of its records. -/
theorem emittedRecords_fromRecord {records : List Record} {event : DamEvent}
    (h : event ∈ (EventProcessor.new config).emittedRecords lib records) :
    ∃ record ∈ records, FromRecord record.2.raw event := by
  rw [emittedRecords_eq_emitted] at h
  obtain ⟨i, hi, rfl⟩ := List.mem_iff_getElem.mp h
  obtain ⟨raw, hraw, hfrom⟩ := ((makes_emitted lib config _).events i hi).origin
  obtain ⟨call, hcall, rfl⟩ := List.mem_map.mp hraw
  obtain ⟨record, hrecord, heq⟩ := raw_mem_of_mem_trace hcall
  exact ⟨record, hrecord, heq ▸ hfrom⟩

/-- Of the first `2 ^ 64` events of a run no two have the same text behind their identifiers, so
that two have the same identifier just when the digests of their texts begin alike. -/
theorem event_ids_collide (lib : External) (config : ProcessorConfig) (records : List Record) :
    let events := (EventProcessor.new config).emittedRecords lib records
    let input := fun entry : DamEvent × ℕ =>
      idInput config.sensorId entry.1.monotonicTimestampNs entry.2
    ((events.take (2 ^ 64)).zipIdx 1).Pairwise fun first second =>
      input first ≠ input second ∧ (first.1.eventId = second.1.eventId ↔
        idDigest lib (input first) = idDigest lib (input second)) := by
  dsimp only
  rw [emittedRecords_eq_emitted, List.pairwise_iff_getElem]
  intro i j hi hj hlt
  simp only [List.length_zipIdx, List.length_take] at hi hj
  have hmade := (makes_emitted lib config ((EventProcessor.new config).trace lib records)).events
  simp only [List.getElem_zipIdx, List.getElem_take]
  constructor
  · apply idInput_ne
    omega
  · have hfirst := ((hmade i (by omega)).congr (n := 1 + i) (by
      simp [EventProcessor.new, Nat.add_comm])).eventId
    have hsecond := ((hmade j (by omega)).congr (n := 1 + j) (by
      simp [EventProcessor.new, Nat.add_comm])).eventId
    rw [hfirst, hsecond, String.append_right_inj]
    exact ⟨encodeHex_inj, congrArg encodeHex⟩

end EventProcessor

end MongoDam.Observer
