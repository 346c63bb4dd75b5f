import MongoDam.Observer.Attribution
import MongoDam.Observer.Capture

/-!
# Confidence in a capture

An activity reports with what confidence its request was captured. The request stems
from a message of an I/O chunk, and the flag is computed from the sizes of that chunk
alone. As long as no chunk that was captured whole brings a long frame to the limit of
what is decoded, the flag tells the truth: a request that is not reported as truncated
was decoded from its whole frame.
-/

namespace MongoDam.Protocol

open Lib

/-- The loop decodes whole frames, and it takes them off the front of the buffer. -/
theorem pushLoop_whole {codecs : Decompressors} {maxMessageBytes : ℕ} {buffer left : Bytes}
    {decoded messages : List DecodedMessage}
    (h : StreamDecoder.pushLoop codecs maxMessageBytes buffer decoded = (left, .ok messages)) :
    ∃ frames more, buffer = frames.flatten ++ left ∧ messages = decoded ++ more ∧
      List.Forall₂ (fun message frame => decodeFrame codecs frame maxMessageBytes = .ok message)
        more frames := by
  induction buffer, decoded using StreamDecoder.pushLoop.induct codecs maxMessageBytes with
  | case1 buffer decoded hshort =>
    rw [StreamDecoder.pushLoop, if_pos hshort] at h
    cases h
    exact ⟨[], [], rfl, (List.append_nil _).symm, .nil⟩
  | case2 buffer decoded hshort e hlength =>
    rw [StreamDecoder.pushLoop, if_neg hshort, hlength] at h
    cases h
  | case3 buffer decoded hshort length hlength hsmall =>
    rw [StreamDecoder.pushLoop, if_neg hshort, hlength] at h
    dsimp only at h
    rw [if_pos hsmall] at h
    cases h
  | case4 buffer decoded hshort length hlength hsmall hlarge =>
    rw [StreamDecoder.pushLoop, if_neg hshort, hlength] at h
    dsimp only at h
    rw [if_neg hsmall, if_pos hlarge] at h
    cases h
  | case5 buffer decoded hshort length hlength hsmall hlarge hpart =>
    rw [StreamDecoder.pushLoop, if_neg hshort, hlength] at h
    dsimp only at h
    rw [if_neg hsmall, if_neg hlarge, if_pos hpart] at h
    cases h
    exact ⟨[], [], rfl, (List.append_nil _).symm, .nil⟩
  | case6 buffer decoded hshort length hlength hsmall hlarge hpart e herror =>
    rw [StreamDecoder.pushLoop, if_neg hshort, hlength] at h
    dsimp only at h
    rw [if_neg hsmall, if_neg hlarge, if_neg hpart, herror] at h
    cases h
  | case7 buffer decoded hshort length hlength hsmall hlarge hpart message hdecoded ih =>
    rw [StreamDecoder.pushLoop, if_neg hshort, hlength] at h
    dsimp only at h
    rw [if_neg hsmall, if_neg hlarge, if_neg hpart, hdecoded] at h
    obtain ⟨frames, more, hbuffer, hmessages, hdecodings⟩ := ih h
    refine ⟨buffer.take length.toNat :: frames, message :: more, ?_, ?_, .cons hdecoded hdecodings⟩
    · rw [List.flatten_cons, List.append_assoc, ← hbuffer, List.take_append_drop]
    · rw [hmessages, List.append_assoc, List.singleton_append]

end MongoDam.Protocol

namespace MongoDam.Observer

open Lib Schema Protocol EventProcessor

/-- A chunk that was captured whole brings a frame longer than a capture to the limit: the
decoder goes on with the first bytes of the frame alone. -/
def CutsFrame (p : EventProcessor) (raw : KernelEvent) : Prop :=
  isTruncated raw = false ∧ ∃ length,
    (p.decoderAt (streamKey raw)).nextFrameLength (capturedBytes raw) = .ok (some length) ∧
    MAX_CAPTURE_BYTES < length ∧
    MAX_CAPTURE_BYTES ≤ (p.decoderAt (streamKey raw)).buffer.length + (capturedBytes raw).length

/-- The message is among those that the chunk of a record hands on. -/
def HandsOn (lib : External) (p : EventProcessor) (raw : KernelEvent) (message : DecodedMessage) :
    Prop :=
  raw.eventType = EVENT_IO_CHUNK ∧ ∃ messages,
    (p.decodeChunk lib raw).2 = .ok messages ∧ message ∈ messages

/-- The message was decoded from all the bytes of its frame, which are among those that were
buffered or captured. -/
def DecodedWhole (lib : External) (p : EventProcessor) (raw : KernelEvent)
    (message : DecodedMessage) : Prop :=
  ∃ frame, frame <:+: (p.decoderAt (streamKey raw)).buffer ++ capturedBytes raw ∧
    frame.length = message.wireBytes ∧
    decodeFrame lib.codecs frame (p.decoderAt (streamKey raw)).config.maxMessageBytes = .ok message

/-- The event reports a request that a chunk of the run handed on. Either it is reported as
truncated, with partial confidence, or it was decoded from its whole frame and is reported with
complete confidence. -/
def ConfidenceHolds (lib : External) (config : ProcessorConfig) (records : List Record)
    (event : DamEvent) : Prop :=
  ∃ before host raw message after earlier record later,
    (EventProcessor.new config).trace lib records =
        before ++ .message host raw (isTruncated raw) message :: after ∧
      ReportsRequest lib config before (.message host raw (isTruncated raw) message) after event ∧
      records = earlier ++ record :: later ∧ record.2.raw = raw ∧
      HandsOn lib ((EventProcessor.new config).afterRecords lib earlier) raw message ∧
      (event.capture.truncated = true ∧ event.capture.confidence = .partialCapture ∨
        event.capture.truncated = false ∧ event.capture.confidence = .complete ∧
          DecodedWhole lib ((EventProcessor.new config).afterRecords lib earlier) raw message)

namespace EventProcessor

variable {lib : External} {p : EventProcessor} {raw : KernelEvent}

/-- A chunk that was captured whole and cuts no frame is pushed. -/
private theorem push_of_decodeChunk {messages : List DecodedMessage} {message : DecodedMessage}
    (h : (p.decodeChunk lib raw).2 = .ok messages) (hmem : message ∈ messages)
    (htruncated : isTruncated raw = false) (hcuts : ¬CutsFrame p raw) :
    ∃ decoder, (p.decoderAt (streamKey raw)).push lib.codecs (capturedBytes raw) =
      (decoder, .ok messages) := by
  have hdecoder : p.streamDecoder raw = p.decoderAt (streamKey raw) := rfl
  have hbounded : ∃ decoder, (p.decoderAt (streamKey raw)).pushBoundedPrefix lib.codecs
      (capturedBytes raw) MAX_CAPTURE_BYTES = (decoder, .ok messages) := by
    unfold decodeChunk at h
    split at h
    · cases h
      cases hmem
    · rw [htruncated, hdecoder, if_neg Bool.false_ne_true] at h
      unfold capturedBytes
      split at h
      · cases h
      · rename_i decoder others hpush
        cases h
        exact ⟨decoder, hpush⟩
  obtain ⟨decoder, hbounded⟩ := hbounded
  refine ⟨decoder, ?_⟩
  unfold StreamDecoder.pushBoundedPrefix at hbounded
  split at hbounded
  · cases hbounded
  split at hbounded
  · cases hbounded
  · exact hbounded
  · rename_i length hlength
    split at hbounded
    · exact hbounded
    · rename_i hlong
      exact absurd ⟨htruncated, length, hlength, by omega, by omega⟩ hcuts

/-- What a chunk that cuts no frame hands on was decoded whole. -/
theorem decodedWhole_of_handsOn {message : DecodedMessage} (hhands : HandsOn lib p raw message)
    (htruncated : isTruncated raw = false) (hcuts : ¬CutsFrame p raw) :
    DecodedWhole lib p raw message := by
  obtain ⟨-, messages, hmessages, hmem⟩ := hhands
  obtain ⟨decoder, hpush⟩ := push_of_decodeChunk hmessages hmem htruncated hcuts
  unfold StreamDecoder.push at hpush
  split at hpush
  · cases hpush
  obtain ⟨-, hloop⟩ := Prod.mk.inj hpush
  obtain ⟨frames, more, hbuffer, hdecoded, hdecodings⟩ := pushLoop_whole (Prod.ext rfl hloop)
  rw [List.nil_append] at hdecoded
  subst hdecoded
  obtain ⟨frame, hframe, hmessage⟩ : ∃ frame ∈ frames, decodeFrame lib.codecs frame
      (p.decoderAt (streamKey raw)).config.maxMessageBytes = .ok message := by
    clear hbuffer hpush hloop hmessages
    induction hdecodings with
    | nil => cases hmem
    | @cons other frame messages frames hother _ ih =>
      rcases List.mem_cons.mp hmem with rfl | hmem
      · exact ⟨frame, List.mem_cons_self, hother⟩
      · obtain ⟨found, hfound, hdecoded⟩ := ih hmem
        exact ⟨found, List.mem_cons_of_mem _ hfound, hdecoded⟩
  refine ⟨frame, ?_, (decodeFrame_wireBytes hmessage).symm, hmessage⟩
  obtain ⟨earlier, later, rfl⟩ := List.append_of_mem hframe
  refine ⟨earlier.flatten, later.flatten ++ (StreamDecoder.pushLoop lib.codecs
    (p.decoderAt (streamKey raw)).config.maxMessageBytes
    ((p.decoderAt (streamKey raw)).buffer ++ capturedBytes raw) []).1, ?_⟩
  conv_rhs => rw [hbuffer]
  rw [List.flatten_append, List.flatten_cons, List.append_assoc, List.append_assoc,
    List.append_assoc]

/-! ### Requests of a run -/

/-- The messages of a run are those that its chunks hand on. -/
theorem handsOn_of_mem_trace {records : List Record} {host : Host} {truncated : Bool}
    {message : DecodedMessage} (h : Call.message host raw truncated message ∈ p.trace lib records) :
    ∃ earlier record later, records = earlier ++ record :: later ∧ record.2.raw = raw ∧
      truncated = isTruncated raw ∧ HandsOn lib (p.afterRecords lib earlier) raw message := by
  induction records generalizing p with
  | nil => cases h
  | cons record rest ih =>
    rcases List.mem_append.mp h with hfirst | hlater
    · refine ⟨[], record, rest, rfl, ?_⟩
      unfold callsOf at hfirst
      split at hfirst
      · rename_i htype
        rcases List.mem_cons.mp hfirst with heq | hmem
        · cases heq
        · split at hmem
          · cases hmem
          · rename_i messages hmessages
            obtain ⟨entry, hentry, heq⟩ := List.mem_map.mp hmem
            cases heq
            exact ⟨rfl, rfl, htype, messages, hmessages, List.fst_mem_of_mem_zipIdx hentry⟩
      · rw [List.mem_singleton] at hfirst
        cases hfirst
    · obtain ⟨earlier, later, after, hsplit, hraw, htruncated, hhands⟩ := ih hlater
      exact ⟨record :: earlier, later, after, by rw [hsplit]; rfl, hraw, htruncated, hhands⟩

/-- The events of a completed request have its confidence. -/
private theorem capture_of_eventsForCompletedRequest {request : PendingRequest}
    {response : Option (DecodedMessage × ℕ)} {event : DamEvent}
    (h : event ∈ (p.eventsForCompletedRequest lib request response).2) :
    event.capture.truncated = request.seed.capture.truncated ∧
      event.capture.confidence = request.seed.capture.confidence := by
  have hreport : ∀ (q : EventProcessor) (sessionPrincipal : Option String),
      event ∈ (q.reportCompleted lib request response sessionPrincipal).2 →
      event.capture.truncated = request.seed.capture.truncated ∧
        event.capture.confidence = request.seed.capture.confidence := by
    intro q sessionPrincipal hmem
    have hactivity : ∀ activity, (activitySeed request.seed activity).capture.truncated =
          request.seed.capture.truncated ∧
        (activitySeed request.seed activity).capture.confidence =
          request.seed.capture.confidence := by
      intro activity
      unfold activitySeed
      split
      · exact ⟨rfl, rfl⟩
      · exact ⟨rfl, rfl⟩
    unfold reportCompleted at hmem
    dsimp only at hmem
    split at hmem
    · rcases List.mem_pair.mp hmem with rfl | rfl
      · exact hactivity _
      · exact ⟨rfl, rfl⟩
    · rw [List.mem_singleton] at hmem
      subst hmem
      exact hactivity _
  unfold eventsForCompletedRequest at h
  dsimp only at h
  split at h
  · exact hreport _ _ h
  · exact hreport _ _ h

/-- The events of a call have the confidence of the request that the call completes. -/
private theorem capture_of_completed {call : Call} {request : PendingRequest} {event : DamEvent}
    (hcompleted : call.completed lib p = some request) (hmem : event ∈ (call.step lib p).2) :
    event.capture.truncated = request.seed.capture.truncated ∧
      event.capture.confidence = request.seed.capture.confidence := by
  cases call with
  | chunk raw => cases hcompleted
  | record host captured => cases hcompleted
  | message host raw truncated decoded =>
    simp only [Call.step] at hmem
    rcases p.processMessage_cases lib host raw truncated decoded with
      ⟨heq, -, -⟩ | ⟨command, -, -, -, heq⟩ | ⟨command, hreply, hcommand, hmore, heq⟩ |
      ⟨waiter, hreply, hwaiting, heq⟩
    · rw [heq] at hmem
      cases hmem
    · rw [heq] at hmem
      cases hmem
    · rw [heq] at hmem
      simp only [Call.completed, hreply, hmore, hcommand, if_true, Option.map_some,
        Option.some.injEq] at hcompleted
      rw [← hcompleted]
      exact capture_of_eventsForCompletedRequest hmem
    · rw [heq] at hmem
      simp only [Call.completed, hreply, if_false] at hcompleted
      rw [hwaiting] at hcompleted
      cases hcompleted
      exact capture_of_eventsForCompletedRequest hmem

end EventProcessor

/-- The confidence of an activity is that of the request it reports. -/
theorem ReportsRequest.capture {lib : External} {config : ProcessorConfig}
    {before after : List Call}
    {host : Host} {raw : KernelEvent} {truncated : Bool} {message : DecodedMessage}
    {event : DamEvent}
    (h : ReportsRequest lib config before (.message host raw truncated message) after event)
    (htype : raw.eventType = EVENT_IO_CHUNK) :
    event.capture.truncated = truncated ∧
      event.capture.confidence = if truncated then .partialCapture else .complete := by
  obtain ⟨opened, activity, hopens, -, hcompleted⟩ := h
  have hcapture : event.capture.truncated = opened.seed.capture.truncated ∧
      event.capture.confidence = opened.seed.capture.confidence := by
    rcases hcompleted with ⟨hdone, hmem, -⟩ | ⟨between, reply, rest, -, -, hdone, hmem, -⟩
    · exact capture_of_completed hdone hmem
    · exact capture_of_completed hdone hmem
  have hseed : opened.seed.capture.truncated = truncated ∧
      opened.seed.capture.confidence = if truncated then .partialCapture else .complete := by
    simp only [Call.opens] at hopens
    split at hopens
    · obtain ⟨command, -, rfl⟩ := Option.map_eq_some_iff.mp hopens
      refine ⟨rfl, ?_⟩
      change (if truncated then _ else if raw.eventType = EVENT_IO_CHUNK then _ else _) = _
      rw [if_pos htype]
    · cases hopens
  exact ⟨hcapture.1.trans hseed.1, hcapture.2.trans hseed.2⟩

/-- In a run that cuts no frame, the confidence of every activity tells the truth. -/
theorem activity_confidence {lib : External} {config : ProcessorConfig} {records : List Record}
    (hcuts : ∀ earlier record later, records = earlier ++ record :: later →
      record.2.raw.eventType = EVENT_IO_CHUNK →
      ¬CutsFrame ((EventProcessor.new config).afterRecords lib earlier) record.2.raw) :
    ∀ event ∈ (EventProcessor.new config).emittedRecords lib records,
      event.activity?.isSome → ConfidenceHolds lib config records event := by
  intro event hevent hsome
  obtain ⟨activity, hactivity⟩ := Option.isSome_iff_exists.mp hsome
  obtain ⟨before, request, after, htrace, hreports⟩ := activity_reported hevent hactivity
  cases request with
  | chunk raw =>
    obtain ⟨opened, -, hopens, -⟩ := hreports
    cases hopens
  | record host captured =>
    obtain ⟨opened, -, hopens, -⟩ := hreports
    cases hopens
  | message host raw truncated message =>
    have hmem : Call.message host raw truncated message ∈
        (EventProcessor.new config).trace lib records := by
      rw [htrace]
      exact List.mem_append_right before List.mem_cons_self
    obtain ⟨earlier, record, later, hsplit, hraw, rfl, hhands⟩ := handsOn_of_mem_trace hmem
    obtain ⟨htruncated, hconfidence⟩ := hreports.capture hhands.1
    refine ⟨before, host, raw, message, after, earlier, record, later, htrace, hreports, hsplit,
      hraw, hhands, ?_⟩
    have hwhole := hcuts earlier record later hsplit
    rw [hraw] at hwhole
    cases hflag : isTruncated raw with
    | true =>
      rw [hflag] at htruncated hconfidence
      exact Or.inl ⟨htruncated, hconfidence⟩
    | false =>
      rw [hflag] at htruncated hconfidence
      exact Or.inr ⟨htruncated, hconfidence,
        decodedWhole_of_handsOn hhands hflag (hwhole hhands.1)⟩

/-- A one-way insert of more than 1500 bytes. -/
def longInsert : Bytes :=
  encodeOpMsg 1 0 2 (encodeBody (encodeString "insert" "t" ++
    encodeElement 0x05 "b" (leBytes 4 1500 ++ 0 :: List.replicate 1500 0)))

/-- A one-way insert that fits the capture. -/
def shortInsert : Bytes := encodeOpMsg 2 0 2 (encodeBody (encodeString "insert" "t"))

/-- The short insert, and the first bytes of the long one, of which the rest is cut off. -/
def cutInsert : List Record := [chunkRecord shortInsert, chunkRecord longInsert]

/-- The first bytes of the insert in two short chunks. -/
def splitInsert : List Record :=
  [chunkRecord (longInsert.take 600), chunkRecord ((longInsert.drop 600).take 600)]

/-- The short insert is reported as complete, and the one that is cut off as truncated. -/
theorem cutInsert_confidence :
    ((EventProcessor.new .sample).emittedRecords (.ofDigests sampleDigests) cutInsert).map
        (fun event => (event.activity?.isSome, event.capture.truncated)) =
          [(true, false), (true, true)] ∧
      ∀ event ∈ (EventProcessor.new .sample).emittedRecords (.ofDigests sampleDigests) cutInsert,
        event.activity?.isSome →
          ConfidenceHolds (.ofDigests sampleDigests) .sample cutInsert event := by
  refine ⟨by decide +kernel, activity_confidence (forall_split_cons (fun _ hcuts => ?_)
    (forall_split_cons (fun _ hcuts => ?_) forall_split_nil))⟩
  · obtain ⟨-, length, hlength, hlong, -⟩ := hcuts
    have hnext : (((EventProcessor.new .sample).afterRecords (.ofDigests sampleDigests)
        []).decoderAt (streamKey (chunkRecord shortInsert).2.raw)).nextFrameLength
          (capturedBytes (chunkRecord shortInsert).2.raw) = .ok (some 40) := by
      decide +kernel
    cases hnext.symm.trans hlength
    exact absurd hlong (by decide)
  · have htruncated : isTruncated (chunkRecord longInsert).2.raw = true := by
      decide +kernel
    rw [hcuts.1] at htruncated
    cases htruncated

/-- Neither chunk of the split insert hands on a message that was decoded whole. -/
private theorem splitInsert_not_whole {earlier later : List Record} {record : Record}
    {message : DecodedMessage} (hsplit : splitInsert = earlier ++ record :: later)
    (hhands : HandsOn (.ofDigests sampleDigests)
      ((EventProcessor.new .sample).afterRecords (.ofDigests sampleDigests) earlier) record.2.raw
      message) :
    ¬DecodedWhole (.ofDigests sampleDigests)
      ((EventProcessor.new .sample).afterRecords (.ofDigests sampleDigests) earlier) record.2.raw
      message := by
  rintro ⟨frame, hinfix, hlength, -⟩
  obtain ⟨-, messages, hmessages, hmem⟩ := hhands
  have hle := hinfix.length_le
  cases earlier with
  | nil =>
    obtain ⟨rfl, -⟩ := List.cons.inj hsplit
    have hnone : ((EventProcessor.new .sample).decodeChunk (.ofDigests sampleDigests)
        (chunkRecord (longInsert.take 600)).2.raw).2 = .ok [] := by
      decide +kernel
    cases hmessages.symm.trans hnone
    cases hmem
  | cons first earlier =>
    obtain ⟨rfl, hrest⟩ := List.cons.inj hsplit
    cases earlier with
    | nil =>
      obtain ⟨rfl, -⟩ := List.cons.inj hrest
      have hwire : (((EventProcessor.new .sample).afterRecords (.ofDigests sampleDigests)
          [chunkRecord (longInsert.take 600)]).decodeChunk (.ofDigests sampleDigests)
            (chunkRecord ((longInsert.drop 600).take 600)).2.raw).2.toOption.map
              (fun messages => messages.map (·.wireBytes)) = some [longInsert.length] := by
        decide +kernel
      have hbytes : ((((EventProcessor.new .sample).afterRecords (.ofDigests sampleDigests)
          [chunkRecord (longInsert.take 600)]).decoderAt
            (streamKey (chunkRecord ((longInsert.drop 600).take 600)).2.raw)).buffer ++
          capturedBytes (chunkRecord ((longInsert.drop 600).take 600)).2.raw).length <
            longInsert.length := by
        decide +kernel
      rw [hmessages] at hwire
      have hlengths : messages.map (·.wireBytes) = [longInsert.length] := Option.some.inj hwire
      have hlong : message.wireBytes ∈ messages.map (·.wireBytes) :=
        List.mem_map.mpr ⟨message, hmem, rfl⟩
      rw [hlengths, List.mem_singleton] at hlong
      omega
    | cons second earlier =>
      obtain ⟨-, hnil⟩ := List.cons.inj hrest
      cases earlier with
      | nil => cases hnil
      | cons third earlier => cases hnil

/-- The insert in short chunks is decoded from its beginning and reported as complete. -/
theorem splitInsert_confidence :
    ∃ event ∈ (EventProcessor.new .sample).emittedRecords (.ofDigests sampleDigests) splitInsert,
      event.activity?.isSome ∧
        ¬ConfidenceHolds (.ofDigests sampleDigests) .sample splitInsert event := by
  have hevents : ((EventProcessor.new .sample).emittedRecords (.ofDigests sampleDigests)
      splitInsert).map (fun event => (event.activity?.isSome, event.capture.truncated)) =
        [(true, false)] := by
    decide +kernel
  obtain ⟨event, hevent, hflags⟩ := List.mem_map.mp
    (by rw [hevents]; exact List.mem_singleton_self _ : (true, false) ∈ _)
  obtain ⟨hsome, huntruncated⟩ := Prod.mk.inj hflags
  refine ⟨event, hevent, hsome, ?_⟩
  rintro ⟨-, -, raw, message, -, earlier, record, later, -, -, hsplit, rfl, hhands, hkind⟩
  rcases hkind with ⟨htruncated, -⟩ | ⟨-, -, hwhole⟩
  · rw [huntruncated] at htruncated
    cases htruncated
  · exact splitInsert_not_whole hsplit hhands hwhole

end MongoDam.Observer
