import MongoDam.Observer.Framing
import MongoDam.Protocol.Chunking

/-!
# Frames that are rejected

A frame that cannot be decoded makes the processor forget the stream and everything it
has decoded from the same chunk. The messages of the other frames are all handed on as
long as a chunk that meets a rejected frame ends with a frame and completes no frame
that is accepted.
-/

namespace MongoDam.Observer

open Lib Protocol EventProcessor

/-- A chunk at a position of the stream meets a rejected frame: it completes the frame, or
the length prefix of one that is too large. -/
def MeetsRejected (codecs : Decompressors) (maxMessageBytes : ℕ) (frames : List Bytes)
    (position count : ℕ) : Prop :=
  ∃ earlier frame later, frames = earlier ++ frame :: later ∧
    position < earlier.flatten.length + frame.length ∧
    (earlier.flatten.length + 4 ≤ position + count ∧ maxMessageBytes < frame.length ∨
      earlier.flatten.length + frame.length ≤ position + count ∧
        ∃ e, decodeFrame codecs frame maxMessageBytes = .error e)

/-- Every frame that a chunk at a position of the stream completes is rejected. -/
def CompletesRejected (codecs : Decompressors) (maxMessageBytes : ℕ) (frames : List Bytes)
    (position count : ℕ) : Prop :=
  ∀ earlier frame later, frames = earlier ++ frame :: later →
    position < earlier.flatten.length + frame.length →
    earlier.flatten.length + frame.length ≤ position + count →
    (decodeFrame codecs frame maxMessageBytes).isOk = false

/-- Every chunk that meets a rejected frame ends with a frame and completes rejected frames
only. -/
def RejectsAlone (codecs : Decompressors) (maxMessageBytes : ℕ)
    (frames chunks : List Bytes) : Prop :=
  ∀ before chunk after, chunks = before ++ chunk :: after →
    MeetsRejected codecs maxMessageBytes frames before.flatten.length chunk.length →
    FrameBoundary frames (before.flatten.length + chunk.length) ∧
      CompletesRejected codecs maxMessageBytes frames before.flatten.length chunk.length

/-- What the accepted frames decode to, in order. -/
def acceptedResults (codecs : Decompressors) (maxMessageBytes : ℕ) (frames : List Bytes) :
    List (Except DecodeError DecodedMessage) :=
  (frames.map fun frame => decodeFrame codecs frame maxMessageBytes).filter (·.isOk)

namespace EventProcessor

variable {lib : External} {p : EventProcessor} {raw : KernelEvent} {key : StreamKey}

/-- A chunk that is captured whole goes to the stream's decoder. -/
theorem decodeChunk_captured {chunk : Bytes} (hdelivers : Delivers key chunk raw)
    (hpositive : 0 < chunk.length) (hchunk : chunk.length ≤ MAX_CAPTURE_BYTES) :
    p.decodeChunk lib raw =
      match (p.decoderAt key).pushBoundedPrefix lib.codecs chunk MAX_CAPTURE_BYTES with
      | (_, .error e) => ({ p with streams := p.streams.erase key }, .error e.toText)
      | (decoder, .ok messages) =>
        ({ p with streams := p.streams.insert key decoder }, .ok messages) := by
  obtain ⟨-, rfl, hbytes, hcapturedLen, hdata⟩ := hdelivers
  have hcount : capturedLength raw = chunk.length := by
    rw [capturedLength, hcapturedLen]
    omega
  have hcaptured : raw.data.take (capturedLength raw) = chunk := by
    rw [hcount, ← Nat.min_eq_left hchunk, ← hcapturedLen, hdata]
    exact List.take_of_length_le hchunk
  have htruncated : isTruncated raw = false := by
    unfold isTruncated
    rw [decide_eq_false_iff_not]
    omega
  have hdecoder : p.streamDecoder raw = p.decoderAt (streamKey raw) := rfl
  unfold decodeChunk
  rw [hcaptured, hdecoder, if_neg (by omega), htruncated]
  rfl

/-- A chunk without bytes does nothing. -/
theorem decodeChunk_empty (hdelivers : Delivers key [] raw) :
    p.decodeChunk lib raw = (p, .ok []) := by
  obtain ⟨-, -, -, hcapturedLen, -⟩ := hdelivers
  have hcount : capturedLength raw = 0 := by
    rw [capturedLength, hcapturedLen]
    rfl
  unfold decodeChunk
  rw [if_pos hcount]

/-- Frames that were decoded are accepted. -/
private theorem acceptedResults_of_map_ok {codecs : Decompressors} {maxMessageBytes : ℕ}
    {frames : List Bytes} {messages : List DecodedMessage}
    (h : messages.map .ok = frames.map fun frame => decodeFrame codecs frame maxMessageBytes) :
    messages.map .ok = acceptedResults codecs maxMessageBytes frames := by
  rw [acceptedResults, ← h, List.filter_eq_self.mpr]
  intro result hresult
  obtain ⟨message, -, rfl⟩ := List.mem_map.mp hresult
  rfl

private theorem acceptedResults_append {codecs : Decompressors} {maxMessageBytes : ℕ}
    (first second : List Bytes) :
    acceptedResults codecs maxMessageBytes (first ++ second) =
      acceptedResults codecs maxMessageBytes first ++
        acceptedResults codecs maxMessageBytes second := by
  unfold acceptedResults
  rw [List.map_append, List.filter_append]

/-- When a chunk completes rejected frames only, none of them is accepted. -/
private theorem acceptedResults_eq_nil {codecs : Decompressors} {maxMessageBytes count : ℕ}
    {done rest : List Bytes} {bytes : Bytes} (hin : InFrame (done ++ rest) bytes)
    (hlength : done.flatten.length = bytes.length + count)
    (h : CompletesRejected codecs maxMessageBytes (done ++ rest) bytes.length count) :
    acceptedResults codecs maxMessageBytes done = [] := by
  refine List.filter_eq_nil_iff.mpr fun result hresult => ?_
  obtain ⟨frame, hframe, rfl⟩ := List.mem_map.mp hresult
  obtain ⟨earlier, later, rfl⟩ := List.append_of_mem hframe
  have hsplit : earlier ++ frame :: later ++ rest = earlier ++ frame :: (later ++ rest) := by
    rw [List.append_assoc, List.cons_append]
  rw [hsplit] at hin h
  rw [List.flatten_append, List.flatten_cons, List.length_append, List.length_append] at hlength
  have hrejected := h earlier frame (later ++ rest) rfl hin.lt_of_mem (by omega)
  rw [hrejected]
  exact Bool.false_ne_true

/-- One chunk on an aligned decoder: it completes frames, hands the decodings of those that
are accepted, and leaves the decoder aligned. -/
private theorem decodeChunk_accepted {frames : List Bytes} {chunk later : Bytes}
    (haligned : p.Aligned key frames (chunk ++ later))
    (hframes : ∀ frame ∈ frames, WellFormedFrame frame ∧ frame.length ≤ MAX_CAPTURE_BYTES)
    (hchunk : chunk.length ≤ MAX_CAPTURE_BYTES) (hdelivers : Delivers key chunk raw)
    (hrejects : MeetsRejected lib.codecs p.config.maxMessageBytes frames
        (p.decoderAt key).buffer.length chunk.length →
      FrameBoundary frames ((p.decoderAt key).buffer.length + chunk.length) ∧
        CompletesRejected lib.codecs p.config.maxMessageBytes frames
          (p.decoderAt key).buffer.length chunk.length) :
    ∃ done rest, frames = done ++ rest ∧
      ((p.decodeChunk lib raw).2.toOption.getD []).map .ok =
        acceptedResults lib.codecs p.config.maxMessageBytes done ∧
      (p.decodeChunk lib raw).1.Aligned key rest later ∧
      (p.decoderAt key).buffer ++ chunk =
        done.flatten ++ ((p.decodeChunk lib raw).1.decoderAt key).buffer := by
  by_cases hempty : chunk.length = 0
  · have hnil : chunk = [] := List.eq_nil_of_length_eq_zero hempty
    subst hnil
    rw [decodeChunk_empty hdelivers]
    exact ⟨[], frames, rfl, rfl, haligned, List.append_nil _⟩
  have hlimit : (p.decoderAt key).config.maxMessageBytes = p.config.maxMessageBytes := by
    rw [haligned.config]
    rfl
  have hroom : 2 * MAX_CAPTURE_BYTES ≤ (p.decoderAt key).config.maxBufferBytes := by
    rw [haligned.config, Nat.mul_comm]
    exact Nat.le_refl _
  have hstream : (p.decoderAt key).buffer ++ chunk ++ later = frames.flatten := by
    rw [List.append_assoc]
    exact haligned.stream
  rw [decodeChunk_captured hdelivers (by omega) hchunk]
  rcases @pushBoundedPrefix_short lib.codecs _ _ _ _ _ (by decide) hroom hframes haligned.inFrame
    hstream hchunk with
    ⟨done, rest, left, messages, rfl, hleft, hin, hmessages, hpush⟩ | ⟨dropped, e, hpush, hdrops⟩
  · rw [hpush]
    have hdecoder := decoderAt_insert p key ⟨(p.decoderAt key).config, left⟩
    have hcoming : left ++ later = rest.flatten := by
      rw [hleft, List.flatten_append, List.append_assoc] at hstream
      exact List.append_cancel_left hstream
    have hshort : left.length < MAX_CAPTURE_BYTES := by
      cases rest with
      | nil =>
        have hnil : left = [] := hin
        rw [hnil]
        decide
      | cons frame rest =>
        have hinside : left.length < frame.length := hin
        have hfits := (hframes frame (List.mem_append_right done List.mem_cons_self)).2
        omega
    rw [hlimit] at hmessages
    refine ⟨done, rest, rfl, acceptedResults_of_map_ok hmessages, ?_, ?_⟩
    · exact aligned_of_decoder
        (hdecoder.trans (congrArg (StreamDecoder.mk · left) haligned.config)) hshort hin hcoming
    · rw [hleft]
      exact congrArg (fun decoder => done.flatten ++ decoder.buffer) hdecoder.symm
  · rw [hpush]
    rw [hlimit] at hdrops
    obtain ⟨earlier, frame, rest, hsplit, hopen, hkind⟩ := hdrops
    have hmeets : MeetsRejected lib.codecs p.config.maxMessageBytes frames
        (p.decoderAt key).buffer.length chunk.length := by
      refine ⟨earlier, frame, rest, hsplit, hopen, ?_⟩
      rcases hkind with ⟨-, hlong, -⟩ | hkind
      · have hfits := (hframes frame (by rw [hsplit]; simp)).2
        omega
      · exact hkind
    obtain ⟨⟨done, rest, rfl, hlength⟩, hrejected⟩ := hrejects hmeets
    have hin := haligned.inFrame
    rw [List.flatten_append] at hstream
    have hparts := List.append_inj hstream (by rw [List.length_append, hlength])
    refine ⟨done, rest, rfl, ?_, ?_, ?_⟩
    · rw [acceptedResults_eq_nil hin hlength hrejected]
      rfl
    · exact aligned_of_dropped (decoderAt_erase p key)
        (fun frame hmem => (hframes frame (List.mem_append_right done hmem)).1) hparts.2
    · rw [hparts.1, decoderAt_erase, List.append_nil]

/-! ### Runs -/

private theorem meetsRejected_append {codecs : Decompressors} {maxMessageBytes position count : ℕ}
    {frames : List Bytes} (earlier : List Bytes)
    (h : MeetsRejected codecs maxMessageBytes frames position count) :
    MeetsRejected codecs maxMessageBytes (earlier ++ frames) (earlier.flatten.length + position)
      count := by
  obtain ⟨before, frame, after, rfl, hopen, hkind⟩ := h
  refine ⟨earlier ++ before, frame, after, (List.append_assoc ..).symm, ?_⟩
  rw [List.flatten_append, List.length_append]
  refine ⟨by omega, ?_⟩
  rcases hkind with ⟨hheader, hlong⟩ | ⟨hwhole, hrejected⟩
  · exact Or.inl ⟨by omega, hlong⟩
  · exact Or.inr ⟨by omega, hrejected⟩

private theorem completesRejected_of_append {codecs : Decompressors}
    {maxMessageBytes position count : ℕ} {earlier frames : List Bytes}
    (h : CompletesRejected codecs maxMessageBytes (earlier ++ frames)
      (earlier.flatten.length + position) count) :
    CompletesRejected codecs maxMessageBytes frames position count := by
  rintro before frame after rfl hopen hended
  refine h (earlier ++ before) frame after (List.append_assoc ..).symm ?_ ?_
  · rw [List.flatten_append, List.length_append]
    omega
  · rw [List.flatten_append, List.length_append]
    omega

/-- A run from an aligned decoder. `received` is what was delivered before, of which the
frames `earlier` are complete. -/
private theorem handed_of_rejectsAlone {received earlier frames chunks : List Bytes}
    {records : List Record} (haligned : p.Aligned key frames chunks.flatten)
    (hreceived : received.flatten.length =
      earlier.flatten.length + (p.decoderAt key).buffer.length)
    (hframes : ∀ frame ∈ frames, WellFormedFrame frame ∧ frame.length ≤ MAX_CAPTURE_BYTES)
    (hchunks : ∀ chunk ∈ chunks, chunk.length ≤ MAX_CAPTURE_BYTES)
    (hdelivers : List.Forall₂ (fun chunk (record : Record) => Delivers key chunk record.2.raw)
      chunks records)
    (hrejects : RejectsAlone lib.codecs p.config.maxMessageBytes (earlier ++ frames)
      (received ++ chunks)) :
    (p.handed lib records).map .ok =
      acceptedResults lib.codecs p.config.maxMessageBytes frames := by
  induction hdelivers generalizing p received earlier frames with
  | nil =>
    have hstream := haligned.stream
    rw [List.flatten_nil, List.append_nil] at hstream
    rw [haligned.inFrame.eq_nil hstream]
    rfl
  | @cons chunk record chunks records hchunk hrest ih =>
    have hstep := decodeChunk_accepted haligned hframes (hchunks chunk List.mem_cons_self) hchunk
      (fun hmeets => by
        have hwhole := hrejects received chunk chunks rfl
        rw [hreceived] at hwhole
        obtain ⟨hboundary, hrejected⟩ := hwhole (meetsRejected_append earlier hmeets)
        rw [Nat.add_assoc] at hboundary
        exact ⟨frameBoundary_of_append hboundary, completesRejected_of_append hrejected⟩)
    obtain ⟨done, rest, rfl, hmessages, hafter, hbuffer⟩ := hstep
    obtain ⟨hconfig, hdecoder⟩ := decoderAt_process lib p key record hchunk.1
    have hlengths := congrArg List.length hbuffer
    rw [List.length_append, List.length_append] at hlengths
    have hreceivedNext : (received ++ [chunk]).flatten.length = (earlier ++ done).flatten.length +
        ((p.process lib record.1 record.2).1.decoderAt key).buffer.length := by
      rw [hdecoder, List.flatten_append, List.length_append, List.flatten_append,
        List.length_append, List.flatten_singleton]
      omega
    have hrejectsNext : RejectsAlone lib.codecs
        (p.process lib record.1 record.2).1.config.maxMessageBytes
        ((earlier ++ done) ++ rest) ((received ++ [chunk]) ++ chunks) := by
      rw [hconfig, List.append_assoc, List.append_assoc]
      exact hrejects
    have hmore := ih (hafter.process hchunk.1) hreceivedNext
      (fun frame hmem => hframes frame (List.mem_append_right done hmem))
      (fun other hmem => hchunks other (List.mem_cons_of_mem _ hmem)) hrejectsNext
    rw [hconfig] at hmore
    rw [handed, List.map_append, hmessages, hmore, acceptedResults_append]

end EventProcessor

/-- Where every chunk that meets a rejected frame ends with a frame and completes rejected
frames only, the messages that are handed on are the decodings of the accepted frames. -/
theorem handed_accepted {lib : External} {config : ProcessorConfig} {key : StreamKey}
    {frames chunks : List Bytes} {records : List Record}
    (hframes : ∀ frame ∈ frames, WellFormedFrame frame ∧ frame.length ≤ MAX_CAPTURE_BYTES)
    (hchunks : ∀ chunk ∈ chunks, chunk.length ≤ MAX_CAPTURE_BYTES)
    (hstream : chunks.flatten = frames.flatten)
    (hdelivers : List.Forall₂ (fun chunk (record : Record) => Delivers key chunk record.2.raw)
      chunks records)
    (hrejects : RejectsAlone lib.codecs config.maxMessageBytes frames chunks) :
    ((EventProcessor.new config).handed lib records).map .ok =
      (frames.map fun frame => decodeFrame lib.codecs frame config.maxMessageBytes).filter
        (·.isOk) := by
  have hnew : (EventProcessor.new config).decoderAt key =
      ⟨(EventProcessor.new config).decoderConfig, []⟩ := rfl
  have haligned : (EventProcessor.new config).Aligned key frames chunks.flatten :=
    aligned_of_dropped hnew (fun frame hmem => (hframes frame hmem).1) hstream
  have hreceived : ([] : List Bytes).flatten.length = ([] : List Bytes).flatten.length +
      ((EventProcessor.new config).decoderAt key).buffer.length := by
    rw [hnew]
    rfl
  exact handed_of_rejectsAlone haligned hreceived hframes hchunks hdelivers hrejects

/-- Two splits of a list of frames at frames that overlap are the same. -/
private theorem split_unique {before after earlier later : List Bytes} {chunk frame : Bytes}
    (h : before ++ chunk :: after = earlier ++ frame :: later)
    (hopen : before.flatten.length < earlier.flatten.length + frame.length)
    (hbegun : earlier.flatten.length < before.flatten.length + chunk.length) : frame = chunk := by
  rcases List.append_eq_append_iff.mp h with ⟨middle, rfl, hchunk⟩ | ⟨middle, rfl, hframe⟩
  · cases middle with
    | nil => exact (List.cons.inj hchunk).1.symm
    | cons first middle =>
      rw [List.cons_append] at hchunk
      rw [List.flatten_append, List.length_append, List.flatten_cons, List.length_append,
        ← (List.cons.inj hchunk).1] at hbegun
      omega
  · cases middle with
    | nil => exact (List.cons.inj hframe).1
    | cons first middle =>
      rw [List.cons_append] at hframe
      rw [List.flatten_append, List.length_append, List.flatten_cons, List.length_append,
        ← (List.cons.inj hframe).1] at hopen
      omega

/-- Frames that come in chunks of their own meet the condition. -/
theorem rejectsAlone_self {codecs : Decompressors} {maxMessageBytes : ℕ} {frames : List Bytes}
    (hframes : ∀ frame ∈ frames, WellFormedFrame frame) :
    RejectsAlone codecs maxMessageBytes frames frames := by
  rintro before chunk after rfl ⟨earlier, frame, later, hsplit, hopen, hkind⟩
  have hframe : 16 ≤ frame.length := by
    refine (hframes frame ?_).1
    rw [hsplit]
    exact List.mem_append_right earlier List.mem_cons_self
  have hrejected : (decodeFrame codecs chunk maxMessageBytes).isOk = false := by
    rw [← split_unique hsplit hopen (by omega)]
    rcases hkind with ⟨-, hlarge⟩ | ⟨-, e, herror⟩
    · cases hdecoded : decodeFrame codecs frame maxMessageBytes with
      | error e => rfl
      | ok message =>
        have hfits := (decodeFrame_length hdecoded).2.2
        omega
    · rw [herror]
      rfl
  refine ⟨⟨before ++ [chunk], after, by simp, by simp⟩, ?_⟩
  intro earlier frame later hsplit hopen hended
  have hframe : 16 ≤ frame.length := by
    refine (hframes frame ?_).1
    rw [hsplit]
    exact List.mem_append_right earlier List.mem_cons_self
  rw [split_unique hsplit hopen (by omega)]
  exact hrejected

/-- A reply that ends with its header. -/
def truncatedReply : Bytes := leBytes 4 16 ++ leBytes 4 3 ++ leBytes 4 0 ++ leBytes 4 1

/-- A ping, a truncated reply and another ping. -/
def mixedFrames : List Bytes := [pingFrame 1, truncatedReply, pingFrame 2]

private theorem mixedFrames_wellFormed :
    ∀ frame ∈ mixedFrames, WellFormedFrame frame ∧ frame.length ≤ MAX_CAPTURE_BYTES := by
  unfold WellFormedFrame
  decide +kernel

/-- With the truncated reply in a chunk of its own, both pings are handed on. -/
theorem mixedFrames_handed :
    ((EventProcessor.new .sample).handed (.ofDigests sampleDigests)
        (mixedFrames.map chunkRecord)).map .ok =
      (mixedFrames.map fun frame => decodeFrame (External.ofDigests sampleDigests).codecs frame
        ProcessorConfig.sample.maxMessageBytes).filter (·.isOk) := by
  have hrejects : RejectsAlone (External.ofDigests sampleDigests).codecs
      ProcessorConfig.sample.maxMessageBytes mixedFrames mixedFrames :=
    rejectsAlone_self fun frame hmem => (mixedFrames_wellFormed frame hmem).1
  exact handed_accepted mixedFrames_wellFormed (by decide +kernel) rfl
    (delivers_chunkRecords mixedFrames) hrejects

/-- In one chunk, the truncated reply costs both pings. -/
theorem mixedFrames_lost :
    (∀ frame ∈ mixedFrames, WellFormedFrame frame ∧ frame.length ≤ MAX_CAPTURE_BYTES) ∧
      (∀ chunk ∈ [mixedFrames.flatten], chunk.length ≤ MAX_CAPTURE_BYTES) ∧
      [mixedFrames.flatten].flatten = mixedFrames.flatten ∧
      List.Forall₂ (fun chunk (record : Record) => Delivers (7, 8, 0) chunk record.2.raw)
        [mixedFrames.flatten] ([mixedFrames.flatten].map chunkRecord) ∧
      ((EventProcessor.new .sample).handed (.ofDigests sampleDigests)
          ([mixedFrames.flatten].map chunkRecord)).map .ok ≠
        (mixedFrames.map fun frame => decodeFrame (External.ofDigests sampleDigests).codecs frame
          ProcessorConfig.sample.maxMessageBytes).filter (·.isOk) := by
  refine ⟨mixedFrames_wellFormed, by decide +kernel, by decide +kernel,
    delivers_chunkRecords [mixedFrames.flatten], ?_⟩
  decide +kernel

end MongoDam.Observer
