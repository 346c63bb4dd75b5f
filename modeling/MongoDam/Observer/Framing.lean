import MongoDam.Lib.Trace
import MongoDam.Observer.Runs
import MongoDam.Protocol.Encode
import MongoDam.Protocol.Framing

/-!
# Frames behind the handed messages

The sensor delivers the bytes of one direction of a connection in chunks, of which it
captures the beginning. The processor's decoder stays aligned with the frames of the
stream as long as it drops its buffer only where a frame ends: each handed message is
then the decoding of a frame of the stream, in the order of the frames and at most one
for each.
-/

namespace MongoDam.Observer

open Lib Protocol EventProcessor

/-- The record reports a chunk of a stream: its true length, and as data its first bytes. -/
def Delivers (key : StreamKey) (chunk : Bytes) (raw : KernelEvent) : Prop :=
  raw.eventType = EVENT_IO_CHUNK ∧ streamKey raw = key ∧ raw.bytes = chunk.length ∧
    raw.capturedLen = min chunk.length MAX_CAPTURE_BYTES ∧
    raw.data.take raw.capturedLen = chunk.take MAX_CAPTURE_BYTES

/-- A frame of the stream ends at the position, or none has started there. -/
def FrameBoundary (frames : List Bytes) (position : ℕ) : Prop :=
  ∃ earlier later, frames = earlier ++ later ∧ earlier.flatten.length = position

/-- A chunk at a position of the stream makes the processor drop its decoder's buffer: it
is captured in part, or it drops the buffer of a stream decoder. -/
def ChunkDrops (codecs : Decompressors) (maxMessageBytes : ℕ) (frames : List Bytes)
    (position count : ℕ) : Prop :=
  0 < count ∧ (MAX_CAPTURE_BYTES < count ∨
    DropsBuffer codecs maxMessageBytes MAX_CAPTURE_BYTES frames position count)

/-- Every chunk that drops the buffer ends with a frame. -/
def DropsAtBoundaries (codecs : Decompressors) (maxMessageBytes : ℕ)
    (frames chunks : List Bytes) : Prop :=
  ∀ before chunk after, chunks = before ++ chunk :: after →
    ChunkDrops codecs maxMessageBytes frames before.flatten.length chunk.length →
    FrameBoundary frames (before.flatten.length + chunk.length)

namespace EventProcessor

/-- The limits of the processor's stream decoders. -/
def decoderConfig (p : EventProcessor) : DecoderConfig where
  maxMessageBytes := p.config.maxMessageBytes
  maxBufferBytes := MAX_CAPTURE_BYTES * 2

/-- The decoder of a stream, or a new one. -/
def decoderAt (p : EventProcessor) (key : StreamKey) : StreamDecoder :=
  p.streams.getD key (.new p.decoderConfig)

/-- The messages that the I/O chunks among the records hand to `processMessage`. -/
def handed (lib : External) : EventProcessor → List Record → List DecodedMessage
  | _, [] => []
  | p, record :: rest =>
    (p.decodeChunk lib record.2.raw).2.toOption.getD [] ++
      handed lib (p.process lib record.1 record.2).1 rest

/-- The decoder of the stream holds what has arrived of the first of the frames, and the
frames consist of that and the bytes still to come. -/
structure Aligned (p : EventProcessor) (key : StreamKey) (frames : List Bytes) (coming : Bytes) :
    Prop where
  config : (p.decoderAt key).config = p.decoderConfig
  short : (p.decoderAt key).buffer.length < MAX_CAPTURE_BYTES
  inFrame : InFrame frames (p.decoderAt key).buffer
  stream : (p.decoderAt key).buffer ++ coming = frames.flatten

variable {lib : External} {p : EventProcessor} {raw : KernelEvent} {key : StreamKey}

/-! ### Decoding a chunk -/

/-- Messages leave the stream decoders alone. -/
theorem decoderAt_process (lib : External) (p : EventProcessor) (key : StreamKey)
    (record : Record) (h : record.2.raw.eventType = EVENT_IO_CHUNK) :
    (p.process lib record.1 record.2).1.config = p.config ∧
      (p.process lib record.1 record.2).1.decoderAt key =
        (p.decodeChunk lib record.2.raw).1.decoderAt key := by
  have hmessages : ∀ (q : EventProcessor) (messages : List (Host × DecodedMessage)),
      (processMessages lib record.2.raw (isTruncated record.2.raw) q messages).1.config = q.config ∧
        (processMessages lib record.2.raw (isTruncated record.2.raw) q messages).1.streams =
          q.streams := by
    intro q messages
    induction messages generalizing q with
    | nil => exact ⟨rfl, rfl⟩
    | cons message rest ih =>
      obtain ⟨hconfig, hstreams⟩ := ih (q.processMessage lib message.1 record.2.raw
        (isTruncated record.2.raw) message.2).1
      rw [processMessage_config] at hconfig
      rw [processMessage_streams] at hstreams
      exact ⟨hconfig, hstreams⟩
  obtain ⟨streams, hdecode⟩ := p.decodeChunk_fst lib record.2.raw
  have hconfig : (p.decodeChunk lib record.2.raw).1.config = p.config := by
    rw [hdecode]
  unfold process
  rw [if_pos h]
  unfold processIoChunk
  rcases hresult : p.decodeChunk lib record.2.raw with ⟨q, result⟩
  rw [hresult] at hconfig
  cases result with
  | error e => exact ⟨hconfig, rfl⟩
  | ok messages =>
    dsimp only at hconfig ⊢
    obtain ⟨hafter, hstreams⟩ := hmessages q (messages.zipIdx.map
      (fun entry => (record.1 entry.2, entry.1)))
    refine ⟨hafter.trans hconfig, ?_⟩
    unfold decoderAt decoderConfig
    rw [hafter, hstreams]

theorem aligned_of_decoder {q : EventProcessor} {frames : List Bytes} {left coming : Bytes}
    (hdecoder : q.decoderAt key = ⟨q.decoderConfig, left⟩)
    (hshort : left.length < MAX_CAPTURE_BYTES)
    (hin : InFrame frames left) (hstream : left ++ coming = frames.flatten) :
    q.Aligned key frames coming where
  config := by rw [hdecoder]
  short := by rw [hdecoder]; exact hshort
  inFrame := by rw [hdecoder]; exact hin
  stream := by rw [hdecoder]; exact hstream

/-- After the buffer is dropped, the decoder is aligned with the frames still to come. -/
theorem aligned_of_dropped {q : EventProcessor} {frames : List Bytes} {coming : Bytes}
    (hdecoder : q.decoderAt key = ⟨q.decoderConfig, []⟩)
    (hframes : ∀ frame ∈ frames, WellFormedFrame frame) (hstream : coming = frames.flatten) :
    q.Aligned key frames coming := by
  refine aligned_of_decoder hdecoder (by decide) ?_ hstream
  cases frames with
  | nil => rfl
  | cons frame rest =>
    have hframe := (hframes frame List.mem_cons_self).1
    exact Nat.lt_of_lt_of_le (by decide : 0 < 16) hframe

/-- The effect of one chunk: it completes frames, hands decodings of some of them, and
leaves the decoder aligned. -/
def ChunkStep (lib : External) (p : EventProcessor) (key : StreamKey) (frames : List Bytes)
    (chunk later : Bytes) (q : EventProcessor) (messages : List DecodedMessage) : Prop :=
  ∃ done rest used, frames = done ++ rest ∧ used.Sublist done ∧
    List.Forall₂ (DecodingOf lib.codecs p.config.maxMessageBytes) messages used ∧
    q.Aligned key rest later ∧
    (p.decoderAt key).buffer ++ chunk = done.flatten ++ (q.decoderAt key).buffer

/-- A chunk that drops the buffer and ends with a frame. -/
private theorem chunkStep_of_drop {q : EventProcessor} {frames : List Bytes} {chunk later : Bytes}
    {messages : List DecodedMessage} (haligned : p.Aligned key frames (chunk ++ later))
    (hframes : ∀ frame ∈ frames, WellFormedFrame frame) (hchunk : 0 < chunk.length)
    (hboundary : FrameBoundary frames ((p.decoderAt key).buffer.length + chunk.length))
    (hdecoder : q.decoderAt key = ⟨q.decoderConfig, []⟩)
    (hmessages : messages = [] ∨ ∃ frame rest message, frames = frame :: rest ∧
      messages = [message] ∧ DecodingOf lib.codecs p.config.maxMessageBytes message frame) :
    ChunkStep lib p key frames chunk later q messages := by
  obtain ⟨done, rest, hsplit, hlength⟩ := hboundary
  have hstream := haligned.stream
  rw [hsplit, List.flatten_append, ← List.append_assoc] at hstream
  have hparts := List.append_inj hstream (by rw [List.length_append, hlength])
  have hrest : q.Aligned key rest later := aligned_of_dropped hdecoder
    (fun frame hmem => hframes frame (by rw [hsplit]; exact List.mem_append_right done hmem))
    hparts.2
  have hbuffer : (p.decoderAt key).buffer ++ chunk = done.flatten ++ (q.decoderAt key).buffer := by
    rw [hdecoder, hparts.1, List.append_nil]
  rcases hmessages with rfl | ⟨frame, others, message, hfirst, rfl, hdecoded⟩
  · exact ⟨done, rest, [], hsplit, List.nil_sublist done, .nil, hrest, hbuffer⟩
  · refine ⟨done, rest, [frame], hsplit, ?_, .cons hdecoded .nil, hrest, hbuffer⟩
    -- the chunk is not empty, so the first frame is among those it completes
    cases done with
    | nil =>
      rw [List.flatten_nil, List.length_nil] at hlength
      omega
    | cons first done =>
      rw [hsplit, List.cons_append] at hfirst
      rw [(List.cons.inj hfirst).1]
      exact List.singleton_sublist.mpr List.mem_cons_self

theorem decoderAt_erase (p : EventProcessor) (key : StreamKey) :
    ({ p with streams := p.streams.erase key } : EventProcessor).decoderAt key =
      ⟨p.decoderConfig, []⟩ := by
  unfold decoderAt Table.getD
  rw [Table.get?_erase_self]
  rfl

theorem decoderAt_insert (p : EventProcessor) (key : StreamKey) (decoder : StreamDecoder) :
    ({ p with streams := p.streams.insert key decoder } : EventProcessor).decoderAt key =
      decoder := by
  unfold decoderAt Table.getD
  rw [Table.get?_insert_self]
  rfl

/-- One chunk on an aligned decoder. -/
theorem decodeChunk_step {frames : List Bytes} {chunk later : Bytes}
    (haligned : p.Aligned key frames (chunk ++ later))
    (hframes : ∀ frame ∈ frames, WellFormedFrame frame) (hdelivers : Delivers key chunk raw)
    (hdrops : ChunkDrops lib.codecs p.config.maxMessageBytes frames
        (p.decoderAt key).buffer.length chunk.length →
      FrameBoundary frames ((p.decoderAt key).buffer.length + chunk.length)) :
    ChunkStep lib p key frames chunk later (p.decodeChunk lib raw).1
      ((p.decodeChunk lib raw).2.toOption.getD []) := by
  obtain ⟨-, rfl, hbytes, hcapturedLen, hdata⟩ := hdelivers
  have hcount : capturedLength raw = min chunk.length MAX_CAPTURE_BYTES := by
    rw [capturedLength, hcapturedLen]
    omega
  have hcaptured : raw.data.take (capturedLength raw) = chunk.take MAX_CAPTURE_BYTES := by
    rw [hcount, ← hcapturedLen, hdata]
  have hconfig := haligned.config
  have hstream := haligned.stream
  have hshort := haligned.short
  have hdecoder : p.streamDecoder raw = p.decoderAt (streamKey raw) := rfl
  unfold decodeChunk
  rw [hcaptured, hdecoder]
  dsimp only
  by_cases hempty : chunk.length = 0
  · have hnil : chunk = [] := List.eq_nil_of_length_eq_zero hempty
    subst hnil
    rw [if_pos (by rw [hcount]; rfl)]
    rw [List.nil_append] at haligned
    exact ⟨[], frames, [], rfl, List.nil_sublist [], .nil, haligned, List.append_nil _⟩
  · have hpositive : 0 < chunk.length := by omega
    have hfollowed : (p.decoderAt (streamKey raw)).buffer ++ chunk ++ later = frames.flatten := by
      rw [List.append_assoc]
      exact hstream
    obtain ⟨frame, rest, rfl, hinside⟩ :=
      InFrame.cons_of_pos haligned.inFrame hfollowed hpositive
    have hframe := hframes frame List.mem_cons_self
    rw [if_neg (by rw [hcount]; unfold MAX_CAPTURE_BYTES; omega)]
    by_cases hlarge : MAX_CAPTURE_BYTES < chunk.length
    · have htruncated : isTruncated raw = true := by
        unfold isTruncated
        rw [decide_eq_true_iff]
        omega
      rw [if_pos htruncated]
      refine chunkStep_of_drop haligned hframes hpositive (hdrops ⟨hpositive, Or.inl hlarge⟩)
        (decoderAt_erase p (streamKey raw)) ?_
      unfold StreamDecoder.pushTruncated StreamDecoder.bufferedBytes
      rw [if_neg (by rw [hconfig, List.length_take]; unfold decoderConfig; dsimp only; omega)]
      cases hdecoded : decodeFramePrefix lib.codecs ((p.decoderAt (streamKey raw)).buffer ++
          (chunk.take MAX_CAPTURE_BYTES).take
            (MAX_CAPTURE_BYTES - (p.decoderAt (streamKey raw)).buffer.length))
          (p.decoderAt (streamKey raw)).config.maxMessageBytes with
      | error e => exact Or.inl rfl
      | ok message =>
        refine Or.inr ⟨frame, rest, message, rfl, rfl, ?_⟩
        have hbegins : (p.decoderAt (streamKey raw)).buffer ++ (chunk.take MAX_CAPTURE_BYTES).take
            (MAX_CAPTURE_BYTES - (p.decoderAt (streamKey raw)).buffer.length) ++
            (chunk.drop (MAX_CAPTURE_BYTES - (p.decoderAt (streamKey raw)).buffer.length) ++
              later) =
              frame ++ rest.flatten := by
          rw [List.take_take, Nat.min_eq_left (by omega), List.append_assoc,
            ← List.append_assoc (chunk.take _), List.take_append_drop,
            ← List.append_assoc, hfollowed,
            List.flatten_cons]
        rw [hconfig] at hdecoded
        exact decodingOf_append_eq hframe hbegins hdecoded
    · have hwhole : chunk.take MAX_CAPTURE_BYTES = chunk := List.take_of_length_le (by omega)
      have htruncated : isTruncated raw = false := by
        unfold isTruncated
        rw [decide_eq_false_iff_not]
        omega
      rw [htruncated, hwhole]
      have hroom : 2 * MAX_CAPTURE_BYTES ≤ (p.decoderAt (streamKey raw)).config.maxBufferBytes := by
        rw [hconfig, Nat.mul_comm]
        exact Nat.le_refl _
      have houtcome : ChunkOutcome lib.codecs (p.decoderAt (streamKey raw)) chunk MAX_CAPTURE_BYTES
          (frame :: rest) ((p.decoderAt (streamKey raw)).pushBoundedPrefix lib.codecs chunk
            MAX_CAPTURE_BYTES) :=
        pushBoundedPrefix_outcome (by decide) hroom hframes hinside hshort hfollowed (by omega)
      have hlimit : (p.decoderAt (streamKey raw)).config.maxMessageBytes =
          p.config.maxMessageBytes := by
        rw [hconfig]
        rfl
      revert houtcome
      generalize (p.decoderAt (streamKey raw)).pushBoundedPrefix lib.codecs chunk
        MAX_CAPTURE_BYTES = result
      intro houtcome
      cases houtcome with
      | @aligned done others left messages hsplit hbuffer hin hleft hmessages =>
        rw [hlimit] at hmessages
        have hinserted := decoderAt_insert p (streamKey raw) ⟨p.decoderConfig, left⟩
        have hcoming : left ++ later = others.flatten := by
          rw [hsplit, hbuffer, List.flatten_append, List.append_assoc] at hfollowed
          exact List.append_cancel_left hfollowed
        rw [hconfig]
        refine ⟨done, others, done, hsplit, List.Sublist.refl done, hmessages,
          aligned_of_decoder hinserted hleft hin hcoming, ?_⟩
        rw [hbuffer]
        exact congrArg (fun decoder => done.flatten ++ decoder.buffer) hinserted.symm
      | rejected hdrop =>
        rw [hlimit] at hdrop
        exact chunkStep_of_drop haligned hframes hpositive (hdrops ⟨hpositive, Or.inr hdrop⟩)
          (decoderAt_erase p (streamKey raw)) (Or.inl rfl)
      | @reported first others message hdrop hfirst hdecoded =>
        rw [hlimit] at hdrop hdecoded
        refine chunkStep_of_drop haligned hframes hpositive (hdrops ⟨hpositive, Or.inr hdrop⟩)
          ((decoderAt_insert p (streamKey raw) _).trans ?_)
          (Or.inr ⟨first, others, message, hfirst, rfl, hdecoded⟩)
        rw [StreamDecoder.clear, hconfig]
        rfl

/-! ### Runs -/

theorem frameBoundary_of_append {earlier frames : List Bytes} {position : ℕ}
    (h : FrameBoundary (earlier ++ frames) (earlier.flatten.length + position)) :
    FrameBoundary frames position := by
  obtain ⟨first, second, hsplit, hlength⟩ := h
  rcases List.append_eq_append_iff.mp hsplit with ⟨middle, rfl, hframes⟩ | ⟨middle, rfl, hsecond⟩
  · rw [List.flatten_append, List.length_append] at hlength
    exact ⟨middle, second, hframes, by omega⟩
  · rw [List.flatten_append, List.length_append] at hlength
    refine ⟨[], frames, rfl, ?_⟩
    rw [List.flatten_nil, List.length_nil]
    omega

private theorem chunkDrops_append {codecs : Decompressors} {maxMessageBytes position count : ℕ}
    {frames : List Bytes} (earlier : List Bytes)
    (h : ChunkDrops codecs maxMessageBytes frames position count) :
    ChunkDrops codecs maxMessageBytes (earlier ++ frames) (earlier.flatten.length + position)
      count := by
  obtain ⟨hcount, hlarge | ⟨before, frame, after, rfl, hopen, hkind⟩⟩ := h
  · exact ⟨hcount, Or.inl hlarge⟩
  · refine ⟨hcount, Or.inr ⟨earlier ++ before, frame, after, (List.append_assoc ..).symm, ?_⟩⟩
    rw [List.flatten_append, List.length_append]
    refine ⟨by omega, ?_⟩
    rcases hkind with ⟨hstarted, hlong, hlimit⟩ | ⟨hheader, hlong⟩ | ⟨hwhole, hrejected⟩
    · exact Or.inl ⟨by omega, hlong, by omega⟩
    · exact Or.inr (Or.inl ⟨by omega, hlong⟩)
    · exact Or.inr (Or.inr ⟨by omega, hrejected⟩)

/-- Handling the messages of a chunk keeps the alignment that decoding it left. -/
theorem Aligned.process {frames : List Bytes} {coming : Bytes} {record : Record}
    (h : (p.decodeChunk lib record.2.raw).1.Aligned key frames coming)
    (htype : record.2.raw.eventType = EVENT_IO_CHUNK) :
    (p.process lib record.1 record.2).1.Aligned key frames coming := by
  obtain ⟨hconfig, hdecoder⟩ := decoderAt_process lib p key record htype
  obtain ⟨streams, hdecode⟩ := p.decodeChunk_fst lib record.2.raw
  refine ⟨?_, ?_, ?_, ?_⟩
  · rw [hdecoder, h.config, decoderConfig, decoderConfig, hconfig, hdecode]
  · rw [hdecoder]
    exact h.short
  · rw [hdecoder]
    exact h.inFrame
  · rw [hdecoder]
    exact h.stream

/-- A run from an aligned decoder. `received` is what was delivered before, of which the
frames `earlier` are complete. -/
theorem handed_of_aligned {received earlier frames chunks : List Bytes} {records : List Record}
    (haligned : p.Aligned key frames chunks.flatten)
    (hreceived : received.flatten.length =
      earlier.flatten.length + (p.decoderAt key).buffer.length)
    (hframes : ∀ frame ∈ frames, WellFormedFrame frame)
    (hdelivers : List.Forall₂ (fun chunk (record : Record) => Delivers key chunk record.2.raw)
      chunks records)
    (hdrops : DropsAtBoundaries lib.codecs p.config.maxMessageBytes (earlier ++ frames)
      (received ++ chunks)) :
    (∃ used, used.Sublist frames ∧
      List.Forall₂ (DecodingOf lib.codecs p.config.maxMessageBytes) (p.handed lib records) used) ∧
    ∀ before after, records = before ++ after → ∃ done rest, frames = done ++ rest ∧
      (p.decoderAt key).buffer ++ (chunks.take before.length).flatten =
        done.flatten ++ ((p.afterRecords lib before).decoderAt key).buffer ∧
      InFrame rest ((p.afterRecords lib before).decoderAt key).buffer := by
  induction hdelivers generalizing p received earlier frames with
  | nil =>
    refine ⟨⟨[], List.nil_sublist frames, .nil⟩, fun before after hsplit => ?_⟩
    obtain ⟨rfl, rfl⟩ := List.append_eq_nil_iff.mp hsplit.symm
    exact ⟨[], frames, rfl, List.append_nil _, haligned.inFrame⟩
  | @cons chunk record chunks records hchunk hrest ih =>
    have hstep := decodeChunk_step haligned hframes hchunk (fun hdrop => by
      have hboundary := hdrops received chunk chunks rfl
      rw [hreceived, Nat.add_assoc] at hboundary
      exact frameBoundary_of_append (hboundary (chunkDrops_append earlier hdrop)))
    obtain ⟨done, rest, used, rfl, hused, hmessages, hafter, hbuffer⟩ := hstep
    have hprocessed := hafter.process hchunk.1
    obtain ⟨hconfig, hdecoder⟩ := decoderAt_process lib p key record hchunk.1
    have hlengths := congrArg List.length hbuffer
    rw [List.length_append, List.length_append] at hlengths
    have hreceivedNext : (received ++ [chunk]).flatten.length = (earlier ++ done).flatten.length +
        ((p.process lib record.1 record.2).1.decoderAt key).buffer.length := by
      rw [hdecoder, List.flatten_append, List.length_append, List.flatten_append,
        List.length_append, List.flatten_singleton]
      omega
    have hdropsNext :
        DropsAtBoundaries lib.codecs (p.process lib record.1 record.2).1.config.maxMessageBytes
        ((earlier ++ done) ++ rest) ((received ++ [chunk]) ++ chunks) := by
      rw [hconfig, List.append_assoc, List.append_assoc]
      exact hdrops
    have hmore := ih hprocessed hreceivedNext
      (fun frame hmem => hframes frame (List.mem_append_right done hmem)) hdropsNext
    rw [hconfig] at hmore
    obtain ⟨⟨usedLater, husedLater, hmessagesLater⟩, hstates⟩ := hmore
    constructor
    · exact ⟨used ++ usedLater, hused.append husedLater, List.rel_append hmessages hmessagesLater⟩
    · intro before after hsplit
      cases before with
      | nil => exact ⟨[], done ++ rest, rfl, List.append_nil _, haligned.inFrame⟩
      | cons first before =>
        rw [List.cons_append] at hsplit
        obtain ⟨rfl, htail⟩ := List.cons.inj hsplit
        obtain ⟨doneLater, restLater, hframesLater, hbufferLater, hin⟩ :=
          hstates before after htail
        refine ⟨done ++ doneLater, restLater, ?_, ?_, hin⟩
        · rw [hframesLater, List.append_assoc]
        · rw [hdecoder] at hbufferLater
          rw [List.length_cons, List.take_succ_cons, List.flatten_cons,
            ← List.append_assoc, hbuffer,
            List.append_assoc, hbufferLater, List.flatten_append, List.append_assoc]
          rfl

end EventProcessor

/-- Where the buffer is dropped only at the end of frames, every handed message is the
decoding of a frame of the stream, the frames are used in order and at most once, and the
decoder always holds what has arrived of one frame. -/
theorem handed_framing {lib : External} {config : ProcessorConfig} {key : StreamKey}
    {frames chunks : List Bytes} {records : List Record}
    (hframes : ∀ frame ∈ frames, WellFormedFrame frame) (hchunks : chunks.flatten = frames.flatten)
    (hdelivers : List.Forall₂ (fun chunk (record : Record) => Delivers key chunk record.2.raw)
      chunks records)
    (hdrops : DropsAtBoundaries lib.codecs config.maxMessageBytes frames chunks) :
    (∃ used, used.Sublist frames ∧ List.Forall₂ (DecodingOf lib.codecs config.maxMessageBytes)
      ((EventProcessor.new config).handed lib records) used) ∧
    ∀ before after, records = before ++ after → ∃ done rest, frames = done ++ rest ∧
      (chunks.take before.length).flatten = done.flatten ++
        (((EventProcessor.new config).afterRecords lib before).decoderAt key).buffer ∧
      InFrame rest
        (((EventProcessor.new config).afterRecords lib before).decoderAt key).buffer := by
  have hnew : (EventProcessor.new config).decoderAt key =
      ⟨(EventProcessor.new config).decoderConfig, []⟩ := rfl
  have hreceived : ([] : List Bytes).flatten.length = ([] : List Bytes).flatten.length +
      ((EventProcessor.new config).decoderAt key).buffer.length := by
    rw [hnew]
    rfl
  have hrun := handed_of_aligned (aligned_of_dropped hnew hframes hchunks) hreceived
    hframes hdelivers hdrops
  rw [hnew] at hrun
  exact hrun

/-- Accepted frames that fit the capture never make the decoder drop its buffer, however
they are divided into captured chunks. -/
theorem dropsAtBoundaries_of_captured {codecs : Decompressors} {maxMessageBytes : ℕ}
    {frames chunks : List Bytes}
    (hframes : ∀ frame ∈ frames, frame.length ≤ MAX_CAPTURE_BYTES ∧
      (decodeFrame codecs frame maxMessageBytes).isOk)
    (hchunks : ∀ chunk ∈ chunks, chunk.length ≤ MAX_CAPTURE_BYTES) :
    DropsAtBoundaries codecs maxMessageBytes frames chunks := by
  rintro before chunk after rfl ⟨-, hlarge | ⟨earlier, frame, later, rfl, -, hkind⟩⟩
  · have hchunk := hchunks chunk (List.mem_append_right before List.mem_cons_self)
    omega
  · obtain ⟨hlength, hok⟩ := hframes frame (List.mem_append_right earlier List.mem_cons_self)
    cases hdecoded : decodeFrame codecs frame maxMessageBytes with
    | error e =>
      rw [hdecoded] at hok
      cases hok
    | ok message =>
      have hlimit := (decodeFrame_length hdecoded).2.2
      rcases hkind with ⟨-, hlong, -⟩ | ⟨-, hlong⟩ | ⟨-, e, hrejected⟩
      · omega
      · omega
      · rw [hdecoded] at hrejected
        cases hrejected

/-- A chunk that ends inside the first frame drops nothing, where the frame fits the capture. -/
theorem not_chunkDrops_inside {codecs : Decompressors} {maxMessageBytes : ℕ} {frame : Bytes}
    {rest : List Bytes} {position count : ℕ} (hinside : position + count < frame.length)
    (hsmall : frame.length ≤ MAX_CAPTURE_BYTES) (hmax : frame.length ≤ maxMessageBytes) :
    ¬ChunkDrops codecs maxMessageBytes (frame :: rest) position count := by
  rintro ⟨-, hlarge | ⟨earlier, other, later, hframes, -, hkind⟩⟩
  · omega
  · have hreaches : frame.length ≤ earlier.flatten.length ∨ earlier = [] ∧ other = frame := by
      cases earlier with
      | nil =>
        obtain ⟨rfl, -⟩ := List.cons.inj hframes
        exact .inr ⟨rfl, rfl⟩
      | cons first earlier =>
        obtain ⟨rfl, -⟩ := List.cons.inj hframes
        rw [List.flatten_cons, List.length_append]
        exact .inl (Nat.le_add_right ..)
    rcases hreaches with hlater | ⟨rfl, rfl⟩
    · omega
    · rw [List.flatten_nil, List.length_nil] at hkind
      omega

/-- A ping with its request id. -/
def pingFrame (requestId : ℕ) : Bytes :=
  encodeOpMsg requestId 0 0 (encodeBody (encodeInt32 "ping" 1))

/-- The record of a chunk on one stream. -/
def chunkRecord (chunk : Bytes) : Record := (fun _ => .silent, { raw := .ofChunk 1 7 8 0 chunk })

theorem delivers_chunkRecords (chunks : List Bytes) :
    List.Forall₂ (fun chunk (record : Record) => Delivers (7, 8, 0) chunk record.2.raw) chunks
      (chunks.map chunkRecord) := by
  rw [List.forall₂_map_right_iff, List.forall₂_same]
  intro chunk _
  refine ⟨rfl, rfl, rfl, rfl, ?_⟩
  have hlength : (chunk.take MAX_CAPTURE_BYTES).length = min chunk.length MAX_CAPTURE_BYTES := by
    rw [List.length_take, Nat.min_comm]
  have hdata : (chunkRecord chunk).2.raw.data = chunk.take MAX_CAPTURE_BYTES ++
      List.replicate (MAX_CAPTURE_BYTES - chunk.length) 0 := rfl
  have hcaptured : (chunkRecord chunk).2.raw.capturedLen = (chunk.take MAX_CAPTURE_BYTES).length :=
    hlength.symm
  rw [hdata, hcaptured, List.take_left]

/-- An insert whose binary field holds, from the first byte that is not captured on, the
bytes of another frame. -/
def smugglingFrame : Bytes :=
  encodeOpMsg 1 0 0 (encodeBody (encodeString "insert" "t" ++
    encodeElement 0x05 "b" (leBytes 4 1013 ++ 0 :: List.replicate 977 0 ++ pingFrame 2)))

/-- Two pings and the insert between them. -/
def pingFrames : List Bytes := [pingFrame 1, smugglingFrame, pingFrame 2]

/-- The first ping is divided, and of the insert the beginning is captured. -/
def pingChunks : List Bytes :=
  [(pingFrame 1).take 10, (pingFrame 1).drop 10, smugglingFrame, pingFrame 2]

/-- The buffer is dropped where the insert ends. -/
private theorem pingChunks_dropsAtBoundaries :
    DropsAtBoundaries (External.ofDigests sampleDigests).codecs
      ProcessorConfig.sample.maxMessageBytes pingFrames pingChunks := by
  refine forall_split_cons (fun hdrops => ?_) (forall_split_cons (fun _ => ?_)
    (forall_split_cons (fun _ => ?_) (forall_split_cons (fun _ => ?_) forall_split_nil)))
  · exact absurd hdrops (not_chunkDrops_inside (by decide +kernel) (by decide +kernel)
      (by decide +kernel))
  · exact ⟨[pingFrame 1], [smugglingFrame, pingFrame 2], rfl, by decide +kernel⟩
  · exact ⟨[pingFrame 1, smugglingFrame], [pingFrame 2], rfl, by decide +kernel⟩
  · exact ⟨pingFrames, [], (List.append_nil _).symm, by decide +kernel⟩

/-- The messages are the decodings of the three frames; of the insert the beginning is
decoded. -/
theorem pingChunks_handed :
    (((EventProcessor.new .sample).handed (.ofDigests sampleDigests)
        (pingChunks.map chunkRecord)).map (·.wireBytes) = pingFrames.map (·.length)) ∧
      ∃ used, used.Sublist pingFrames ∧
        List.Forall₂ (DecodingOf (External.ofDigests sampleDigests).codecs
            ProcessorConfig.sample.maxMessageBytes)
          ((EventProcessor.new .sample).handed (.ofDigests sampleDigests)
            (pingChunks.map chunkRecord)) used := by
  have hframes : ∀ frame ∈ pingFrames, WellFormedFrame frame := by
    unfold WellFormedFrame
    decide +kernel
  have hchunks : pingChunks.flatten = pingFrames.flatten := by
    decide +kernel
  refine ⟨by decide +kernel, ?_⟩
  exact (handed_framing hframes hchunks (delivers_chunkRecords pingChunks)
    pingChunks_dropsAtBoundaries).1

/-- The insert in two chunks: what is captured of it, and the rest. -/
def smugglingChunks : List Bytes := [smugglingFrame.take 1024, smugglingFrame.drop 1024]

/-- The insert is followed by a message of the bytes inside it. -/
theorem smugglingChunks_handed :
    WellFormedFrame smugglingFrame ∧ readI32 smugglingFrame 12 = .ok OP_MSG ∧
      smugglingChunks.flatten = [smugglingFrame].flatten ∧
      List.Forall₂ (fun chunk (record : Record) => Delivers (7, 8, 0) chunk record.2.raw)
        smugglingChunks (smugglingChunks.map chunkRecord) ∧
      ¬∃ used, used.Sublist [smugglingFrame] ∧
        List.Forall₂ (DecodingOf (External.ofDigests sampleDigests).codecs
            ProcessorConfig.sample.maxMessageBytes)
          ((EventProcessor.new .sample).handed (.ofDigests sampleDigests)
            (smugglingChunks.map chunkRecord)) used := by
  refine ⟨?_, by decide +kernel, by decide +kernel, delivers_chunkRecords smugglingChunks, ?_⟩
  · unfold WellFormedFrame
    decide +kernel
  · rintro ⟨used, hused, hhanded⟩
    have htwo : ((EventProcessor.new .sample).handed (.ofDigests sampleDigests)
        (smugglingChunks.map chunkRecord)).length = 2 := by
      decide +kernel
    have hlength := hused.length_le
    rw [← hhanded.length_eq, htwo] at hlength
    exact absurd hlength (by decide)

end MongoDam.Observer
