import MongoDam.Observer.Framing
import MongoDam.Protocol.Chunking

/-!
# Small frames inside one capture

The bytes that a decoder holds together with those of one captured chunk are whole
frames followed by the beginning of another. A chunk that is marked truncated, or that
brings a frame longer than a capture to the limit, is decoded from its first frame only:
the small frames behind it are skipped. Any other chunk yields all its frames, unless
the frame that is cut off declares too large a length.
-/

namespace MongoDam.Protocol

open Lib

variable {codecs : Decompressors} {maxMessageBytes : ℕ}

/-- The loop over accepted frames that are followed by a part of another frame. -/
theorem pushLoop_accepted {done : List Bytes} {left last later : Bytes}
    (hdone : ∀ frame ∈ done, (decodeFrame codecs frame maxMessageBytes).isOk)
    (hlast : WellFormedFrame last) (hleft : left ++ later = last) (hcut : left.length < last.length)
    (decoded : List DecodedMessage) :
    ∃ messages : List DecodedMessage,
      messages.map .ok = done.map (fun frame => decodeFrame codecs frame maxMessageBytes) ∧
      StreamDecoder.pushLoop codecs maxMessageBytes (done.flatten ++ left) decoded =
        if 4 ≤ left.length ∧ maxMessageBytes < last.length then ([], .error .frameTooLarge)
        else (left, .ok (decoded ++ messages)) := by
  induction done generalizing decoded with
  | nil =>
    refine ⟨[], rfl, ?_⟩
    rw [List.flatten_nil, List.nil_append, List.append_nil, StreamDecoder.pushLoop]
    by_cases hshort : left.length < 4
    · rw [if_pos hshort, if_neg (by omega)]
    · have hsixteen := hlast.1
      have hread : readI32 left 0 = .ok (last.length : ℤ) :=
        readI32_of_append_eq hlast (by rw [hleft, List.append_nil]) (by omega)
      rw [if_neg hshort, hread]
      dsimp only
      rw [if_neg (by omega), Int.toNat_natCast]
      by_cases hlarge : maxMessageBytes < last.length
      · rw [if_pos hlarge, if_pos (by omega)]
      · rw [if_neg hlarge, if_pos hcut, if_neg (by omega)]
  | cons frame done ih =>
    cases hdecoded : decodeFrame codecs frame maxMessageBytes with
    | error e =>
      have hok := hdone frame List.mem_cons_self
      rw [hdecoded] at hok
      cases hok
    | ok message =>
      obtain ⟨hsixteen, hread, hfits⟩ := decodeFrame_length hdecoded
      obtain ⟨messages, hmessages, hloop⟩ := ih
        (fun other hmem => hdone other (List.mem_cons_of_mem _ hmem)) (decoded ++ [message])
      refine ⟨message :: messages, ?_, ?_⟩
      · rw [List.map_cons, List.map_cons, hmessages, hdecoded]
      · have hfirst : readI32 (frame ++ (done.flatten ++ left)) 0 = .ok (frame.length : ℤ) := by
          rw [readI32_append _ (by omega), hread]
        rw [List.flatten_cons, List.append_assoc, StreamDecoder.pushLoop,
          if_neg (by rw [List.length_append]; omega), hfirst]
        dsimp only
        rw [if_neg (by omega), Int.toNat_natCast, if_neg (by omega),
          if_neg (by rw [List.length_append]; omega), List.take_left, List.drop_left, hdecoded]
        dsimp only
        rw [hloop, List.append_assoc, List.singleton_append]

end MongoDam.Protocol

namespace MongoDam.Observer

open Lib Protocol EventProcessor

/-- The bytes of a record that were captured. -/
def capturedBytes (raw : KernelEvent) : Bytes := raw.data.take (capturedLength raw)

/-- The decoder of a record's stream holds the beginning of a frame, and with the captured
bytes it holds the frames `done`, all of which can be decoded, and then `left`, the beginning
of the frame `last`. -/
structure Captures (lib : External) (p : EventProcessor) (raw : KernelEvent) (done : List Bytes)
    (left last : Bytes) : Prop where
  config : (p.decoderAt (streamKey raw)).config = p.decoderConfig
  decodable : ∀ frame ∈ done, (decodeFrame lib.codecs frame p.config.maxMessageBytes).isOk
  wellFormed : WellFormedFrame last
  cut : left <+: last ∧ left.length < last.length
  bytes : (p.decoderAt (streamKey raw)).buffer ++ capturedBytes raw = done.flatten ++ left
  begun : InFrame (done ++ [last]) (p.decoderAt (streamKey raw)).buffer

/-- The frame is not longer than a capture. -/
def isSmall (frame : Bytes) : Bool := frame.length ≤ MAX_CAPTURE_BYTES

/-- Every small frame yields its message, in order. -/
def YieldsSmall (lib : External) (p : EventProcessor) (raw : KernelEvent) (done : List Bytes) :
    Prop :=
  ∃ used : List DecodedMessage, used.Sublist ((p.decodeChunk lib raw).2.toOption.getD []) ∧
    used.map .ok = (done.filter isSmall).map
      (fun frame => decodeFrame lib.codecs frame p.config.maxMessageBytes)

/-- Where the capture is marked truncated or begins with a frame that is not small, no small
frame follows the first frame. Elsewhere the frame that is cut off does not declare more than
the limit. -/
def SmallReached (maxMessageBytes : ℕ) (truncated : Bool) (done : List Bytes) (left last : Bytes) :
    Prop :=
  match done with
  | [] => True
  | first :: rest =>
    if truncated ∨ ¬isSmall first then ∀ frame ∈ rest, ¬isSmall frame
    else left.length < 4 ∨ last.length ≤ maxMessageBytes

namespace EventProcessor

variable {lib : External} {p : EventProcessor} {raw : KernelEvent}

private theorem capturedBytes_length_le (raw : KernelEvent) :
    (capturedBytes raw).length ≤ MAX_CAPTURE_BYTES := by
  unfold capturedBytes capturedLength
  rw [List.length_take]
  omega

/-- The decoding of at most a capture of the bytes at hand. -/
def cutMessage (lib : External) (p : EventProcessor) (raw : KernelEvent) :
    Except DecodeError DecodedMessage :=
  ((p.decoderAt (streamKey raw)).pushTruncated lib.codecs ((capturedBytes raw).take
    (MAX_CAPTURE_BYTES - (p.decoderAt (streamKey raw)).buffer.length))).2

/-- A truncated capture yields the message that its beginning decodes to. -/
private theorem decodeChunk_truncated (hpositive : capturedLength raw ≠ 0)
    (htruncated : isTruncated raw = true) :
    (p.decodeChunk lib raw).2.toOption.getD [] = (p.cutMessage lib raw).toOption.toList := by
  have hcut : p.cutMessage lib raw = ((p.streamDecoder raw).pushTruncated lib.codecs
      ((raw.data.take (capturedLength raw)).take
        (MAX_CAPTURE_BYTES - (p.streamDecoder raw).bufferedBytes))).2 := rfl
  unfold decodeChunk
  rw [if_neg hpositive, if_pos htruncated, hcut]
  dsimp only
  generalize ((p.streamDecoder raw).pushTruncated lib.codecs _).2 = message
  cases message with
  | error e => rfl
  | ok message => rfl

/-- Any other capture yields what its decoder returns. -/
private theorem decodeChunk_whole (hpositive : capturedLength raw ≠ 0)
    (htruncated : isTruncated raw = false) :
    (p.decodeChunk lib raw).2.toOption.getD [] = ((p.decoderAt (streamKey raw)).pushBoundedPrefix
      lib.codecs (capturedBytes raw) MAX_CAPTURE_BYTES).2.toOption.getD [] := by
  have hdecoder : p.streamDecoder raw = p.decoderAt (streamKey raw) := rfl
  unfold decodeChunk
  rw [if_neg hpositive, htruncated, hdecoder]
  unfold capturedBytes
  generalize (p.decoderAt (streamKey raw)).pushBoundedPrefix lib.codecs
    (raw.data.take (capturedLength raw)) MAX_CAPTURE_BYTES = result
  obtain ⟨decoder, result⟩ := result
  cases result with
  | error e => rfl
  | ok messages => rfl

end EventProcessor

section Captures

variable {lib : External} {p : EventProcessor} {raw : KernelEvent} {first left last : Bytes}
  {rest : List Bytes}

/-- The captured bytes complete the first frame. -/
theorem Captures.reaches (h : Captures lib p raw (first :: rest) left last) :
    (p.decoderAt (streamKey raw)).buffer.length < first.length ∧
      first.length ≤ (p.decoderAt (streamKey raw)).buffer.length + (capturedBytes raw).length ∧
      (p.decoderAt (streamKey raw)).buffer ++ capturedBytes raw =
        first ++ (rest.flatten ++ left) := by
  have hbytes := h.bytes
  rw [List.flatten_cons, List.append_assoc] at hbytes
  have hlengths := congrArg List.length hbytes
  rw [List.length_append, List.length_append] at hlengths
  exact ⟨h.begun, by omega, hbytes⟩

theorem Captures.decoded (h : Captures lib p raw (first :: rest) left last) :
    ∃ message, decodeFrame lib.codecs first p.config.maxMessageBytes = .ok message := by
  have hok := h.decodable first List.mem_cons_self
  cases hdecoded : decodeFrame lib.codecs first p.config.maxMessageBytes with
  | error e =>
    rw [hdecoded] at hok
    cases hok
  | ok message => exact ⟨message, rfl⟩

theorem Captures.positive (h : Captures lib p raw (first :: rest) left last) :
    capturedLength raw ≠ 0 := by
  obtain ⟨hinside, hreaches, -⟩ := h.reaches
  intro hzero
  have hempty : (capturedBytes raw).length = 0 := by
    rw [capturedBytes, hzero]
    rfl
  omega

theorem Captures.nextFrameLength (h : Captures lib p raw (first :: rest) left last) :
    (p.decoderAt (streamKey raw)).nextFrameLength (capturedBytes raw) =
      .ok (some first.length) := by
  obtain ⟨-, hreaches, hbytes⟩ := h.reaches
  obtain ⟨message, hdecoded⟩ := h.decoded
  obtain ⟨hsixteen, hread, hfits⟩ := decodeFrame_length hdecoded
  have hmaximum : (p.decoderAt (streamKey raw)).config.maxMessageBytes =
      p.config.maxMessageBytes := by
    rw [h.config]
    rfl
  have hwhole : (p.decoderAt (streamKey raw)).buffer ++ capturedBytes raw ++ [] =
      first ++ (rest.flatten ++ left) := by
    rw [List.append_nil, hbytes]
  rw [nextFrameLength_of_append_eq ⟨hsixteen, hread⟩ hwhole (by omega), hmaximum, if_neg (by omega)]

/-! ### Captures that are cut -/

/-- A capture that is marked truncated, or whose first frame is not small, yields at most one
message. -/
private theorem decodeChunk_cut (h : Captures lib p raw (first :: rest) left last)
    (hcut : isTruncated raw = true ∨ ¬isSmall first = true) :
    (p.decodeChunk lib raw).2.toOption.getD [] = (p.cutMessage lib raw).toOption.toList := by
  obtain ⟨hinside, hreaches, hbytes⟩ := h.reaches
  cases htruncated : isTruncated raw with
  | true => exact decodeChunk_truncated h.positive htruncated
  | false =>
    have hlarge : MAX_CAPTURE_BYTES < first.length := by
      have hsmall := hcut.resolve_left (by rw [htruncated]; exact Bool.false_ne_true)
      unfold isSmall at hsmall
      rw [decide_eq_true_iff] at hsmall
      omega
    have hbuffer : (p.decoderAt (streamKey raw)).config.maxBufferBytes = MAX_CAPTURE_BYTES * 2 := by
      rw [h.config]
      rfl
    rw [decodeChunk_whole h.positive htruncated]
    unfold StreamDecoder.pushBoundedPrefix
    rw [if_neg (by rw [hbuffer]; decide), h.nextFrameLength]
    dsimp only
    rw [if_neg (by omega)]
    unfold cutMessage
    dsimp only
    cases ((p.decoderAt (streamKey raw)).pushTruncated lib.codecs ((capturedBytes raw).take
      (MAX_CAPTURE_BYTES - (p.decoderAt (streamKey raw)).buffer.length))).2 with
    | error e => rfl
    | ok message => rfl

/-- What is decoded of a cut capture. -/
private theorem cutMessage_eq (h : Captures lib p raw (first :: rest) left last) :
    p.cutMessage lib raw =
      if 2 * MAX_CAPTURE_BYTES < (p.decoderAt (streamKey raw)).buffer.length then
        .error .bufferTooLarge
      else decodeFramePrefix lib.codecs
        ((p.decoderAt (streamKey raw)).buffer ++ (capturedBytes raw).take
          (MAX_CAPTURE_BYTES - (p.decoderAt (streamKey raw)).buffer.length))
        p.config.maxMessageBytes := by
  have hmaximum : p.decoderConfig.maxBufferBytes = 2 * MAX_CAPTURE_BYTES := Nat.mul_comm ..
  unfold cutMessage StreamDecoder.pushTruncated
  rw [h.config, hmaximum]
  by_cases hlarge : 2 * MAX_CAPTURE_BYTES < (p.decoderAt (streamKey raw)).buffer.length
  · rw [if_pos (by omega), if_pos hlarge]
  · rw [if_neg (by rw [List.length_take]; omega), if_neg hlarge]
    rfl

/-- The decoded bytes begin the first frame. -/
private theorem cut_append_eq (h : Captures lib p raw (first :: rest) left last) :
    (p.decoderAt (streamKey raw)).buffer ++ (capturedBytes raw).take
        (MAX_CAPTURE_BYTES - (p.decoderAt (streamKey raw)).buffer.length) ++
      (capturedBytes raw).drop (MAX_CAPTURE_BYTES - (p.decoderAt (streamKey raw)).buffer.length) =
        first ++ (rest.flatten ++ left) := by
  rw [List.append_assoc, List.take_append_drop]
  exact h.reaches.2.2

/-- A small first frame is decoded. -/
private theorem cutMessage_of_small (h : Captures lib p raw (first :: rest) left last)
    (hsmall : isSmall first = true) :
    p.cutMessage lib raw = decodeFrame lib.codecs first p.config.maxMessageBytes := by
  obtain ⟨hinside, hreaches, -⟩ := h.reaches
  obtain ⟨message, hdecoded⟩ := h.decoded
  obtain ⟨hsixteen, hread, hfits⟩ := decodeFrame_length hdecoded
  unfold isSmall at hsmall
  rw [decide_eq_true_iff] at hsmall
  have hbegins := cut_append_eq h
  have hlength : first.length ≤ ((p.decoderAt (streamKey raw)).buffer ++ (capturedBytes raw).take
      (MAX_CAPTURE_BYTES - (p.decoderAt (streamKey raw)).buffer.length)).length := by
    rw [List.length_append, List.length_take]
    omega
  rw [cutMessage_eq h, if_neg (by omega)]
  unfold decodeFramePrefix
  rw [if_neg (by omega), readI32_of_append_eq ⟨hsixteen, hread⟩ hbegins (by omega)]
  dsimp only [bind, Except.bind]
  rw [if_neg (by omega), Int.toNat_natCast, if_neg (by omega), if_pos hlength,
    (take_of_append_eq hbegins hlength).1]

/-- A message of a first frame that is not small reports the frame's length. -/
private theorem cutMessage_of_large {message : DecodedMessage}
    (h : Captures lib p raw (first :: rest) left last) (hlarge : ¬isSmall first = true)
    (hmessage : p.cutMessage lib raw = .ok message) : message.wireBytes = first.length := by
  obtain ⟨hinside, hreaches, -⟩ := h.reaches
  obtain ⟨decoded, hdecoded⟩ := h.decoded
  obtain ⟨hsixteen, hread, -⟩ := decodeFrame_length hdecoded
  unfold isSmall at hlarge
  rw [decide_eq_true_iff] at hlarge
  rw [cutMessage_eq h] at hmessage
  split at hmessage
  · cases hmessage
  · refine decodeFramePrefix_wireBytes ?_ hmessage
    refine readI32_of_append_eq ⟨hsixteen, hread⟩ (cut_append_eq h) ?_
    rw [List.length_append, List.length_take]
    unfold MAX_CAPTURE_BYTES at hlarge ⊢
    omega

/-- A cut capture yields its small frames when at most the first is one. -/
private theorem yieldsSmall_of_cut (h : Captures lib p raw (first :: rest) left last)
    (hcut : isTruncated raw = true ∨ ¬isSmall first = true) :
    YieldsSmall lib p raw (first :: rest) ↔ ∀ frame ∈ rest, ¬isSmall frame = true := by
  unfold YieldsSmall
  rw [decodeChunk_cut h hcut]
  constructor
  · rintro ⟨used, hused, hdecodings⟩ frame hmem hsmall
    by_cases hfirst : isSmall first = true
    · -- two small frames cannot come from one message
      have hlength := congrArg List.length hdecodings
      rw [List.length_map, List.length_map, List.filter_cons_of_pos hfirst,
        List.length_cons] at hlength
      have hpositive : 0 < (rest.filter isSmall).length :=
        List.length_pos_of_mem (List.mem_filter.mpr ⟨hmem, hsmall⟩)
      have hone : used.length ≤ 1 := Nat.le_trans hused.length_le Option.length_toList_le
      omega
    · have hframe : decodeFrame lib.codecs frame p.config.maxMessageBytes ∈ used.map .ok := by
        rw [hdecodings]
        exact List.mem_map.mpr
          ⟨frame, List.mem_filter.mpr ⟨List.mem_cons_of_mem _ hmem, hsmall⟩, rfl⟩
      obtain ⟨message, hmessage, hdecoded⟩ := List.mem_map.mp hframe
      have hcutMessage : p.cutMessage lib raw = .ok message := by
        have htaken := hused.subset hmessage
        cases hresult : p.cutMessage lib raw with
        | error e =>
          rw [hresult] at htaken
          cases htaken
        | ok other =>
          rw [hresult] at htaken
          rw [List.mem_singleton.mp htaken]
      have hwhole := decodeFrame_wireBytes hdecoded.symm
      have hlong := cutMessage_of_large h hfirst hcutMessage
      unfold isSmall at hsmall hfirst
      rw [decide_eq_true_iff] at hsmall hfirst
      omega
  · intro hrest
    have hnone : rest.filter isSmall = [] := List.filter_eq_nil_iff.mpr hrest
    by_cases hfirst : isSmall first = true
    · obtain ⟨message, hdecoded⟩ := h.decoded
      refine ⟨[message], ?_, ?_⟩
      · rw [cutMessage_of_small h hfirst, hdecoded]
        exact List.Sublist.refl _
      · rw [List.filter_cons_of_pos hfirst, hnone, List.map_singleton, List.map_singleton, hdecoded]
    · refine ⟨[], List.nil_sublist _, ?_⟩
      rw [List.filter_cons_of_neg hfirst, hnone]
      rfl

/-! ### Captures that are not cut -/

/-- A capture that is not cut yields its frames, unless the next one declares too much. -/
private theorem yieldsSmall_of_whole (h : Captures lib p raw (first :: rest) left last)
    (htruncated : isTruncated raw = false) (hsmall : isSmall first = true) :
    YieldsSmall lib p raw (first :: rest) ↔
      left.length < 4 ∨ last.length ≤ p.config.maxMessageBytes := by
  obtain ⟨hinside, hreaches, -⟩ := h.reaches
  have hfirst : first.length ≤ MAX_CAPTURE_BYTES := by
    unfold isSmall at hsmall
    rwa [decide_eq_true_iff] at hsmall
  have hcaptured := capturedBytes_length_le raw
  have hmaximum : (p.decoderAt (streamKey raw)).config.maxBufferBytes = 2 * MAX_CAPTURE_BYTES := by
    rw [h.config]
    exact Nat.mul_comm ..
  have hlimit : (p.decoderAt (streamKey raw)).config.maxMessageBytes =
      p.config.maxMessageBytes := by
    rw [h.config]
    rfl
  have hpush : (p.decoderAt (streamKey raw)).pushBoundedPrefix lib.codecs (capturedBytes raw)
      MAX_CAPTURE_BYTES = (p.decoderAt (streamKey raw)).push lib.codecs (capturedBytes raw) :=
    pushBoundedPrefix_eq_push (by decide) (by omega) fun _ =>
      ⟨first.length, h.nextFrameLength, Or.inl hfirst⟩
  obtain ⟨later, hlater⟩ := h.cut.1
  obtain ⟨messages, hmessages, hloop⟩ :=
    pushLoop_accepted h.decodable h.wellFormed hlater h.cut.2 []
  unfold YieldsSmall
  rw [decodeChunk_whole h.positive htruncated, hpush]
  unfold StreamDecoder.push
  rw [if_neg (by omega), hlimit, h.bytes, hloop]
  by_cases hbad : 4 ≤ left.length ∧ p.config.maxMessageBytes < last.length
  · rw [if_pos hbad]
    constructor
    · rintro ⟨used, hused, hdecodings⟩
      have hnil : used = [] := List.sublist_nil.mp hused
      rw [hnil, List.filter_cons_of_pos hsmall] at hdecodings
      cases hdecodings
    · intro hgood
      omega
  · rw [if_neg hbad]
    constructor
    · intro _
      omega
    · intro _
      have hsublist := (@List.filter_sublist _ isSmall (first :: rest)).map
        (fun frame => decodeFrame lib.codecs frame p.config.maxMessageBytes)
      rw [← hmessages] at hsublist
      obtain ⟨used, hused, heq⟩ := List.sublist_map_iff.mp hsublist
      exact ⟨used, hused, heq.symm⟩

end Captures

/-- The small frames that lie wholly inside the buffer and the captured bytes are yielded
exactly when no small frame is behind a cut. -/
theorem yieldsSmall_iff {lib : External} {p : EventProcessor} {raw : KernelEvent}
    {done : List Bytes} {left last : Bytes} (h : Captures lib p raw done left last) :
    YieldsSmall lib p raw done ↔
      SmallReached p.config.maxMessageBytes (isTruncated raw) done left last := by
  cases done with
  | nil =>
    unfold SmallReached
    rw [iff_true]
    exact ⟨[], List.nil_sublist _, rfl⟩
  | cons first rest =>
    unfold SmallReached
    dsimp only
    by_cases hcut : isTruncated raw = true ∨ ¬isSmall first = true
    · rw [if_pos hcut]
      exact yieldsSmall_of_cut h hcut
    · rw [if_neg hcut]
      have htruncated : isTruncated raw = false := by
        simpa using fun htrue => hcut (Or.inl htrue)
      have hsmall : isSmall first = true := by
        simpa using fun hlarge => hcut (Or.inr hlarge)
      exact yieldsSmall_of_whole h htruncated hsmall

/-- Pings and then an insert, in one operation of which the beginning is captured. -/
def pipelined (pings : List Bytes) : Bytes := pings.flatten ++ smugglingFrame

private theorem captures_pipelined {pings : List Bytes}
    (hpings : ∀ frame ∈ pings, (decodeFrame (External.ofDigests sampleDigests).codecs frame
      ProcessorConfig.sample.maxMessageBytes).isOk)
    (hbytes : capturedBytes (chunkRecord (pipelined pings)).2.raw =
      pings.flatten ++ smugglingFrame.take (MAX_CAPTURE_BYTES - pings.flatten.length)) :
    Captures (.ofDigests sampleDigests) (EventProcessor.new .sample)
      (chunkRecord (pipelined pings)).2.raw pings
      (smugglingFrame.take (MAX_CAPTURE_BYTES - pings.flatten.length)) smugglingFrame where
  config := rfl
  decodable := hpings
  wellFormed := by
    unfold WellFormedFrame
    decide +kernel
  cut := by
    refine ⟨List.take_prefix .., ?_⟩
    have hlong : MAX_CAPTURE_BYTES < smugglingFrame.length := by
      decide +kernel
    rw [List.length_take]
    omega
  bytes := hbytes
  begun := by
    cases pings with
    | nil => exact (by decide +kernel : 0 < smugglingFrame.length)
    | cons frame rest =>
      cases hdecoded : decodeFrame (External.ofDigests sampleDigests).codecs frame
          ProcessorConfig.sample.maxMessageBytes with
      | error e =>
        have hok := hpings frame List.mem_cons_self
        rw [hdecoded] at hok
        cases hok
      | ok message => exact Nat.lt_of_lt_of_le (by decide : 0 < 16) (decodeFrame_length hdecoded).1

/-- One ping in front of the insert is yielded. -/
theorem onePing_yielded :
    isTruncated (chunkRecord (pipelined [pingFrame 1])).2.raw = true ∧
      YieldsSmall (.ofDigests sampleDigests) (EventProcessor.new .sample)
        (chunkRecord (pipelined [pingFrame 1])).2.raw [pingFrame 1] := by
  have htruncated : isTruncated (chunkRecord (pipelined [pingFrame 1])).2.raw = true := by
    decide +kernel
  refine ⟨htruncated, (yieldsSmall_iff
    (captures_pipelined (by decide +kernel) (by decide +kernel))).mpr ?_⟩
  rw [SmallReached, htruncated, if_pos (.inl rfl)]
  exact List.forall_mem_nil _

/-- Of two pings in front of the insert, the second is skipped. -/
theorem twoPings_skipped :
    Captures (.ofDigests sampleDigests) (EventProcessor.new .sample)
        (chunkRecord (pipelined [pingFrame 1, pingFrame 2])).2.raw [pingFrame 1, pingFrame 2]
        (smugglingFrame.take (MAX_CAPTURE_BYTES - [pingFrame 1, pingFrame 2].flatten.length))
        smugglingFrame ∧
      ¬YieldsSmall (.ofDigests sampleDigests) (EventProcessor.new .sample)
        (chunkRecord (pipelined [pingFrame 1, pingFrame 2])).2.raw [pingFrame 1, pingFrame 2] := by
  refine ⟨captures_pipelined (by decide +kernel) (by decide +kernel), ?_⟩
  rintro ⟨used, hused, hdecodings⟩
  have hone : ((EventProcessor.decodeChunk (.ofDigests sampleDigests) (EventProcessor.new .sample)
      (chunkRecord (pipelined [pingFrame 1, pingFrame 2])).2.raw).2.toOption.getD []).length =
        1 := by
    decide +kernel
  have htwo : ([pingFrame 1, pingFrame 2].filter isSmall).length = 2 := by
    decide +kernel
  have hlengths := congrArg List.length hdecodings
  have hle := hused.length_le
  rw [List.length_map, List.length_map, htwo] at hlengths
  omega

end MongoDam.Observer
