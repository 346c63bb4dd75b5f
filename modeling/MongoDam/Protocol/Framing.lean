import Mathlib.Data.List.Forall2
import MongoDam.Protocol.Locality
import MongoDam.Protocol.Stream

/-!
# Decoding a stream of frames

A stream decoder is aligned when its buffer holds what has arrived of one frame, from
the frame's first byte on. On an aligned decoder a chunk either completes frames and
leaves the decoder aligned, or it drops what is buffered. Dropping is harmless exactly
where the chunk ends with a frame.
-/

namespace MongoDam.Protocol

open Lib

/-- A frame that carries its own length. -/
def WellFormedFrame (frame : Bytes) : Prop :=
  16 ≤ frame.length ∧ readI32 frame 0 = .ok (frame.length : ℤ)

/-- The bytes are the beginning of the first of the frames, and not all of it. -/
def InFrame (frames : List Bytes) (bytes : Bytes) : Prop :=
  match frames with
  | [] => bytes = []
  | frame :: _ => bytes.length < frame.length

/-- The message is the decoding of the frame, or of a beginning of it. -/
def DecodingOf (codecs : Decompressors) (maxMessageBytes : ℕ) (message : DecodedMessage)
    (frame : Bytes) : Prop :=
  decodeFrame codecs frame maxMessageBytes = .ok message ∨
    ∃ n, decodeFramePrefix codecs (frame.take n) maxMessageBytes = .ok message

/-- A chunk that starts at `position` of the concatenated frames makes a decoder drop
its buffer: it completes the first `limit` bytes of a longer frame, it completes the
length prefix of a frame that is too large, or it completes a frame that is rejected. -/
def DropsBuffer (codecs : Decompressors) (maxMessageBytes limit : ℕ) (frames : List Bytes)
    (position count : ℕ) : Prop :=
  ∃ earlier frame later, frames = earlier ++ frame :: later ∧
    position < earlier.flatten.length + frame.length ∧
    (earlier.flatten.length ≤ position ∧ limit < frame.length ∧
        earlier.flatten.length + limit ≤ position + count ∨
      earlier.flatten.length + 4 ≤ position + count ∧ maxMessageBytes < frame.length ∨
      earlier.flatten.length + frame.length ≤ position + count ∧
        ∃ e, decodeFrame codecs frame maxMessageBytes = .error e)

section

variable {codecs : Decompressors} {maxMessageBytes : ℕ}

/-! ### Frames in a buffer -/

/-- The length prefix of the frame that the buffered bytes begin. -/
theorem readI32_of_append_eq {frame buffer later rest : Bytes} (hframe : WellFormedFrame frame)
    (h : buffer ++ later = frame ++ rest) (hlength : 4 ≤ buffer.length) :
    readI32 buffer 0 = .ok (frame.length : ℤ) := by
  rw [← hframe.2, ← readI32_append later hlength, h,
    readI32_append rest (by have := hframe.1; omega)]

/-- A buffer that reaches the end of its first frame starts with that frame. -/
theorem take_of_append_eq {frame buffer later rest : Bytes} (h : buffer ++ later = frame ++ rest)
    (hlength : frame.length ≤ buffer.length) :
    buffer.take frame.length = frame ∧ buffer.drop frame.length ++ later = rest := by
  have htake : (buffer ++ later).take frame.length = frame := by
    rw [h, List.take_left]
  have hdrop : (buffer ++ later).drop frame.length = rest := by
    rw [h, List.drop_left]
  rw [List.take_append_of_le_length hlength] at htake
  rw [List.drop_append_of_le_length hlength] at hdrop
  exact ⟨htake, hdrop⟩

/-- The loop takes whole frames off the buffer and decodes each of them, until it meets a
frame that is too large or that is rejected. -/
theorem pushLoop_frames {frames : List Bytes} (hframes : ∀ frame ∈ frames, WellFormedFrame frame)
    {buffer later : Bytes} (h : buffer ++ later = frames.flatten) (decoded : List DecodedMessage) :
    (∃ done rest left messages, frames = done ++ rest ∧ buffer = done.flatten ++ left ∧
      InFrame rest left ∧
      List.Forall₂ (fun message frame => decodeFrame codecs frame maxMessageBytes = .ok message)
        messages done ∧
      StreamDecoder.pushLoop codecs maxMessageBytes buffer decoded =
        (left, .ok (decoded ++ messages))) ∨
    (∃ earlier frame rest e, frames = earlier ++ frame :: rest ∧
      (StreamDecoder.pushLoop codecs maxMessageBytes buffer decoded).2 = .error e ∧
      (earlier.flatten.length + 4 ≤ buffer.length ∧ maxMessageBytes < frame.length ∨
        earlier.flatten.length + frame.length ≤ buffer.length ∧
          ∃ e, decodeFrame codecs frame maxMessageBytes = .error e)) := by
  induction frames generalizing buffer decoded with
  | nil =>
    have hnil : buffer = [] := (List.append_eq_nil_iff.mp h).1
    subst hnil
    refine Or.inl ⟨[], [], [], [], rfl, rfl, rfl, .nil, ?_⟩
    rw [StreamDecoder.pushLoop, if_pos (by decide), List.append_nil]
  | cons frame frames ih =>
    have hframe := hframes frame List.mem_cons_self
    have hsixteen := hframe.1
    rw [List.flatten_cons] at h
    rw [StreamDecoder.pushLoop]
    by_cases hshort : buffer.length < 4
    · rw [if_pos hshort]
      refine Or.inl ⟨[], frame :: frames, buffer, [], rfl, rfl, ?_, .nil, ?_⟩
      · exact Nat.lt_of_lt_of_le hshort (by omega)
      · rw [List.append_nil]
    · rw [if_neg hshort, readI32_of_append_eq hframe h (by omega)]
      dsimp only
      rw [if_neg (by omega), Int.toNat_natCast]
      by_cases hlarge : maxMessageBytes < frame.length
      · rw [if_pos hlarge]
        refine Or.inr ⟨[], frame, frames, .frameTooLarge, rfl, rfl, Or.inl ⟨?_, hlarge⟩⟩
        rw [List.flatten_nil, List.length_nil]
        omega
      · rw [if_neg hlarge]
        by_cases hpart : buffer.length < frame.length
        · rw [if_pos hpart]
          refine Or.inl ⟨[], frame :: frames, buffer, [], rfl, rfl, hpart, .nil, ?_⟩
          rw [List.append_nil]
        · obtain ⟨htake, hdrop⟩ := take_of_append_eq h (by omega)
          rw [if_neg hpart, htake]
          cases hdecoded : decodeFrame codecs frame maxMessageBytes with
          | error e =>
            refine Or.inr ⟨[], frame, frames, e, rfl, rfl, Or.inr ⟨?_, e, hdecoded⟩⟩
            rw [List.flatten_nil, List.length_nil]
            omega
          | ok message =>
            dsimp only
            have hbuffer := List.take_append_drop frame.length buffer
            rw [htake] at hbuffer
            have hlengths : buffer.length = frame.length + (buffer.drop frame.length).length := by
              rw [List.length_drop]
              omega
            rcases ih (fun frame hmem => hframes frame (List.mem_cons_of_mem _ hmem)) hdrop
              (decoded ++ [message]) with
              ⟨done, rest, left, messages, hsplit, hleft, hin, hmessages, hloop⟩ |
              ⟨earlier, bad, rest, e, hsplit, hloop, hbad⟩
            · refine Or.inl ⟨frame :: done, rest, left, message :: messages, ?_, ?_, hin,
                .cons hdecoded hmessages, ?_⟩
              · rw [hsplit, List.cons_append]
              · rw [List.flatten_cons, List.append_assoc, ← hleft, hbuffer]
              · rw [hloop, List.append_assoc, List.singleton_append]
            · refine Or.inr ⟨frame :: earlier, bad, rest, e, ?_, hloop, ?_⟩
              · rw [hsplit, List.cons_append]
              · rw [List.flatten_cons, List.length_append]
                rcases hbad with ⟨hheader, hlarge⟩ | ⟨hwhole, hrejected⟩
                · exact Or.inl ⟨by omega, hlarge⟩
                · exact Or.inr ⟨by omega, hrejected⟩

/-- What is decoded from the beginning of a run of frames is its first frame. -/
theorem decodingOf_append_eq {frame captured later rest : Bytes} {message : DecodedMessage}
    (hframe : WellFormedFrame frame) (h : captured ++ later = frame ++ rest)
    (hdecoded : decodeFramePrefix codecs captured maxMessageBytes = .ok message) :
    DecodingOf codecs maxMessageBytes message frame := by
  by_cases hpart : captured.length < frame.length
  · refine Or.inr ⟨captured.length, ?_⟩
    have htake : (captured ++ later).take captured.length = captured := List.take_left
    rw [h, List.take_append_of_le_length (by omega)] at htake
    rw [htake, hdecoded]
  · have hsixteen := hframe.1
    refine Or.inl ?_
    unfold decodeFramePrefix at hdecoded
    rw [if_neg (by omega), readI32_of_append_eq hframe h (by omega)] at hdecoded
    dsimp only [bind, Except.bind] at hdecoded
    rw [if_neg (by omega), Int.toNat_natCast] at hdecoded
    split at hdecoded
    · cases hdecoded
    · rw [if_pos (by omega), (take_of_append_eq h (by omega)).1] at hdecoded
      exact hdecoded

/-! ### Chunks -/

/-- The beginning of a frame is followed by the rest of the frame, or by nothing. -/
theorem InFrame.cons_of_pos {frames : List Bytes} {buffer chunk later : Bytes}
    (hin : InFrame frames buffer) (h : buffer ++ chunk ++ later = frames.flatten)
    (hchunk : 0 < chunk.length) :
    ∃ frame rest, frames = frame :: rest ∧ buffer.length < frame.length := by
  cases frames with
  | nil =>
    rw [List.flatten_nil, List.append_assoc] at h
    rw [(List.append_eq_nil_iff.mp (List.append_eq_nil_iff.mp h).2).1] at hchunk
    cases hchunk
  | cons frame rest => exact ⟨frame, rest, rfl, hin⟩

section

variable {decoder : StreamDecoder} {chunk later : Bytes} {frames : List Bytes}

/-- The announced length of the frame in progress, from the buffer and the chunk. -/
theorem nextFrameLength_eq {declared : ℤ}
    (hread : readI32 (decoder.buffer ++ chunk) 0 = .ok declared) :
    decoder.nextFrameLength chunk =
      if declared < 16 then .error (.invalidFrameLength declared)
      else if decoder.config.maxMessageBytes < declared.toNat then .error .frameTooLarge
      else .ok (some declared.toNat) := by
  have hlength := readI32_eq_ok hread
  rw [List.length_append] at hlength
  have htake : decoder.buffer.take (min decoder.buffer.length 4) ++
      chunk.take (4 - min decoder.buffer.length 4) = (decoder.buffer ++ chunk).take 4 := by
    rw [List.take_append]
    rcases Nat.le_total decoder.buffer.length 4 with hle | hle
    · rw [Nat.min_eq_left hle, List.take_length, List.take_of_length_le hle]
    · rw [Nat.min_eq_right hle, Nat.sub_self, Nat.sub_eq_zero_of_le hle]
  unfold readI32 readWord at hread
  rw [slice?_eq_some (by omega) (by rw [List.length_append]; omega)] at hread
  have hsigned : signed32 (leNat ((decoder.buffer ++ chunk).take 4)) = declared :=
    Except.ok.inj hread
  unfold StreamDecoder.nextFrameLength
  dsimp only
  rw [if_neg (by omega), htake, hsigned]

/-- The announced length of a well-formed frame in progress is its length. -/
theorem nextFrameLength_of_append_eq {frame rest : Bytes} (hframe : WellFormedFrame frame)
    (h : decoder.buffer ++ chunk ++ later = frame ++ rest)
    (hlength : 4 ≤ decoder.buffer.length + chunk.length) :
    decoder.nextFrameLength chunk =
      if decoder.config.maxMessageBytes < frame.length then .error .frameTooLarge
      else .ok (some frame.length) := by
  have hsixteen := hframe.1
  rw [nextFrameLength_eq (readI32_of_append_eq hframe h (by rw [List.length_append]; omega)),
    if_neg (by omega), Int.toNat_natCast]

/-- What a chunk does to an aligned decoder: it completes frames and leaves the decoder
aligned, or it drops the buffer, after an error or after reporting the beginning of the
frame in progress. -/
inductive ChunkOutcome (codecs : Decompressors) (decoder : StreamDecoder) (chunk : Bytes)
    (limit : ℕ) (frames : List Bytes) :
    StreamDecoder × Except DecodeError (List DecodedMessage) → Prop
  | aligned {done rest : List Bytes} {left : Bytes} {messages : List DecodedMessage} :
      frames = done ++ rest → decoder.buffer ++ chunk = done.flatten ++ left →
      InFrame rest left → left.length < limit →
      List.Forall₂ (DecodingOf codecs decoder.config.maxMessageBytes) messages done →
      ChunkOutcome codecs decoder chunk limit frames ({ decoder with buffer := left }, .ok messages)
  | rejected {dropped : StreamDecoder} {e : DecodeError} :
      DropsBuffer codecs decoder.config.maxMessageBytes limit frames decoder.buffer.length
        chunk.length →
      ChunkOutcome codecs decoder chunk limit frames (dropped, .error e)
  | reported {frame : Bytes} {rest : List Bytes} {message : DecodedMessage} :
      DropsBuffer codecs decoder.config.maxMessageBytes limit frames decoder.buffer.length
        chunk.length →
      frames = frame :: rest → DecodingOf codecs decoder.config.maxMessageBytes message frame →
      ChunkOutcome codecs decoder chunk limit frames (decoder.clear, .ok [message])

variable {limit : ℕ} {frame : Bytes} {rest : List Bytes}

/-- A pushed chunk leaves less than `limit` bytes when the frame in progress is not
longer, or when there are not more bytes to begin with. -/
private theorem push_outcome (hframes : ∀ other ∈ frame :: rest, WellFormedFrame other)
    (hin : decoder.buffer.length < frame.length)
    (h : decoder.buffer ++ chunk ++ later = (frame :: rest).flatten)
    (hcaptured : chunk.length ≤ limit)
    (hroom : decoder.buffer.length + chunk.length ≤ decoder.config.maxBufferBytes)
    (hsmall : frame.length ≤ limit ∨ decoder.buffer.length + chunk.length < limit) :
    ChunkOutcome codecs decoder chunk limit (frame :: rest) (decoder.push codecs chunk) := by
  unfold StreamDecoder.push
  rw [if_neg (by omega)]
  dsimp only
  rcases pushLoop_frames hframes h [] with
    ⟨done, others, left, messages, hsplit, hleft, hrest, hmessages, hloop⟩ |
    ⟨earlier, bad, others, e, hsplit, hloop, hbad⟩
  · rw [hloop, List.nil_append]
    dsimp only
    refine .aligned hsplit hleft hrest ?_ (hmessages.imp (fun _ _ hdecoded => Or.inl hdecoded))
    have hlengths := congrArg List.length hleft
    rw [List.length_append, List.length_append] at hlengths
    cases done with
    | nil =>
      rw [List.nil_append] at hsplit
      subst hsplit
      rw [List.flatten_nil, List.length_nil] at hlengths
      have hpart : left.length < frame.length := hrest
      omega
    | cons first done =>
      -- what remains behind a completed frame is part of this chunk
      rw [List.cons_append] at hsplit
      have hhead := (List.cons.inj hsplit).1
      rw [List.flatten_cons, List.length_append, ← hhead] at hlengths
      omega
  · rcases hresult : StreamDecoder.pushLoop codecs decoder.config.maxMessageBytes
      (decoder.buffer ++ chunk) [] with ⟨buffer, result⟩
    rw [hresult] at hloop
    dsimp only at hloop ⊢
    subst hloop
    rw [List.length_append] at hbad
    refine .rejected ⟨earlier, bad, others, hsplit, ?_, Or.inr hbad⟩
    cases earlier with
    | nil =>
      have hframe := (List.cons.inj hsplit).1
      rw [List.flatten_nil, List.length_nil, ← hframe]
      omega
    | cons earliest earlier =>
      rw [List.cons_append] at hsplit
      have hframe := (List.cons.inj hsplit).1
      rw [List.flatten_cons, List.length_append, ← hframe]
      omega

/-- A captured chunk has one of the three outcomes. -/
theorem pushBoundedPrefix_outcome (hlimit : 16 ≤ limit)
    (hbuffer : 2 * limit ≤ decoder.config.maxBufferBytes)
    (hframes : ∀ other ∈ frame :: rest, WellFormedFrame other)
    (hin : decoder.buffer.length < frame.length) (hshort : decoder.buffer.length < limit)
    (h : decoder.buffer ++ chunk ++ later = (frame :: rest).flatten)
    (hcaptured : chunk.length ≤ limit) :
    ChunkOutcome codecs decoder chunk limit (frame :: rest)
      (decoder.pushBoundedPrefix codecs chunk limit) := by
  have hframe := hframes frame List.mem_cons_self
  have hsixteen := hframe.1
  have hfirst : decoder.buffer ++ chunk ++ later = frame ++ rest.flatten := by
    rw [h, List.flatten_cons]
  unfold StreamDecoder.pushBoundedPrefix
  rw [if_neg (by omega)]
  by_cases htotal : decoder.buffer.length + chunk.length < 4
  · have hnone : decoder.nextFrameLength chunk = .ok none := by
      unfold StreamDecoder.nextFrameLength
      dsimp only
      rw [if_pos (by omega)]
    rw [hnone]
    exact push_outcome hframes hin h hcaptured (by omega) (Or.inr (by omega))
  · rw [nextFrameLength_of_append_eq hframe hfirst (by omega)]
    by_cases hlarge : decoder.config.maxMessageBytes < frame.length
    · rw [if_pos hlarge]
      refine .rejected ⟨[], frame, rest, rfl, ?_, Or.inr (Or.inl ⟨?_, hlarge⟩)⟩
      · rw [List.flatten_nil, List.length_nil]
        omega
      · rw [List.flatten_nil, List.length_nil]
        omega
    · rw [if_neg hlarge]
      dsimp only
      by_cases hsmall : frame.length ≤ limit ∨ decoder.buffer.length + chunk.length < limit
      · rw [if_pos hsmall]
        exact push_outcome hframes hin h hcaptured (by omega) hsmall
      · have hdrops : DropsBuffer codecs decoder.config.maxMessageBytes limit (frame :: rest)
            decoder.buffer.length chunk.length := by
          refine ⟨[], frame, rest, rfl, ?_, Or.inl ⟨Nat.zero_le _, by omega, ?_⟩⟩
          · rw [List.flatten_nil, List.length_nil]
            omega
          · rw [List.flatten_nil, List.length_nil]
            omega
        rw [if_neg hsmall]
        unfold StreamDecoder.pushTruncated
        rw [if_neg (by rw [List.length_take]; omega)]
        dsimp only
        cases hdecoded : decodeFramePrefix codecs
            (decoder.buffer ++ chunk.take (limit - decoder.buffer.length))
            decoder.config.maxMessageBytes with
        | error e => exact .rejected hdrops
        | ok message =>
          have hwhole : decoder.buffer ++ chunk.take (limit - decoder.buffer.length) ++
              (chunk.drop (limit - decoder.buffer.length) ++ later) = frame ++ rest.flatten := by
            rw [List.append_assoc, ← List.append_assoc (chunk.take _), List.take_append_drop,
              ← List.append_assoc, hfirst]
          exact .reported hdrops rfl (decodingOf_append_eq hframe hwhole hdecoded)

end

end

end MongoDam.Protocol
