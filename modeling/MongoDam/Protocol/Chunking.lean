import MongoDam.Protocol.Encode
import MongoDam.Protocol.Framing

/-!
# Dividing a stream into chunks

A stream of frames may reach the decoder in any division. Where every frame is
accepted and fits the prefix limit, the division does not matter: each chunk returns
the messages of the frames that it completes, and the buffer holds what has arrived
of the next frame.
-/

namespace MongoDam.Protocol

open Lib

/-- Feed chunks to a decoder in order: the decoder after them, and what each returned. -/
def feed (codecs : Decompressors) (limit : ℕ) :
    StreamDecoder → List Bytes → StreamDecoder × List (Except DecodeError (List DecodedMessage))
  | decoder, [] => (decoder, [])
  | decoder, chunk :: chunks =>
    let (decoder, result) := decoder.pushBoundedPrefix codecs chunk limit
    let (decoder, results) := feed codecs limit decoder chunks
    (decoder, result :: results)

/-- The bytes are those that were received of the last incomplete frame. -/
def LastIncomplete (frames : List Bytes) (received bytes : Bytes) : Prop :=
  ∃ done rest, frames = done ++ rest ∧ received = done.flatten ++ bytes ∧
    (rest = [] ∧ bytes = [] ∨
      ∃ frame later, rest = frame :: later ∧ bytes.length < frame.length ∧ bytes <+: frame)

section

variable {codecs : Decompressors} {decoder : StreamDecoder} {chunk later : Bytes}
  {frames : List Bytes} {limit : ℕ}

/-- The frame is accepted, and it fits the limit. -/
def Fits (codecs : Decompressors) (maxMessageBytes limit : ℕ) (frame : Bytes) : Prop :=
  (decodeFrame codecs frame maxMessageBytes).isOk ∧ frame.length ≤ min limit maxMessageBytes

theorem Fits.wellFormed {maxMessageBytes : ℕ} {frame : Bytes}
    (h : Fits codecs maxMessageBytes limit frame) : WellFormedFrame frame := by
  cases hdecoded : decodeFrame codecs frame maxMessageBytes with
  | error e =>
    have hok := h.1
    rw [hdecoded] at hok
    cases hok
  | ok message => exact ⟨(decodeFrame_length hdecoded).1, (decodeFrame_length hdecoded).2.1⟩

/-- Messages that are decoded from frames one by one. -/
theorem map_ok_of_forall₂ {maxMessageBytes : ℕ} {messages : List DecodedMessage}
    (h : List.Forall₂ (fun message frame => decodeFrame codecs frame maxMessageBytes = .ok message)
      messages frames) :
    messages.map .ok = frames.map fun frame => decodeFrame codecs frame maxMessageBytes := by
  induction h with
  | nil => rfl
  | cons hdecoded _ ih => rw [List.map_cons, List.map_cons, ih, hdecoded]

/-- A whole stream that is still inside its first frame is empty. -/
theorem InFrame.eq_nil {bytes : Bytes} (hin : InFrame frames bytes) (h : bytes = frames.flatten) :
    frames = [] := by
  cases frames with
  | nil => rfl
  | cons frame rest =>
    have hlength : bytes.length < frame.length := hin
    rw [h, List.flatten_cons, List.length_append] at hlength
    omega

/-- A chunk that does not bring a longer frame to the limit is pushed. -/
theorem pushBoundedPrefix_eq_push (hlimit : 16 ≤ limit)
    (hbuffer : limit ≤ decoder.config.maxBufferBytes)
    (hlength : 4 ≤ decoder.buffer.length + chunk.length →
      ∃ length, decoder.nextFrameLength chunk = .ok (some length) ∧
        (length ≤ limit ∨ decoder.buffer.length + chunk.length < limit)) :
    decoder.pushBoundedPrefix codecs chunk limit = decoder.push codecs chunk := by
  unfold StreamDecoder.pushBoundedPrefix
  rw [if_neg (by omega)]
  by_cases htotal : decoder.buffer.length + chunk.length < 4
  · have hnone : decoder.nextFrameLength chunk = .ok none := by
      unfold StreamDecoder.nextFrameLength
      dsimp only
      rw [if_pos (by omega)]
    rw [hnone]
  · obtain ⟨length, hnext, hsmall⟩ := hlength (by omega)
    rw [hnext]
    dsimp only
    rw [if_pos hsmall]

/-- The decoder holds a beginning of the first frame, so whatever frame is met in a chunk
ends behind the buffer. -/
theorem InFrame.lt_of_mem {earlier rest : List Bytes} {frame bytes : Bytes}
    (hin : InFrame (earlier ++ frame :: rest) bytes) :
    bytes.length < earlier.flatten.length + frame.length := by
  cases earlier with
  | nil =>
    have hinside : bytes.length < frame.length := hin
    rw [List.flatten_nil, List.length_nil]
    omega
  | cons first earlier =>
    have hinside : bytes.length < first.length := hin
    rw [List.flatten_cons, List.length_append]
    omega

/-- One chunk of frames within the limit: either the completed frames are decoded and what
has arrived of the next one stays in the buffer, or a rejected frame drops everything. -/
theorem pushBoundedPrefix_short (hlimit : 16 ≤ limit)
    (hbuffer : 2 * limit ≤ decoder.config.maxBufferBytes)
    (hframes : ∀ frame ∈ frames, WellFormedFrame frame ∧ frame.length ≤ limit)
    (hin : InFrame frames decoder.buffer) (h : decoder.buffer ++ chunk ++ later = frames.flatten)
    (hchunk : chunk.length ≤ limit) :
    (∃ done rest left messages, frames = done ++ rest ∧
      decoder.buffer ++ chunk = done.flatten ++ left ∧ InFrame rest left ∧
      messages.map .ok =
        done.map (fun frame => decodeFrame codecs frame decoder.config.maxMessageBytes) ∧
      decoder.pushBoundedPrefix codecs chunk limit =
        ({ decoder with buffer := left }, .ok messages)) ∨
    (∃ dropped e, decoder.pushBoundedPrefix codecs chunk limit = (dropped, .error e) ∧
      DropsBuffer codecs decoder.config.maxMessageBytes limit frames decoder.buffer.length
        chunk.length) := by
  have hwell : ∀ frame ∈ frames, WellFormedFrame frame := fun frame hmem => (hframes frame hmem).1
  have hpush : (∃ e, decoder.pushBoundedPrefix codecs chunk limit = (decoder, .error e) ∧
        DropsBuffer codecs decoder.config.maxMessageBytes limit frames decoder.buffer.length
          chunk.length) ∨
      decoder.pushBoundedPrefix codecs chunk limit = decoder.push codecs chunk := by
    by_cases hfour : decoder.buffer.length + chunk.length < 4
    · exact Or.inr (pushBoundedPrefix_eq_push hlimit (by omega) fun _ => by omega)
    · cases frames with
      | nil =>
        have hlengths := congrArg List.length h
        rw [List.length_append, List.length_append, List.flatten_nil, List.length_nil] at hlengths
        omega
      | cons frame rest =>
        have hinside : decoder.buffer.length < frame.length := hin
        rw [List.flatten_cons] at h
        have hnext := nextFrameLength_of_append_eq (hwell frame List.mem_cons_self) h (by omega)
        by_cases hlarge : decoder.config.maxMessageBytes < frame.length
        · rw [if_pos hlarge] at hnext
          refine Or.inl ⟨.frameTooLarge, ?_, [], frame, rest, rfl, ?_, Or.inr (Or.inl ⟨?_, hlarge⟩)⟩
          · unfold StreamDecoder.pushBoundedPrefix
            rw [if_neg (by omega), hnext]
          · rw [List.flatten_nil, List.length_nil]
            omega
          · rw [List.flatten_nil, List.length_nil]
            omega
        · rw [if_neg hlarge] at hnext
          have hfits := (hframes frame List.mem_cons_self).2
          exact Or.inr (pushBoundedPrefix_eq_push hlimit (by omega) fun _ =>
            ⟨frame.length, hnext, Or.inl hfits⟩)
  have hroom : decoder.buffer.length + chunk.length ≤ decoder.config.maxBufferBytes := by
    cases frames with
    | nil =>
      have hnil : decoder.buffer = [] := hin
      rw [hnil, List.length_nil]
      omega
    | cons frame rest =>
      have hfits := (hframes frame List.mem_cons_self).2
      have hinside : decoder.buffer.length < frame.length := hin
      omega
  rcases hpush with ⟨e, herror, hdrops⟩ | hpush
  · exact Or.inr ⟨decoder, e, herror, hdrops⟩
  rw [hpush]
  unfold StreamDecoder.push
  rw [if_neg (by omega)]
  dsimp only
  rcases @pushLoop_frames codecs decoder.config.maxMessageBytes _ hwell _ _ h [] with
    ⟨done, rest, left, messages, hsplit, hleft, hrest, hmessages, hloop⟩ |
    ⟨earlier, bad, rest, e, hsplit, hloop, hbad⟩
  · refine Or.inl ⟨done, rest, left, messages, hsplit, hleft, hrest,
      map_ok_of_forall₂ hmessages, ?_⟩
    rw [hloop, List.nil_append]
  · refine Or.inr ⟨{ decoder with buffer := (StreamDecoder.pushLoop codecs
      decoder.config.maxMessageBytes (decoder.buffer ++ chunk) []).1 }, e, ?_, ?_⟩
    · rw [← hloop]
    · rw [List.length_append] at hbad
      refine ⟨earlier, bad, rest, hsplit, ?_, Or.inr hbad⟩
      subst hsplit
      exact hin.lt_of_mem

/-- One chunk of frames that fit: the completed frames are decoded, and what has arrived of
the next one stays in the buffer. -/
theorem pushBoundedPrefix_fits (hlimit : 16 ≤ limit)
    (hbuffer : 2 * limit ≤ decoder.config.maxBufferBytes)
    (hframes : ∀ frame ∈ frames, Fits codecs decoder.config.maxMessageBytes limit frame)
    (hin : InFrame frames decoder.buffer) (h : decoder.buffer ++ chunk ++ later = frames.flatten)
    (hchunk : chunk.length ≤ limit) :
    ∃ done rest left messages, frames = done ++ rest ∧
      decoder.buffer ++ chunk = done.flatten ++ left ∧ InFrame rest left ∧
      messages.map .ok =
        done.map (fun frame => decodeFrame codecs frame decoder.config.maxMessageBytes) ∧
      decoder.pushBoundedPrefix codecs chunk limit =
        ({ decoder with buffer := left }, .ok messages) := by
  have hshort : ∀ frame ∈ frames, WellFormedFrame frame ∧ frame.length ≤ limit := by
    intro frame hmem
    have hfits := hframes frame hmem
    exact ⟨hfits.wellFormed, Nat.le_trans hfits.2 (Nat.min_le_left ..)⟩
  rcases @pushBoundedPrefix_short codecs _ _ _ _ _ hlimit hbuffer hshort hin h hchunk with
    haligned | ⟨dropped, e, -, earlier, frame, rest, rfl, -, hkind⟩
  · exact haligned
  · obtain ⟨haccepted, hfits⟩ := hframes frame (List.mem_append_right _ List.mem_cons_self)
    rcases hkind with ⟨-, hlong, -⟩ | ⟨-, hlarge⟩ | ⟨-, e, hrejected⟩
    · omega
    · omega
    · rw [hrejected] at haccepted
      cases haccepted

/-- Feeding chunks to a decoder that holds a beginning of the first frame. -/
private theorem feed_of_inFrame {chunks : List Bytes} (hlimit : 16 ≤ limit)
    (hbuffer : 2 * limit ≤ decoder.config.maxBufferBytes)
    (hframes : ∀ frame ∈ frames, Fits codecs decoder.config.maxMessageBytes limit frame)
    (hin : InFrame frames decoder.buffer) (h : decoder.buffer ++ chunks.flatten = frames.flatten)
    (hchunks : ∀ chunk ∈ chunks, chunk.length ≤ limit) :
    (∃ results : List (List DecodedMessage),
        (feed codecs limit decoder chunks).2 = results.map .ok ∧
      results.flatten.map .ok =
        frames.map (fun frame => decodeFrame codecs frame decoder.config.maxMessageBytes)) ∧
    ∀ before after, chunks = before ++ after → ∃ done rest, frames = done ++ rest ∧
      decoder.buffer ++ before.flatten =
        done.flatten ++ (feed codecs limit decoder before).1.buffer ∧
      InFrame rest (feed codecs limit decoder before).1.buffer := by
  induction chunks generalizing decoder frames with
  | nil =>
    rw [List.flatten_nil, List.append_nil] at h
    refine ⟨⟨[], rfl, ?_⟩, fun before after hsplit => ?_⟩
    · rw [hin.eq_nil h]
      rfl
    · obtain ⟨rfl, rfl⟩ := List.append_eq_nil_iff.mp hsplit.symm
      exact ⟨[], frames, rfl, List.append_nil _, hin⟩
  | cons chunk chunks ih =>
    have hfirst : decoder.buffer ++ chunk ++ chunks.flatten = frames.flatten := by
      rw [List.append_assoc, ← List.flatten_cons]
      exact h
    obtain ⟨done, rest, left, messages, rfl, hleft, hrest, hmessages, hpush⟩ :=
      pushBoundedPrefix_fits hlimit hbuffer hframes hin hfirst (hchunks chunk List.mem_cons_self)
    have hcoming : left ++ chunks.flatten = rest.flatten := by
      rw [hleft, List.flatten_append, List.append_assoc] at hfirst
      exact List.append_cancel_left hfirst
    have hrun := @ih { decoder with buffer := left } rest hbuffer
      (fun frame hmem => hframes frame (List.mem_append_right done hmem)) hrest hcoming
      (fun other hmem => hchunks other (List.mem_cons_of_mem _ hmem))
    obtain ⟨⟨results, hresults, hdecoded⟩, hstates⟩ := hrun
    refine ⟨⟨messages :: results, ?_, ?_⟩, fun before after hsplit => ?_⟩
    · rw [feed, hpush, List.map_cons, ← hresults]
    · rw [List.flatten_cons, List.map_append, List.map_append, hmessages, hdecoded]
    · cases before with
      | nil => exact ⟨[], done ++ rest, rfl, List.append_nil _, hin⟩
      | cons first before =>
        rw [List.cons_append] at hsplit
        obtain ⟨rfl, htail⟩ := List.cons.inj hsplit
        obtain ⟨doneLater, restLater, hsplitLater, hbytes, hinside⟩ := hstates before after htail
        have hfeed : (feed codecs limit decoder (chunk :: before)).1 =
            (feed codecs limit { decoder with buffer := left } before).1 := by
          rw [feed, hpush]
        rw [hfeed]
        refine ⟨done ++ doneLater, restLater, ?_, ?_, hinside⟩
        · rw [hsplitLater, List.append_assoc]
        · rw [List.flatten_cons, ← List.append_assoc, hleft, List.append_assoc, hbytes,
            List.flatten_append, List.append_assoc]

end

/-- However a stream of frames that fit is divided into chunks, every chunk succeeds, the
results are those of the frames in order, and after any of the chunks the buffer holds the
received bytes of the last incomplete frame. -/
theorem feed_frames {codecs : Decompressors} {config : DecoderConfig} {limit : ℕ}
    {frames chunks : List Bytes} (hlimit : 16 ≤ limit)
    (hbuffer : 2 * limit ≤ config.maxBufferBytes)
    (haccepted : ∀ frame ∈ frames, (decodeFrame codecs frame config.maxMessageBytes).isOk)
    (hframes : ∀ frame ∈ frames, frame.length ≤ min limit config.maxMessageBytes)
    (hchunks : ∀ chunk ∈ chunks, chunk.length ≤ limit)
    (hstream : chunks.flatten = frames.flatten) :
    (∃ results : List (List DecodedMessage),
        (feed codecs limit (.new config) chunks).2 = results.map .ok ∧
      results.flatten.map .ok =
        frames.map (fun frame => decodeFrame codecs frame config.maxMessageBytes)) ∧
    ∀ before after, chunks = before ++ after →
      LastIncomplete frames before.flatten (feed codecs limit (.new config) before).1.buffer := by
  have hfits : ∀ frame ∈ frames, Fits codecs config.maxMessageBytes limit frame :=
    fun frame hmem => ⟨haccepted frame hmem, hframes frame hmem⟩
  have hin : InFrame frames (StreamDecoder.new config).buffer := by
    cases frames with
    | nil => rfl
    | cons frame rest =>
      have hwell := (hfits frame List.mem_cons_self).wellFormed.1
      exact Nat.lt_of_lt_of_le (by decide : 0 < 16) hwell
  obtain ⟨hresults, hstates⟩ := @feed_of_inFrame codecs (.new config) frames limit chunks hlimit
    hbuffer hfits hin hstream hchunks
  refine ⟨hresults, fun before after hsplit => ?_⟩
  obtain ⟨done, rest, rfl, hbytes, hinside⟩ := hstates before after hsplit
  refine ⟨done, rest, rfl, hbytes, ?_⟩
  cases rest with
  | nil => exact Or.inl ⟨rfl, hinside⟩
  | cons frame rest =>
    have hshort : (feed codecs limit (.new config) before).1.buffer.length < frame.length := hinside
    refine Or.inr ⟨frame, rest, rfl, hshort, ?_⟩
    -- the bytes are the beginning of what follows the completed frames
    have hwhole : (feed codecs limit (.new config) before).1.buffer ++ after.flatten =
        frame ++ rest.flatten := by
      rw [hsplit, List.flatten_append, List.flatten_append, List.flatten_cons] at hstream
      have hreceived : before.flatten = done.flatten ++
          (feed codecs limit (.new config) before).1.buffer := hbytes
      rw [hreceived, List.append_assoc] at hstream
      exact List.append_cancel_left hstream
    have hbegins :=
      List.prefix_append (feed codecs limit (.new config) before).1.buffer after.flatten
    rw [hwhole] at hbegins
    exact List.prefix_of_prefix_length_le hbegins (List.prefix_append frame _) (by omega)

/-- Two frames of 36 bytes. -/
def twoFrames : List Bytes :=
  [encodeOpMsg 1 0 0 (encodeBody (encodeInt32 "ping" 1)),
    encodeOpMsg 2 0 0 (encodeBody (encodeInt32 "ping" 1))]

/-- The two frames, divided inside the length of each. -/
def twoFramesChunks : List Bytes :=
  [twoFrames.flatten.take 3, (twoFrames.flatten.drop 3).take 35, twoFrames.flatten.drop 38]

/-- The chunks return the messages of the two frames. -/
theorem twoFrames_feed :
    (∃ results : List (List DecodedMessage),
      (feed .rejecting 64 (.new ⟨1024, 128⟩) twoFramesChunks).2 = results.map .ok ∧
      results.flatten.map .ok =
        twoFrames.map (fun frame => decodeFrame .rejecting frame 1024)) ∧
    ∀ before after, twoFramesChunks = before ++ after → LastIncomplete twoFrames before.flatten
      (feed .rejecting 64 (.new ⟨1024, 128⟩) before).1.buffer := by
  have haccepted : ∀ frame ∈ twoFrames, (decodeFrame .rejecting frame 1024).isOk := by
    decide +kernel
  have hframes : ∀ frame ∈ twoFrames, frame.length ≤ min 64 1024 := by
    decide +kernel
  have hchunks : ∀ chunk ∈ twoFramesChunks, chunk.length ≤ 64 := by
    decide +kernel
  have hstream : twoFramesChunks.flatten = twoFrames.flatten := by
    decide +kernel
  exact feed_frames (by decide) (by decide) haccepted hframes hchunks hstream

end MongoDam.Protocol
