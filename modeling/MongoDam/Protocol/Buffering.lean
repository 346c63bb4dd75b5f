import MongoDam.Protocol.Framing

/-!
# What a decoder buffers

Between chunks a decoder that is fed bounded prefixes holds less than the limit, and
what it holds is too short for a length prefix or a strict beginning of one frame
within the limits. So there is always room for a chunk: the buffer is never too large
when a chunk is pushed, and no decoder of a frame reports that it is.
-/

namespace MongoDam.Protocol

open Lib

/-! ### Errors of the decoders -/

/-- The result is not the error of a buffer that is too large. -/
structure HasRoom {α : Type} (result : Except DecodeError α) : Prop where
  ne : result ≠ .error .bufferTooLarge

section HasRoom

variable {α β : Type}

theorem hasRoom_ok (value : α) : HasRoom (.ok value : Except DecodeError α) := ⟨nofun⟩

theorem HasRoom.error {result : Except DecodeError α} {e : DecodeError} (h : HasRoom result)
    (he : result = .error e) : HasRoom (.error e : Except DecodeError β) := by
  subst he
  refine ⟨?_⟩
  rintro ⟨⟩
  exact h.ne rfl

theorem HasRoom.bind {result : Except DecodeError α} {next : α → Except DecodeError β}
    (h : HasRoom result) (hnext : ∀ value, HasRoom (next value)) : HasRoom (result >>= next) := by
  cases result with
  | error e => exact h.error rfl
  | ok value => exact hnext value

theorem HasRoom.map {result : Except DecodeError α} (h : HasRoom result) (f : α → β) :
    HasRoom (result.map f) := by
  cases result with
  | error e => exact h.error rfl
  | ok value => exact hasRoom_ok _

end HasRoom

theorem hasRoom_readWord (width : ℕ) (bytes : Bytes) (offset : ℕ) :
    HasRoom (readWord width bytes offset) := by
  unfold readWord
  split <;> exact ⟨by simp⟩

theorem hasRoom_readI32 (bytes : Bytes) (offset : ℕ) : HasRoom (readI32 bytes offset) :=
  (hasRoom_readWord 4 bytes offset).map _

theorem hasRoom_readCstring (bytes : Bytes) (offset : ℕ) : HasRoom (readCstring bytes offset) := by
  unfold readCstring
  split
  · exact ⟨by simp⟩
  · split
    · exact ⟨by simp⟩
    · split <;> exact ⟨by simp⟩

theorem hasRoom_checkedEnd (bytes : Bytes) (stop : ℕ) : HasRoom (checkedEnd bytes stop) := by
  unfold checkedEnd
  split <;> exact ⟨by simp⟩

theorem hasRoom_skipPrefixed (bytes : Bytes) (offset : ℕ) (least : ℤ) (extra : ℕ) :
    HasRoom (skipPrefixed bytes offset least extra) := by
  unfold skipPrefixed
  split
  · next he => exact (hasRoom_readI32 bytes offset).error he
  · split
    · exact ⟨by simp⟩
    · exact hasRoom_checkedEnd ..

theorem hasRoom_skipValue (bytes : Bytes) (offset : ℕ) (elementType : UInt8) :
    HasRoom (skipValue bytes offset elementType) := by
  unfold skipValue
  split
  · exact hasRoom_checkedEnd ..
  · split
    case h_8 =>
      split
      · next he => exact (hasRoom_readCstring ..).error he
      · split
        · next he => exact (hasRoom_readCstring ..).error he
        · exact ⟨by simp⟩
    case h_10 => exact ⟨by simp⟩
    all_goals exact hasRoom_skipPrefixed ..

theorem hasRoom_sliceBson (bytes : Bytes) (start stop : ℕ) :
    HasRoom (sliceBson bytes start stop) := by
  unfold sliceBson
  split <;> exact ⟨by simp⟩

/-! ### Documents -/

private theorem hasRoom_deleteStatementLimitLoop (statement : Bytes) (offset : ℕ) :
    HasRoom (deleteStatementLimitLoop statement offset) := by
  fun_induction deleteStatementLimitLoop statement offset with
  | case1 offset h e he => exact (hasRoom_readCstring ..).error he
  | case2 offset h key afterKey hkey e he => exact (hasRoom_skipValue ..).error he
  | case3 => exact ⟨by simp⟩
  | case4 offset h key afterKey hkey next hskip hlimit ih => exact ih
  | case5 => exact ⟨by simp⟩

theorem hasRoom_deleteStatementLimit (statement : Bytes) :
    HasRoom (deleteStatementLimit statement) := by
  unfold deleteStatementLimit
  split
  · exact hasRoom_deleteStatementLimitLoop ..
  · exact ⟨by simp⟩

private theorem hasRoom_deleteSequenceLoop (documents : Bytes) (offset : ℕ) (tally : DeleteTally) :
    HasRoom (deleteSequenceLoop documents offset tally) := by
  fun_induction deleteSequenceLoop documents offset tally with
  | case1 offset tally h e he => exact (hasRoom_readI32 ..).error he
  | case2 => exact ⟨by simp⟩
  | case3 => exact ⟨by simp⟩
  | case4 offset tally h length hlength hfive hinside e he =>
    exact ((hasRoom_sliceBson ..).bind hasRoom_deleteStatementLimit).error he
  | case5 offset tally h length hlength hfive hinside limit hlimit ih => exact ih
  | case6 => exact ⟨by simp⟩

theorem hasRoom_summarizeDeleteDocumentSequence (documents : Bytes) :
    HasRoom (summarizeDeleteDocumentSequence documents) :=
  (hasRoom_deleteSequenceLoop documents 0 {}).map _

private theorem hasRoom_summarizeLoop (nested : Option (Bytes → Except DecodeError BsonSummary))
    (document : Bytes) (offset ordinal : ℕ) (summary : BsonSummary) :
    HasRoom (summarizeLoop nested document offset ordinal summary) := by
  fun_induction summarizeLoop nested document offset ordinal summary with
  | case1 offset ordinal summary h e he => exact (hasRoom_readCstring ..).error he
  | case2 offset ordinal summary h key afterKey hkey e he => exact (hasRoom_skipValue ..).error he
  | case3 => exact ⟨by simp⟩
  | case4 offset ordinal summary h key afterKey hkey next hskip hinside ih => exact ih
  | case5 => exact ⟨by simp⟩

theorem hasRoom_summarizeWith (nested : Option (Bytes → Except DecodeError BsonSummary))
    (document : Bytes) : HasRoom (summarizeWith nested document) := by
  unfold summarizeWith
  split
  · exact (hasRoom_summarizeLoop nested document 4 0 {}).map _
  · exact ⟨by simp⟩

theorem hasRoom_summarizeBson (document : Bytes) : HasRoom (summarizeBson document) :=
  hasRoom_summarizeWith _ document

theorem hasRoom_summarizeBsonPrefix (document : Bytes) :
    HasRoom (summarizeBsonPrefix document) := by
  unfold summarizeBsonPrefix
  split
  · exact ⟨by simp⟩
  · split
    · next he => exact (hasRoom_readI32 ..).error he
    · split
      · exact ⟨by simp⟩
      · split
        · exact hasRoom_summarizeBson _
        · dsimp only
          split <;> exact ⟨by simp⟩

/-! ### Messages -/

private theorem hasRoom_opMsgSectionsLoop (payload : Bytes) (stop offset : ℕ)
    (sections : OpMsgSections) : HasRoom (opMsgSectionsLoop payload stop offset sections) := by
  fun_induction opMsgSectionsLoop payload stop offset sections with
  | case1 => exact ⟨by simp⟩
  | case2 offset sections h hkind e he => exact (hasRoom_readI32 ..).error he
  | case3 => exact ⟨by simp⟩
  | case4 => exact ⟨by simp⟩
  | case5 offset sections h hkind length hlength hfive hinside body hbody ih => exact ih
  | case6 offset sections h hkind length hlength hfive hinside hbody e he =>
    exact ((hasRoom_sliceBson ..).bind hasRoom_summarizeBson).error he
  | case7 offset sections h hkind length hlength hfive hinside hbody summary hsummary ih => exact ih
  | case8 offset sections h hkind e he => exact (hasRoom_readI32 ..).error he
  | case9 => exact ⟨by simp⟩
  | case10 => exact ⟨by simp⟩
  | case11 offset sections h hkind size hsize hfive hinside e he =>
    exact (hasRoom_readCstring ..).error he
  | case12 => exact ⟨by simp⟩
  | case13 offset sections h hkind size hsize hfive hinside identifier start hid hstart e he =>
    exact (hasRoom_sliceBson ..).error he
  | case14 offset sections h hkind size hsize hfive hinside start hstart documents hdocuments e he
      hid =>
    exact (hasRoom_summarizeDeleteDocumentSequence _).error he
  | case15 offset sections h hkind size hsize hfive hinside start hstart documents hdocuments
    deletes
      hdeletes hid ih => exact ih
  | case16 offset sections h hkind size hsize hfive hinside identifier start hid hstart documents
      hdocuments hother ih => exact ih
  | case17 => exact ⟨by simp⟩
  | case18 => exact ⟨by simp⟩

theorem hasRoom_decodeOpMsg (requestId responseTo : ℤ) (wireBytes : ℕ) (payload : Bytes)
    (compressed : Bool) :
    HasRoom (decodeOpMsg requestId responseTo wireBytes payload compressed) := by
  unfold decodeOpMsg
  split
  · exact ⟨by simp⟩
  · split
    · next he => exact (hasRoom_readWord ..).error he
    · next flags _ =>
      by_cases hshort : payload.length < 4 + (if flags % 2 = 1 then 4 else 0)
      · rw [if_pos hshort]
        exact ⟨by simp⟩
      · rw [if_neg hshort]
        split
        · next he => exact (hasRoom_opMsgSectionsLoop ..).error he
        · unfold OpMsgSections.message
          split <;> exact ⟨by simp⟩

theorem hasRoom_decodeOpMsgPrefix (requestId responseTo : ℤ) (declared : ℕ) (payload : Bytes) :
    HasRoom (decodeOpMsgPrefix requestId responseTo declared payload) := by
  unfold decodeOpMsgPrefix
  split
  · exact ⟨by simp⟩
  · split
    · next he => exact (hasRoom_readWord ..).error he
    · exact ⟨by simp⟩
    · split
      · exact ⟨by simp⟩
      · split
        · next he => exact (hasRoom_summarizeBsonPrefix _).error he
        · exact ⟨by simp⟩

theorem hasRoom_legacyDocument (payload : Bytes) (offset : ℕ) :
    HasRoom (legacyDocument payload offset) := by
  unfold legacyDocument
  split
  · next he => exact (hasRoom_readI32 ..).error he
  · split
    · exact ⟨by simp⟩
    · exact hasRoom_sliceBson ..

theorem hasRoom_decodeOpQuery (requestId responseTo : ℤ) (wireBytes : ℕ) (payload : Bytes)
    (compressed : Bool) :
    HasRoom (decodeOpQuery requestId responseTo wireBytes payload compressed) := by
  unfold decodeOpQuery
  split
  · exact ⟨by simp⟩
  · refine (hasRoom_readWord ..).bind fun flags => (hasRoom_readCstring ..).bind fun name => ?_
    refine (hasRoom_legacyDocument ..).bind fun document => ?_
    exact (hasRoom_summarizeBson document).bind fun summary => hasRoom_ok _

theorem hasRoom_decodeOpQueryPrefix (requestId responseTo : ℤ) (wireBytes : ℕ) (payload : Bytes) :
    HasRoom (decodeOpQueryPrefix requestId responseTo wireBytes payload) := by
  unfold decodeOpQueryPrefix
  split
  · exact ⟨by simp⟩
  · refine (hasRoom_readWord ..).bind fun flags => (hasRoom_readCstring ..).bind fun name => ?_
    dsimp only
    split
    · exact ⟨by simp⟩
    · exact (hasRoom_summarizeBsonPrefix _).bind fun summary => hasRoom_ok _

theorem hasRoom_decodeOpReply (requestId responseTo : ℤ) (wireBytes : ℕ) (payload : Bytes)
    (compressed : Bool) :
    HasRoom (decodeOpReply requestId responseTo wireBytes payload compressed) := by
  unfold decodeOpReply
  split
  · exact ⟨by simp⟩
  · refine (hasRoom_readWord ..).bind fun flags => (hasRoom_readI32 ..).bind fun returned => ?_
    dsimp only
    split
    · exact (((hasRoom_legacyDocument ..).bind hasRoom_summarizeBson).map _).bind
        fun summary => hasRoom_ok _
    · exact hasRoom_ok _

theorem hasRoom_decodeOpReplyPrefix (requestId responseTo : ℤ) (wireBytes : ℕ) (payload : Bytes) :
    HasRoom (decodeOpReplyPrefix requestId responseTo wireBytes payload) := by
  unfold decodeOpReplyPrefix
  split
  · exact ⟨by simp⟩
  · refine (hasRoom_readWord ..).bind fun flags => (hasRoom_readI32 ..).bind fun returned => ?_
    dsimp only
    split
    · exact ((hasRoom_summarizeBsonPrefix _).map _).bind fun summary => hasRoom_ok _
    · exact hasRoom_ok _

/-! ### Frames -/

section Frames

variable (codecs : Decompressors)

theorem hasRoom_decompress (compressor : UInt8) (data : Bytes) (size : ℕ) :
    HasRoom (decompress codecs compressor data size) := by
  have hlibrary : ∀ result : Except String Bytes, HasRoom (result.mapError .decompression) := by
    intro result
    cases result <;> exact ⟨by simp [Except.mapError]⟩
  unfold decompress
  split
  · exact ⟨by simp⟩
  · split
    · exact ⟨by simp⟩
    · split
      · exact ⟨by simp⟩
      · exact hlibrary _
  · exact hlibrary _
  · exact hlibrary _
  · exact ⟨by simp⟩

theorem hasRoom_decodeCompressed (requestId responseTo : ℤ) (wireBytes : ℕ) (payload : Bytes)
    (maxMessageBytes : ℕ) :
    HasRoom (decodeCompressed codecs requestId responseTo wireBytes payload maxMessageBytes) := by
  unfold decodeCompressed
  split
  · exact ⟨by simp⟩
  · refine (hasRoom_readI32 ..).bind fun opcode => (hasRoom_readI32 ..).bind fun size => ?_
    split
    · exact ⟨by simp⟩
    · refine (hasRoom_decompress ..).bind fun uncompressed => ?_
      split
      · exact ⟨by simp⟩
      · split
        · exact hasRoom_decodeOpMsg ..
        · split
          · exact hasRoom_decodeOpQuery ..
          · split
            · exact hasRoom_decodeOpReply ..
            · exact ⟨by simp⟩

/-- Decoding a frame never reports a buffer that is too large. -/
theorem hasRoom_decodeFrame (frame : Bytes) (maxMessageBytes : ℕ) :
    HasRoom (decodeFrame codecs frame maxMessageBytes) := by
  unfold decodeFrame
  split
  · exact ⟨by simp⟩
  · refine (hasRoom_readI32 ..).bind fun declared => ?_
    split
    · exact ⟨by simp⟩
    · split
      · exact ⟨by simp⟩
      · refine (hasRoom_readI32 ..).bind fun requestId =>
          (hasRoom_readI32 ..).bind fun responseTo => ?_
        refine (hasRoom_readI32 ..).bind fun opcode => ?_
        split
        · exact hasRoom_decodeOpMsg ..
        · split
          · exact hasRoom_decodeOpQuery ..
          · split
            · exact hasRoom_decodeOpReply ..
            · split
              · exact hasRoom_decodeCompressed ..
              · exact ⟨by simp⟩

/-- Decoding the beginning of a frame never reports a buffer that is too large. -/
theorem hasRoom_decodeFramePrefix (captured : Bytes) (maxMessageBytes : ℕ) :
    HasRoom (decodeFramePrefix codecs captured maxMessageBytes) := by
  unfold decodeFramePrefix
  split
  · exact ⟨by simp⟩
  · refine (hasRoom_readI32 ..).bind fun declared => ?_
    split
    · exact ⟨by simp⟩
    · split
      · exact ⟨by simp⟩
      · split
        · exact hasRoom_decodeFrame ..
        · refine (hasRoom_readI32 ..).bind fun requestId => ?_
          refine (hasRoom_readI32 ..).bind fun responseTo => ?_
          refine (hasRoom_readI32 ..).bind fun opcode => ?_
          split
          · exact ⟨by simp⟩
          · split
            · exact hasRoom_decodeOpMsgPrefix ..
            · split
              · exact hasRoom_decodeOpQueryPrefix ..
              · split
                · exact hasRoom_decodeOpReplyPrefix ..
                · exact ⟨by simp⟩

end Frames

/-! ### Chunks -/

namespace StreamDecoder

variable {codecs : Decompressors} {limit : ℕ} {decoder : StreamDecoder} {bytes : Bytes}

/-- The buffer is too short for a length prefix, or it is a strict beginning of one frame
that is not too large. -/
def OneFrame (maxMessageBytes : ℕ) (buffer : Bytes) : Prop :=
  buffer.length < 4 ∨ ∃ frame, WellFormedFrame frame ∧ frame.length ≤ maxMessageBytes ∧
    buffer <+: frame ∧ buffer.length < frame.length

/-- What a decoder holds between chunks. -/
structure Holds (limit : ℕ) (decoder : StreamDecoder) : Prop where
  short : decoder.buffer.length < limit
  oneFrame : OneFrame decoder.config.maxMessageBytes decoder.buffer

/-- A buffer that has not reached the length it declares begins a frame of that length. -/
theorem oneFrame_of_declared {maxMessageBytes : ℕ} {buffer : Bytes} {length : ℤ}
    (hread : readI32 buffer 0 = .ok length) (hsixteen : 16 ≤ length)
    (hmax : length.toNat ≤ maxMessageBytes) (hlong : buffer.length < length.toNat) :
    OneFrame maxMessageBytes buffer := by
  have hfour : 4 ≤ buffer.length := by
    have := readI32_eq_ok hread
    omega
  have hlength : (buffer ++ List.replicate (length.toNat - buffer.length) 0).length =
      length.toNat := by
    rw [List.length_append, List.length_replicate]
    omega
  refine Or.inr ⟨buffer ++ List.replicate (length.toNat - buffer.length) 0, ⟨?_, ?_⟩, ?_, ?_, ?_⟩
  · omega
  · rw [readI32_append _ hfour, hread, hlength]
    congr 1
    omega
  · omega
  · exact List.prefix_append ..
  · omega

/-- The declared length of a buffer that is a strict beginning of a frame is not reached. -/
theorem OneFrame.lt_declared {maxMessageBytes : ℕ} {buffer bytes : Bytes} {length : ℤ}
    (h : OneFrame maxMessageBytes buffer) (hread : readI32 (buffer ++ bytes) 0 = .ok length)
    (hsixteen : 16 ≤ length) : buffer.length < length.toNat := by
  rcases h with hshort | ⟨frame, hframe, -, ⟨rest, rfl⟩, hlt⟩
  · omega
  · by_cases hfour : 4 ≤ buffer.length
    · have hlength := hframe.2
      rw [readI32_append _ (by omega)] at hread hlength
      rw [hread] at hlength
      have hdeclared := Except.ok.inj hlength
      omega
    · omega

/-- What the loop leaves in the buffer, when it succeeds: everything, or what follows the
first frame. -/
theorem pushLoop_ok {maxMessageBytes : ℕ} {buffer left : Bytes}
    {decoded messages : List DecodedMessage}
    (h : pushLoop codecs maxMessageBytes buffer decoded = (left, .ok messages)) :
    OneFrame maxMessageBytes left ∧ (left = buffer ∨ ∃ length, readI32 buffer 0 = .ok length ∧
      16 ≤ length ∧ left.length + length.toNat ≤ buffer.length) := by
  fun_induction pushLoop codecs maxMessageBytes buffer decoded with
  | case1 buffer decoded hshort =>
    obtain ⟨rfl, -⟩ := Prod.mk.inj h
    exact ⟨Or.inl hshort, Or.inl rfl⟩
  | case2 => cases (Prod.mk.inj h).2
  | case3 => cases (Prod.mk.inj h).2
  | case4 => cases (Prod.mk.inj h).2
  | case5 buffer decoded hfour length hread hsixteen hmax hlong =>
    obtain ⟨rfl, -⟩ := Prod.mk.inj h
    exact ⟨oneFrame_of_declared hread (by omega) (by omega) hlong, Or.inl rfl⟩
  | case6 => cases (Prod.mk.inj h).2
  | case7 buffer decoded hfour length hread hsixteen hmax hwhole message hdecoded ih =>
    obtain ⟨hone, hleft⟩ := ih h
    refine ⟨hone, Or.inr ⟨length, hread, by omega, ?_⟩⟩
    rcases hleft with rfl | ⟨next, -, -, hle⟩
    · rw [List.length_drop]
      omega
    · rw [List.length_drop] at hle
      omega

variable (codecs) in
/-- The loop never reports a buffer that is too large. -/
theorem hasRoom_pushLoop (maxMessageBytes : ℕ) (buffer : Bytes) (decoded : List DecodedMessage) :
    HasRoom (pushLoop codecs maxMessageBytes buffer decoded).2 := by
  fun_induction pushLoop codecs maxMessageBytes buffer decoded with
  | case1 => exact ⟨by simp⟩
  | case2 buffer decoded hfour e he => exact (hasRoom_readI32 buffer 0).error he
  | case3 => exact ⟨by simp⟩
  | case4 => exact ⟨by simp⟩
  | case5 => exact ⟨by simp⟩
  | case6 buffer decoded hfour length hread hsixteen hmax hwhole e he =>
    exact (hasRoom_decodeFrame codecs _ maxMessageBytes).error he
  | case7 buffer decoded hfour length hread hsixteen hmax hwhole message hdecoded ih => exact ih

/-- Pushing a chunk that fits does not find the buffer too large. -/
theorem hasRoom_push
    (hroom : decoder.buffer.length + bytes.length ≤ decoder.config.maxBufferBytes) :
    HasRoom (decoder.push codecs bytes).2 := by
  unfold push
  rw [if_neg (by omega)]
  exact hasRoom_pushLoop codecs ..

/-- Pushing a chunk onto a decoder with room for it. A success leaves one frame in progress
of fewer bytes than the limit, when there were no more to begin with or the first frame
is not longer than the limit. -/
private theorem push_spec
    (hroom : decoder.buffer.length + bytes.length ≤ decoder.config.maxBufferBytes)
    (hone : OneFrame decoder.config.maxMessageBytes decoder.buffer)
    (hfew : decoder.buffer.length + bytes.length < limit ∨
      ∃ declared, readI32 (decoder.buffer ++ bytes) 0 = .ok declared ∧ 16 ≤ declared ∧
        declared.toNat ≤ limit ∧ bytes.length ≤ limit) :
    HasRoom (decoder.push codecs bytes).2 ∧
      ∀ messages, (decoder.push codecs bytes).2 = .ok messages →
        (decoder.push codecs bytes).1.config = decoder.config ∧
          (decoder.push codecs bytes).1.Holds limit := by
  refine ⟨hasRoom_push hroom, ?_⟩
  unfold push
  rw [if_neg (by omega)]
  rcases hloop : pushLoop codecs decoder.config.maxMessageBytes (decoder.buffer ++ bytes) [] with
    ⟨left, result⟩
  refine fun messages hok => ⟨rfl, ?_⟩
  obtain rfl : result = .ok messages := hok
  obtain ⟨hleft, hrest⟩ := pushLoop_ok hloop
  refine ⟨?_, hleft⟩
  dsimp only
  rcases hrest with rfl | ⟨length, hread, hsixteen, hle⟩
  · rcases hfew with hfew | ⟨declared, hread, hsixteen, hlimit, -⟩
    · rw [List.length_append]
      exact hfew
    · rw [← List.append_nil (decoder.buffer ++ bytes)] at hread
      have hlt := hleft.lt_declared hread hsixteen
      omega
  · rw [List.length_append] at hle
    rcases hfew with hfew | ⟨declared, hdeclared, -, hlimit, hbytes⟩
    · omega
    · obtain rfl : length = declared := Except.ok.inj (hread.symm.trans hdeclared)
      have hlt := hone.lt_declared hread hsixteen
      omega

theorem holds_clear (hlimit : 0 < limit) (decoder : StreamDecoder) : decoder.clear.Holds limit :=
  ⟨hlimit, Or.inl (by decide : 0 < 4)⟩

/-- A captured prefix is decoded within the buffer. -/
theorem hasRoom_pushTruncated
    (hroom : decoder.buffer.length + bytes.length ≤ decoder.config.maxBufferBytes) :
    HasRoom (decoder.pushTruncated codecs bytes).2 := by
  unfold pushTruncated
  rw [if_neg (by omega)]
  exact hasRoom_decodeFramePrefix ..

variable (codecs) in
/-- A chunk of at most `limit` bytes on a decoder that holds fewer: the buffer is never too
large, and a success leaves fewer again. -/
theorem Holds.pushBoundedPrefix (h : decoder.Holds limit) (hlimit : 16 ≤ limit)
    (hroom : 2 * limit ≤ decoder.config.maxBufferBytes) (hbytes : bytes.length ≤ limit) :
    HasRoom (decoder.pushBoundedPrefix codecs bytes limit).2 ∧
      ∀ messages, (decoder.pushBoundedPrefix codecs bytes limit).2 = .ok messages →
        (decoder.pushBoundedPrefix codecs bytes limit).1.config = decoder.config ∧
          (decoder.pushBoundedPrefix codecs bytes limit).1.Holds limit := by
  have hshort := h.short
  unfold StreamDecoder.pushBoundedPrefix
  rw [if_neg (by omega)]
  by_cases hfour : (decoder.buffer ++ bytes).length < 4
  · -- the length prefix is not complete
    rw [List.length_append] at hfour
    have hnext : decoder.nextFrameLength bytes = .ok none := by
      unfold nextFrameLength
      dsimp only
      rw [if_pos (by omega)]
    rw [hnext]
    exact push_spec (by omega) h.oneFrame (Or.inl (by omega))
  · obtain ⟨declared, hread⟩ := exists_readI32 (decoder.buffer ++ bytes) 0 (by omega)
    rw [nextFrameLength_eq hread]
    by_cases hsixteen : declared < 16
    · rw [if_pos hsixteen]
      exact ⟨⟨by simp⟩, fun messages hok => nomatch hok⟩
    · rw [if_neg hsixteen]
      by_cases hmax : decoder.config.maxMessageBytes < declared.toNat
      · rw [if_pos hmax]
        exact ⟨⟨by simp⟩, fun messages hok => nomatch hok⟩
      · rw [if_neg hmax]
        dsimp only
        split
        · next hpush =>
          refine push_spec (by omega) h.oneFrame ?_
          rcases hpush with hframe | hfew
          · exact Or.inr ⟨declared, hread, by omega, hframe, hbytes⟩
          · exact Or.inl hfew
        · -- the first `limit` bytes of a longer frame are complete
          have htaken : decoder.buffer.length +
              (bytes.take (limit - decoder.buffer.length)).length ≤
                decoder.config.maxBufferBytes := by
            rw [List.length_take]
            omega
          refine ⟨(hasRoom_pushTruncated htaken).map _, fun messages _ => ?_⟩
          unfold pushTruncated
          rw [if_neg (by omega)]
          exact ⟨rfl, holds_clear (by omega) decoder⟩

end StreamDecoder

end MongoDam.Protocol
