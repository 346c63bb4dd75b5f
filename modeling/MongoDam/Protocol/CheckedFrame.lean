import MongoDam.Protocol.CheckedSummary
import MongoDam.Protocol.Frame

/-!
# Decoding frames, with panics

The decoders of frames with their index, slice and overflow checks. A frame that is
decoded has the length its header declares, so it is shorter than `2 ^ 31` bytes
whatever the caller passes, and so is what a compressed frame decompresses to.
-/

namespace MongoDam.Protocol

open Lib Outcome

namespace Checked

/-! ### `OP_MSG` -/

/-- The end of a section or of its document, by its own length prefix. -/
def sectionEnd (payload : Bytes) (stop offset : ℕ) : Outcome DecodeError ℕ := do
  let length ← readI32 payload offset
  if length < 5 then fail .invalidBson
  else
    let last ← okOr .invalidBson (checkedAdd offset (asUsize length))
    if stop < last then fail .invalidBson else return last

def pushSequence (fuel : ℕ) (identifier : String) (documents : Bytes)
    (sequences : List (String × List JsonValue)) :
    Outcome DecodeError (List (String × List JsonValue)) := do
  match ← ok (bsonDocumentSequenceToJson fuel documents) with
  | some values => return sequences ++ [(identifier, values)]
  | none => return sequences

/-- A round of the section loop of `decodeOpMsg`. -/
def opMsgSectionsRound (fuel : ℕ) (payload : Bytes) (stop : ℕ) (state : ℕ × OpMsgSections) :
    Outcome DecodeError ((ℕ × OpMsgSections) ⊕ OpMsgSections) := do
  let (offset, sections) := state
  if offset < stop then
    let kind ← index payload offset
    let offset ← add offset 1
    match kind with
    | 0 =>
      let documentEnd ← sectionEnd payload stop offset
      match sections.summary with
      | some _ => return .inl (documentEnd, sections)
      | none =>
        let summary ← summarizeBson fuel (← slice payload offset documentEnd)
        return .inl (documentEnd, { sections with summary := some summary })
    | 1 =>
      let last ← sectionEnd payload stop offset
      let (identifier, documentsStart) ← readCstring payload (← add offset 4)
      if last < documentsStart then fail .invalidBson
      else if identifier = "deletes" then
        let deletes ←
          summarizeDeleteDocumentSequence fuel (← getRange payload documentsStart last)
        let documents ← getRange payload documentsStart last
        let documentSequences ←
          pushSequence fuel identifier documents sections.documentSequences
        return .inl (last, { sections with deleteSequence := some deletes, documentSequences })
      else
        let documents ← getRange payload documentsStart last
        let documentSequences ←
          pushSequence fuel identifier documents sections.documentSequences
        return .inl (last, { sections with documentSequences })
    | other => fail (.unsupportedSection other)
  else return .inr sections

def decodeOpMsg (fuel : ℕ) (requestId responseTo : ℤ) (wireBytes : ℕ) (payload : Bytes)
    (compressed : Bool) : Outcome DecodeError DecodedMessage := do
  if payload.length < 5 then fail .truncated
  else
    let flags ← readU32 payload 0
    let checksumBytes := if flags % 2 = 1 then 4 else 0
    if payload.length < (← add 4 checksumBytes) then fail .truncated
    else
      let stop ← sub payload.length checksumBytes
      let sections ← loop (opMsgSectionsRound fuel payload stop) fuel (4, {})
      returned (sections.message requestId responseTo wireBytes flags compressed)

def decodeOpMsgPrefix (fuel : ℕ) (requestId responseTo : ℤ) (declared : ℕ) (payload : Bytes) :
    Outcome DecodeError DecodedMessage := do
  if payload.length < 6 then fail .truncated
  else
    let flags ← readU32 payload 0
    let kind ← index payload 4
    if kind ≠ 0 then fail (.unsupportedSection kind)
    else
      let summary ← summarizeBsonPrefix fuel (← slice payload 5 payload.length)
      return opMsgMessage requestId responseTo declared flags false summary

/-! ### Legacy opcodes -/

def legacyDocument (payload : Bytes) (offset : ℕ) : Outcome DecodeError Bytes := do
  let documentLength ← readI32 payload offset
  if documentLength < 5 then fail .invalidBson
  else
    let documentEnd ← okOr .invalidBson (checkedAdd offset (asUsize documentLength))
    if payload.length < documentEnd then fail .invalidBson
    else slice payload offset documentEnd

def decodeOpQuery (fuel : ℕ) (requestId responseTo : ℤ) (wireBytes : ℕ) (payload : Bytes)
    (compressed : Bool) : Outcome DecodeError DecodedMessage := do
  if payload.length < 13 then fail .truncated
  else
    let flags ← readU32 payload 0
    let (name, afterNamespace) ← readCstring payload 4
    let documentOffset ← okOr .invalidBson (checkedAdd afterNamespace 8)
    let document ← legacyDocument payload documentOffset
    let summary ← summarizeBson fuel document
    return decodedOpQuery requestId responseTo wireBytes flags name summary compressed

def decodeOpQueryPrefix (fuel : ℕ) (requestId responseTo : ℤ) (wireBytes : ℕ) (payload : Bytes) :
    Outcome DecodeError DecodedMessage := do
  if payload.length < 13 then fail .truncated
  else
    let flags ← readU32 payload 0
    let (name, afterNamespace) ← readCstring payload 4
    let documentOffset ← okOr .invalidBson (checkedAdd afterNamespace 8)
    let document ← okOr .truncated (sliceFrom? payload documentOffset)
    let summary ← summarizeBsonPrefix fuel document
    return decodedOpQuery requestId responseTo wireBytes flags name summary false

def decodeOpReply (fuel : ℕ) (requestId responseTo : ℤ) (wireBytes : ℕ) (payload : Bytes)
    (compressed : Bool) : Outcome DecodeError DecodedMessage := do
  if payload.length < 20 then fail .truncated
  else
    let flags ← readU32 payload 0
    let returned ← readI32 payload 16
    if 0 < returned ∧ 20 < payload.length then
      let document ← legacyDocument payload 20
      let summary ← summarizeBson fuel document
      return decodedOpReply requestId responseTo wireBytes flags (some summary) compressed
    else return decodedOpReply requestId responseTo wireBytes flags none compressed

def decodeOpReplyPrefix (fuel : ℕ) (requestId responseTo : ℤ) (wireBytes : ℕ) (payload : Bytes) :
    Outcome DecodeError DecodedMessage := do
  if payload.length < 20 then fail .truncated
  else
    let flags ← readU32 payload 0
    let returned ← readI32 payload 16
    if 0 < returned ∧ 20 < payload.length then
      let summary ← summarizeBsonPrefix fuel (← slice payload 20 payload.length)
      return decodedOpReply requestId responseTo wireBytes flags (some summary) false
    else return decodedOpReply requestId responseTo wireBytes flags none false

/-! ### Compressed frames -/

def decompress (codecs : Decompressors) (compressor : UInt8) (data : Bytes) (size : ℕ) :
    Outcome DecodeError Bytes :=
  match compressor with
  | 0 => return data
  | 1 => do
    let decodedSize ← returned ((codecs.snappyLength data).mapError .decompression)
    if decodedSize ≠ size then fail .invalidCompressed
    else returned ((codecs.snappy data).mapError .decompression)
  | 2 => do
    let limit ← add size 1
    returned ((codecs.zlib data limit).mapError .decompression)
  | 3 => do
    let limit ← add size 1
    returned ((codecs.zstd data limit).mapError .decompression)
  | other => fail (.unsupportedCompressor other)

def decodeCompressed (codecs : Decompressors) (fuel : ℕ) (requestId responseTo : ℤ)
    (wireBytes : ℕ) (payload : Bytes) (maxMessageBytes : ℕ) :
    Outcome DecodeError DecodedMessage := do
  if payload.length < 9 then fail .invalidCompressed
  else
    let originalOpcode ← readI32 payload 0
    let uncompressedSize ← readI32 payload 4
    if uncompressedSize < 0 ∨ maxMessageBytes - 16 < asUsize uncompressedSize then
      fail .frameTooLarge
    else
      let compressor ← index payload 8
      let compressed ← slice payload 9 payload.length
      let uncompressed ← decompress codecs compressor compressed (asUsize uncompressedSize)
      if uncompressed.length ≠ asUsize uncompressedSize then fail .invalidCompressed
      else if originalOpcode = OP_MSG then
        decodeOpMsg fuel requestId responseTo wireBytes uncompressed true
      else if originalOpcode = OP_QUERY then
        decodeOpQuery fuel requestId responseTo wireBytes uncompressed true
      else if originalOpcode = OP_REPLY then
        decodeOpReply fuel requestId responseTo wireBytes uncompressed true
      else fail (.unsupportedOpcode originalOpcode)

/-! ### Frames -/

def decodeFrame (codecs : Decompressors) (fuel : ℕ) (frame : Bytes) (maxMessageBytes : ℕ) :
    Outcome DecodeError DecodedMessage := do
  if frame.length < 16 then fail .truncated
  else
    let declared ← readI32 frame 0
    if declared < 16 ∨ asUsize declared ≠ frame.length then fail (.invalidFrameLength declared)
    else if maxMessageBytes < frame.length then fail .frameTooLarge
    else
      let requestId ← readI32 frame 4
      let responseTo ← readI32 frame 8
      let opcode ← readI32 frame 12
      let payload ← slice frame 16 frame.length
      if opcode = OP_MSG then decodeOpMsg fuel requestId responseTo frame.length payload false
      else if opcode = OP_QUERY then
        decodeOpQuery fuel requestId responseTo frame.length payload false
      else if opcode = OP_REPLY then
        decodeOpReply fuel requestId responseTo frame.length payload false
      else if opcode = OP_COMPRESSED then
        decodeCompressed codecs fuel requestId responseTo frame.length payload maxMessageBytes
      else fail (.unsupportedOpcode opcode)

def decodeFramePrefix (codecs : Decompressors) (fuel : ℕ) (captured : Bytes)
    (maxMessageBytes : ℕ) : Outcome DecodeError DecodedMessage := do
  if captured.length < 16 then fail .truncated
  else
    let declared ← readI32 captured 0
    if declared < 16 then fail (.invalidFrameLength declared)
    else if maxMessageBytes < asUsize declared then fail .frameTooLarge
    else if asUsize declared ≤ captured.length then
      decodeFrame codecs fuel (← slice captured 0 (asUsize declared)) maxMessageBytes
    else
      let requestId ← readI32 captured 4
      let responseTo ← readI32 captured 8
      let opcode ← readI32 captured 12
      if opcode = OP_COMPRESSED then fail .truncated
      else if opcode = OP_MSG then
        decodeOpMsgPrefix fuel requestId responseTo (asUsize declared)
          (← slice captured 16 captured.length)
      else if opcode = OP_QUERY then
        decodeOpQueryPrefix fuel requestId responseTo (asUsize declared)
          (← slice captured 16 captured.length)
      else if opcode = OP_REPLY then
        decodeOpReplyPrefix fuel requestId responseTo (asUsize declared)
          (← slice captured 16 captured.length)
      else fail (.unsupportedOpcode opcode)

end Checked

/-! ### `OP_MSG` -/

section OpMsg

variable {payload : Bytes} {stop offset : ℕ} {sections : OpMsgSections}

/-- The end of a section or of its document, by its own length prefix. -/
def sectionEnd (payload : Bytes) (stop offset : ℕ) : Except DecodeError ℕ := do
  let length ← readI32 payload offset
  if length < 5 then .error .invalidBson
  else if stop < offset + length.toNat then .error .invalidBson
  else return offset + length.toNat

theorem sectionEnd_returned (hoffset : offset < 2 ^ 32) :
    Checked.sectionEnd payload stop offset = returned (sectionEnd payload stop offset) := by
  refine bind_returned (readI32_returned hoffset) fun length h => ?_
  have hrange := readI32_range h
  split
  · rfl
  rw [asUsize_of_nonneg (by omega) (by omega), checkedAdd_eq (by omega), okOr_some,
    returned_ok_bind]
  split
  · rfl
  · rfl

theorem sectionEnd_lt {last : ℕ} (h : sectionEnd payload stop offset = .ok last) :
    offset + 5 ≤ last ∧ last ≤ stop := by
  unfold sectionEnd at h
  cases hlength : readI32 payload offset with
  | error e =>
    rw [hlength] at h
    cases h
  | ok length =>
    rw [hlength] at h
    dsimp only [bind, Except.bind] at h
    split at h
    · cases h
    · split at h
      · cases h
      · cases h
        omega

theorem pushSequence_returned {fuel : ℕ} {documents : Bytes}
    (hdocuments : documents.length < 2 ^ 31) (hfuel : documents.length < fuel)
    (identifier : String)
    (sequences : List (String × List JsonValue)) :
    Checked.pushSequence fuel identifier documents sequences =
      returned (.ok (pushSequence identifier documents sequences)) := by
  unfold Checked.pushSequence pushSequence
  rw [bsonDocumentSequenceToJson_returned hdocuments hfuel]
  cases bsonDocumentSequenceToJson documents with
  | error e => rfl
  | ok values => rfl

/-- A body section, and the sections behind it. -/
theorem opMsgSectionsLoop_kindZero (hoffset : offset < stop) (hkind : payload[offset]? = some 0) :
    opMsgSectionsLoop payload stop offset sections = (do
      let last ← sectionEnd payload stop (offset + 1)
      match sections.summary with
      | some _ => opMsgSectionsLoop payload stop last sections
      | none =>
        let document ← sliceBson payload (offset + 1) last
        let summary ← summarizeBson document
        opMsgSectionsLoop payload stop last { sections with summary := some summary }) := by
  rw [opMsgSectionsLoop, if_pos hoffset, hkind]
  unfold sectionEnd
  cases readI32 payload (offset + 1) with
  | error e => rfl
  | ok length =>
    by_cases hleast : length < 5
    · simp only [bind, Except.bind, if_pos hleast]
    by_cases hstop : stop < offset + 1 + length.toNat
    · simp only [bind, Except.bind, if_neg hleast, if_pos hstop]
    simp only [bind, Except.bind, if_neg hleast, if_neg hstop, pure, Except.pure]
    cases sections.summary with
    | some _ => rfl
    | none =>
      cases sliceBson payload (offset + 1) (offset + 1 + length.toNat) with
      | error e => rfl
      | ok document =>
        dsimp only
        cases summarizeBson document with
        | error e => rfl
        | ok summary => rfl

/-- A sequence section, and the sections behind it. -/
theorem opMsgSectionsLoop_kindOne (hoffset : offset < stop) (hkind : payload[offset]? = some 1) :
    opMsgSectionsLoop payload stop offset sections = (do
      let last ← sectionEnd payload stop (offset + 1)
      let (identifier, documentsStart) ← readCstring payload (offset + 1 + 4)
      if last < documentsStart then .error .invalidBson
      else if identifier = "deletes" then
        let documents ← sliceBson payload documentsStart last
        let deletes ← summarizeDeleteDocumentSequence documents
        opMsgSectionsLoop payload stop last
          { sections with
            deleteSequence := some deletes
            documentSequences := pushSequence identifier documents sections.documentSequences }
      else
        let documents ← sliceBson payload documentsStart last
        opMsgSectionsLoop payload stop last
          { sections with
            documentSequences :=
              pushSequence identifier documents sections.documentSequences }) := by
  rw [opMsgSectionsLoop, if_pos hoffset, hkind]
  unfold sectionEnd
  cases readI32 payload (offset + 1) with
  | error e => rfl
  | ok length =>
    by_cases hleast : length < 5
    · simp only [bind, Except.bind, if_pos hleast]
    by_cases hstop : stop < offset + 1 + length.toNat
    · simp only [bind, Except.bind, if_neg hleast, if_pos hstop]
    simp only [bind, Except.bind, if_neg hleast, if_neg hstop, pure, Except.pure]
    cases readCstring payload (offset + 1 + 4) with
    | error e => rfl
    | ok found =>
      obtain ⟨identifier, documentsStart⟩ := found
      dsimp only
      by_cases hbehind : offset + 1 + length.toNat < documentsStart
      · rw [if_pos hbehind, if_pos hbehind]
      rw [if_neg hbehind, if_neg hbehind]
      cases sliceBson payload documentsStart (offset + 1 + length.toNat) with
      | error e =>
        dsimp only
        split <;> rfl
      | ok documents =>
        dsimp only
        split
        · cases summarizeDeleteDocumentSequence documents with
          | error e => rfl
          | ok deletes => rfl
        · rfl

theorem opMsgSectionsRound_follows {fuel : ℕ} (hpayload : payload.length < 2 ^ 31)
    (hfuel : payload.length < fuel) (hstop : stop ≤ payload.length) (state : ℕ × OpMsgSections)
    (hstate : state.1 ≤ payload.length) :
    Follows (fun state => opMsgSectionsLoop payload stop state.1 state.2)
      (fun next => next.1 ≤ payload.length ∧ stop - next.1 < stop - state.1)
      (opMsgSectionsLoop payload stop state.1 state.2)
      (Checked.opMsgSectionsRound fuel payload stop state) := by
  obtain ⟨offset, sections⟩ := state
  unfold Checked.opMsgSectionsRound
  dsimp only at hstate ⊢
  by_cases hoffset : offset < stop
  · have hkind : payload[offset]? = some payload[offset] :=
      List.getElem?_eq_getElem (by omega)
    rw [if_pos hoffset, index_eq (by omega), returned_ok_bind, add_eq (by omega), returned_ok_bind]
    split
    · rename_i hzero
      rw [opMsgSectionsLoop_kindZero hoffset (hkind.trans (congrArg some hzero))]
      refine Follows.bind (sectionEnd_returned (by omega)) fun last hlast => ?_
      have hlt := sectionEnd_lt hlast
      cases sections.summary with
      | some _ => exact Follows.advance _ (by omega) hoffset (by omega)
      | none =>
        have hslice := sliceBson_eq_ok.mpr ⟨(by omega : offset + 1 ≤ last),
          (by omega : last ≤ payload.length), rfl⟩
        have hlength := sliceBson_length hslice
        rw [slice_eq (by omega) (by omega), returned_ok_bind, hslice]
        refine Follows.bind (summarizeBson_returned (by omega) (by omega)) fun summary _ => ?_
        exact Follows.advance _ (by omega) hoffset (by omega)
    · rename_i hone
      rw [opMsgSectionsLoop_kindOne hoffset (hkind.trans (congrArg some hone))]
      refine Follows.bind (sectionEnd_returned (by omega)) fun last hlast => ?_
      have hlt := sectionEnd_lt hlast
      rw [add_eq (by omega), returned_ok_bind]
      refine Follows.bind (readCstring_returned hpayload) ?_
      rintro ⟨identifier, documentsStart⟩ -
      dsimp only
      by_cases hbehind : last < documentsStart
      · rw [if_pos hbehind, if_pos hbehind]
        rfl
      rw [if_neg hbehind, if_neg hbehind]
      by_cases hdeletes : identifier = "deletes"
      · rw [if_pos hdeletes, if_pos hdeletes]
        refine Follows.bind getRange_returned fun documents hslice => ?_
        have hlength := sliceBson_length_le hslice
        refine Follows.bind (summarizeDeleteDocumentSequence_returned (by omega) (by omega))
          fun deletes _ => ?_
        rw [getRange_returned, hslice, returned_ok_bind,
          pushSequence_returned (by omega) (by omega), returned_ok_bind]
        exact Follows.advance _ (by omega) hoffset (by omega)
      · rw [if_neg hdeletes, if_neg hdeletes]
        refine Follows.bind getRange_returned fun documents hslice => ?_
        have hlength := sliceBson_length_le hslice
        rw [pushSequence_returned (by omega) (by omega), returned_ok_bind]
        exact Follows.advance _ (by omega) hoffset (by omega)
    · rename_i hzero hone
      rw [opMsgSectionsLoop, if_pos hoffset, hkind]
      split
      · contradiction
      · rename_i h
        exact absurd (Option.some.inj h) hzero
      · rename_i h
        exact absurd (Option.some.inj h) hone
      · rename_i h
        cases h
        rfl
  · rw [if_neg hoffset, opMsgSectionsLoop, if_neg hoffset]
    rfl

theorem decodeOpMsg_returned {fuel : ℕ} (hpayload : payload.length < 2 ^ 31)
    (hfuel : payload.length < fuel) (requestId responseTo : ℤ) (wireBytes : ℕ)
    (compressed : Bool) :
    Checked.decodeOpMsg fuel requestId responseTo wireBytes payload compressed =
      returned (decodeOpMsg requestId responseTo wireBytes payload compressed) := by
  unfold Checked.decodeOpMsg decodeOpMsg
  by_cases hlength : payload.length < 5
  · rw [if_pos hlength, if_pos hlength]
    rfl
  rw [if_neg hlength, if_neg hlength]
  refine bind_eq_returned (readU32_returned (by decide)) (fun e h => by rw [h]) fun flags h => ?_
  rw [h]
  dsimp only
  have hchecksum : (if flags % 2 = 1 then 4 else 0) ≤ 4 := by split <;> decide
  rw [add_eq (by omega), returned_ok_bind]
  by_cases hshort : payload.length < 4 + (if flags % 2 = 1 then 4 else 0)
  · rw [if_pos hshort, if_pos hshort]
    rfl
  rw [if_neg hshort, if_neg hshort, sub_eq (by omega), returned_ok_bind,
    loop_returned (opMsgSectionsRound_follows hpayload hfuel (Nat.sub_le ..))
      (by dsimp only; omega) (by dsimp only; omega)]
  unfold sectionsEnd
  dsimp only
  cases opMsgSectionsLoop payload (payload.length - if flags % 2 = 1 then 4 else 0) 4 {} with
  | error e => rfl
  | ok sections => rfl

theorem decodeOpMsgPrefix_returned {fuel : ℕ} (hpayload : payload.length < 2 ^ 31)
    (hfuel : payload.length < fuel) (requestId responseTo : ℤ) (declared : ℕ) :
    Checked.decodeOpMsgPrefix fuel requestId responseTo declared payload =
      returned (decodeOpMsgPrefix requestId responseTo declared payload) := by
  unfold Checked.decodeOpMsgPrefix decodeOpMsgPrefix
  by_cases hlength : payload.length < 6
  · rw [if_pos hlength, if_pos hlength]
    rfl
  rw [if_neg hlength, if_neg hlength, readU32_returned (by decide),
    List.getElem?_eq_getElem (by omega : 4 < payload.length)]
  cases readU32 payload 0 with
  | error e => rfl
  | ok flags =>
    rw [returned_ok_bind, index_eq (by omega), returned_ok_bind, slice_length_eq (by omega)]
    dsimp only
    split
    · rfl
    · have hdrop : (payload.drop 5).length ≤ payload.length := by
        rw [List.length_drop]
        omega
      rw [returned_ok_bind, summarizeBsonPrefix_returned (by omega) (by omega)]
      cases summarizeBsonPrefix (payload.drop 5) with
      | error e => rfl
      | ok summary => rfl

end OpMsg

/-! ### Legacy opcodes -/

section Legacy

variable {payload : Bytes} {fuel : ℕ}

theorem legacyDocument_returned {offset : ℕ} (hoffset : offset < 2 ^ 32) :
    Checked.legacyDocument payload offset = returned (legacyDocument payload offset) := by
  unfold legacyDocument
  refine bind_eq_returned (readI32_returned hoffset) (fun e h => by rw [h]) fun length h => ?_
  have hrange := readI32_range h
  rw [h]
  dsimp only
  split
  · rfl
  rw [asUsize_of_nonneg (by omega) (by omega), checkedAdd_eq (by omega), okOr_some,
    returned_ok_bind]
  by_cases hstop : offset + length.toNat ≤ payload.length
  · rw [if_neg (Nat.not_lt_of_le hstop), slice_eq (by omega) hstop,
      sliceBson_eq_ok.mpr ⟨by omega, hstop, rfl⟩]
  · rw [if_pos (Nat.lt_of_not_le hstop), sliceBson, slice?_eq_none (Nat.lt_of_not_le hstop)]
    rfl

theorem legacyDocument_length_le {offset : ℕ} {document : Bytes}
    (h : legacyDocument payload offset = .ok document) : document.length ≤ payload.length := by
  unfold legacyDocument at h
  split at h
  · cases h
  split at h
  · cases h
  have hlength := sliceBson_length_le h
  omega

theorem decodeOpQuery_returned (hpayload : payload.length < 2 ^ 31) (hfuel : payload.length < fuel)
    (requestId responseTo : ℤ) (wireBytes : ℕ) (compressed : Bool) :
    Checked.decodeOpQuery fuel requestId responseTo wireBytes payload compressed =
      returned (decodeOpQuery requestId responseTo wireBytes payload compressed) := by
  unfold Checked.decodeOpQuery decodeOpQuery
  split
  · rfl
  refine bind_returned (readU32_returned (by decide)) fun flags _ => ?_
  refine bind_returned (readCstring_returned hpayload) ?_
  rintro ⟨name, afterNamespace⟩ hname
  have hafter := readCstring_lt hname
  dsimp only
  rw [checkedAdd_eq (by omega), okOr_some, returned_ok_bind]
  refine bind_returned (legacyDocument_returned (by omega)) fun document hdocument => ?_
  have hlength := legacyDocument_length_le hdocument
  exact bind_returned (summarizeBson_returned (by omega) (by omega)) fun summary _ => rfl

theorem decodeOpQueryPrefix_returned (hpayload : payload.length < 2 ^ 31)
    (hfuel : payload.length < fuel) (requestId responseTo : ℤ) (wireBytes : ℕ) :
    Checked.decodeOpQueryPrefix fuel requestId responseTo wireBytes payload =
      returned (decodeOpQueryPrefix requestId responseTo wireBytes payload) := by
  unfold Checked.decodeOpQueryPrefix decodeOpQueryPrefix
  split
  · rfl
  refine bind_returned (readU32_returned (by decide)) fun flags _ => ?_
  refine bind_returned (readCstring_returned hpayload) ?_
  rintro ⟨name, afterNamespace⟩ hname
  have hafter := readCstring_lt hname
  dsimp only
  rw [checkedAdd_eq (by omega), okOr_some, returned_ok_bind]
  unfold sliceFrom?
  split
  · have hlength : (payload.drop (afterNamespace + 8)).length ≤ payload.length := by
      rw [List.length_drop]
      omega
    exact bind_returned (summarizeBsonPrefix_returned (by omega) (by omega)) fun summary _ => rfl
  · rfl

theorem decodeOpReply_returned (hpayload : payload.length < 2 ^ 31) (hfuel : payload.length < fuel)
    (requestId responseTo : ℤ) (wireBytes : ℕ) (compressed : Bool) :
    Checked.decodeOpReply fuel requestId responseTo wireBytes payload compressed =
      returned (decodeOpReply requestId responseTo wireBytes payload compressed) := by
  unfold Checked.decodeOpReply decodeOpReply
  split
  · rfl
  refine bind_returned (readU32_returned (by decide)) fun flags _ => ?_
  refine bind_returned (readI32_returned (by decide)) fun count _ => ?_
  split
  · rw [legacyDocument_returned (by decide)]
    cases hdocument : legacyDocument payload 20 with
    | error e => rfl
    | ok document =>
      have hlength := legacyDocument_length_le hdocument
      rw [returned_ok_bind, summarizeBson_returned (by omega) (by omega)]
      simp only [bind, Except.bind]
      cases summarizeBson document with
      | error e => rfl
      | ok summary => rfl
  · rfl

theorem decodeOpReplyPrefix_returned (hpayload : payload.length < 2 ^ 31)
    (hfuel : payload.length < fuel) (requestId responseTo : ℤ) (wireBytes : ℕ) :
    Checked.decodeOpReplyPrefix fuel requestId responseTo wireBytes payload =
      returned (decodeOpReplyPrefix requestId responseTo wireBytes payload) := by
  unfold Checked.decodeOpReplyPrefix decodeOpReplyPrefix
  split
  · rfl
  refine bind_returned (readU32_returned (by decide)) fun flags _ => ?_
  refine bind_returned (readI32_returned (by decide)) fun count _ => ?_
  split
  · have hlength : (payload.drop 20).length ≤ payload.length := by
      rw [List.length_drop]
      omega
    rw [slice_length_eq (by omega), returned_ok_bind,
      summarizeBsonPrefix_returned (by omega) (by omega)]
    cases summarizeBsonPrefix (payload.drop 20) with
    | error e => rfl
    | ok summary => rfl
  · rfl

end Legacy

/-! ### Frames -/

section Frames

variable {codecs : Decompressors} {fuel : ℕ}

theorem decompress_returned {size : ℕ} (hsize : size < 2 ^ 31) (compressor : UInt8)
    (data : Bytes) :
    Checked.decompress codecs compressor data size =
      returned (decompress codecs compressor data size) := by
  unfold decompress
  split
  · rfl
  · change (returned ((codecs.snappyLength data).mapError DecodeError.decompression) >>= _) = _
    cases codecs.snappyLength data with
    | error reason => rfl
    | ok decodedSize =>
      dsimp only
      split
      · rename_i hother
        exact if_pos hother
      · rename_i hsame
        exact if_neg hsame
  · exact bind_ok (add_eq (by omega)) rfl
  · exact bind_ok (add_eq (by omega)) rfl
  · unfold Checked.decompress
    split
    all_goals first | rfl | contradiction

theorem decodeCompressed_returned {payload : Bytes} (hpayload : payload.length < 2 ^ 31)
    (hfuel : 2 ^ 31 ≤ fuel) (requestId responseTo : ℤ) (wireBytes maxMessageBytes : ℕ) :
    Checked.decodeCompressed codecs fuel requestId responseTo wireBytes payload maxMessageBytes =
      returned
        (decodeCompressed codecs requestId responseTo wireBytes payload maxMessageBytes) := by
  unfold Checked.decodeCompressed decodeCompressed
  split
  · rfl
  refine bind_returned (readI32_returned (by decide)) fun originalOpcode _ => ?_
  refine bind_returned (readI32_returned (by decide)) fun uncompressedSize hsize => ?_
  have hrange := readI32_range hsize
  by_cases hnegative : uncompressedSize < 0
  · rw [if_pos (Or.inl hnegative), if_pos (Or.inl hnegative)]
    rfl
  rw [asUsize_of_nonneg (by omega) (by omega)]
  split
  · rfl
  rw [index_eq (by omega), returned_ok_bind, slice_length_eq (by omega), returned_ok_bind,
    List.getElem_eq_getD 0]
  refine bind_returned (decompress_returned (by omega) _ _) fun uncompressed _ => ?_
  split
  · rfl
  split
  · exact decodeOpMsg_returned (by omega) (by omega) ..
  split
  · exact decodeOpQuery_returned (by omega) (by omega) ..
  split
  · exact decodeOpReply_returned (by omega) (by omega) ..
  · rfl

theorem decodeFrame_returned (hfuel : 2 ^ 31 ≤ fuel) (frame : Bytes) (maxMessageBytes : ℕ) :
    Checked.decodeFrame codecs fuel frame maxMessageBytes =
      returned (decodeFrame codecs frame maxMessageBytes) := by
  unfold Checked.decodeFrame decodeFrame
  split
  · rfl
  refine bind_returned (readI32_returned (by decide)) fun declared hdeclared => ?_
  have hrange := readI32_range hdeclared
  by_cases hinvalid : declared < 16 ∨ declared ≠ frame.length
  · have hchecked : declared < 16 ∨ asUsize declared ≠ frame.length := by
      unfold asUsize
      omega
    rw [if_pos hinvalid, if_pos hchecked]
    rfl
  have hchecked : ¬(declared < 16 ∨ asUsize declared ≠ frame.length) := by
    unfold asUsize
    omega
  rw [if_neg hinvalid, if_neg hchecked]
  split
  · rfl
  refine bind_returned (readI32_returned (by decide)) fun requestId _ => ?_
  refine bind_returned (readI32_returned (by decide)) fun responseTo _ => ?_
  refine bind_returned (readI32_returned (by decide)) fun opcode _ => ?_
  have hpayload : (frame.drop 16).length < 2 ^ 31 := by
    rw [List.length_drop]
    omega
  rw [slice_length_eq (by omega), returned_ok_bind]
  split
  · exact decodeOpMsg_returned hpayload (by omega) ..
  split
  · exact decodeOpQuery_returned hpayload (by omega) ..
  split
  · exact decodeOpReply_returned hpayload (by omega) ..
  split
  · exact decodeCompressed_returned hpayload hfuel ..
  · rfl

theorem decodeFramePrefix_returned (hfuel : 2 ^ 31 ≤ fuel) (captured : Bytes)
    (maxMessageBytes : ℕ) :
    Checked.decodeFramePrefix codecs fuel captured maxMessageBytes =
      returned (decodeFramePrefix codecs captured maxMessageBytes) := by
  unfold Checked.decodeFramePrefix decodeFramePrefix
  split
  · rfl
  refine bind_returned (readI32_returned (by decide)) fun declared hdeclared => ?_
  have hrange := readI32_range hdeclared
  split
  · rfl
  rw [asUsize_of_nonneg (by omega) (by omega)]
  split
  · rfl
  split
  · rw [slice_zero_eq (by omega), returned_ok_bind]
    exact decodeFrame_returned hfuel _ maxMessageBytes
  refine bind_returned (readI32_returned (by decide)) fun requestId _ => ?_
  refine bind_returned (readI32_returned (by decide)) fun responseTo _ => ?_
  refine bind_returned (readI32_returned (by decide)) fun opcode _ => ?_
  have hpayload : (captured.drop 16).length < 2 ^ 31 := by
    rw [List.length_drop]
    omega
  rw [slice_length_eq (by omega), returned_ok_bind, returned_ok_bind, returned_ok_bind]
  split
  · rfl
  split
  · exact decodeOpMsgPrefix_returned hpayload (by omega) ..
  split
  · exact decodeOpQueryPrefix_returned hpayload (by omega) ..
  split
  · exact decodeOpReplyPrefix_returned hpayload (by omega) ..
  · rfl

end Frames

end MongoDam.Protocol
