import MongoDam.Protocol.Summary

/-!
# Decoding one frame

`decodeFrame` decodes a whole frame; `decodeFramePrefix` decodes the beginning of
a frame that was captured only in part. Both read the sixteen-byte header and
dispatch on the opcode. A compressed frame is decompressed by the libraries the
decoder is given and dispatched on its original opcode.
-/

namespace MongoDam.Protocol

open Lib

/-- The status of a response summary. -/
def statusFromSummary (summary : BsonSummary) : ResponseStatus where
  ok := summary.ok
  code := summary.code
  codeName := summary.codeName
  affectedCount := summary.affectedCount
  authDone := summary.authDone

/-- A message with the command of a request or the status of a response. -/
def opMsgMessage (requestId responseTo : ℤ) (wireBytes flags : ℕ) (compressed : Bool)
    (summary : BsonSummary) : DecodedMessage where
  requestId
  responseTo
  wireBytes := saturateU32 wireBytes
  flags
  moreToCome := flags / 2 % 2 = 1
  compressed
  command := if responseTo = 0 then commandFromSummary summary else none
  status := if responseTo ≠ 0 then some (statusFromSummary summary) else none

/-! ### `OP_MSG` -/

/-- What the section loop of `decodeOpMsg` has collected. -/
structure OpMsgSections where
  summary : Option BsonSummary := none
  deleteSequence : Option (Option DeleteScope × ℕ) := none
  documentSequences : List (String × List JsonValue) := []

/-- The JSON forms of a section's documents, when all of them convert. -/
def pushSequence (identifier : String) (documents : Bytes)
    (sequences : List (String × List JsonValue)) : List (String × List JsonValue) :=
  match bsonDocumentSequenceToJson documents with
  | .ok values => sequences ++ [(identifier, values)]
  | .error _ => sequences

/-- The section loop of `decodeOpMsg`. -/
def opMsgSectionsLoop (payload : Bytes) (stop offset : ℕ) (sections : OpMsgSections) :
    Except DecodeError OpMsgSections :=
  if offset < stop then
    match payload[offset]? with
    -- `stop` never passes the end of the payload
    | none => .error .truncated
    | some 0 =>
      match readI32 payload (offset + 1) with
      | .error e => .error e
      | .ok documentLength =>
        if documentLength < 5 then .error .invalidBson
        else if stop < offset + 1 + documentLength.toNat then .error .invalidBson
        else
          match sections.summary with
          | some _ => opMsgSectionsLoop payload stop (offset + 1 + documentLength.toNat) sections
          | none =>
            match sliceBson payload (offset + 1) (offset + 1 + documentLength.toNat) >>=
                summarizeBson with
            | .error e => .error e
            | .ok summary =>
              opMsgSectionsLoop payload stop (offset + 1 + documentLength.toNat)
                { sections with summary := some summary }
    | some 1 =>
      match readI32 payload (offset + 1) with
      | .error e => .error e
      | .ok sectionSize =>
        if sectionSize < 5 then .error .invalidBson
        else if stop < offset + 1 + sectionSize.toNat then .error .invalidBson
        else
          match readCstring payload (offset + 1 + 4) with
          | .error e => .error e
          | .ok (identifier, documentsStart) =>
            if offset + 1 + sectionSize.toNat < documentsStart then .error .invalidBson
            else
              match sliceBson payload documentsStart (offset + 1 + sectionSize.toNat) with
              | .error e => .error e
              | .ok documents =>
                if identifier = "deletes" then
                  match summarizeDeleteDocumentSequence documents with
                  | .error e => .error e
                  | .ok deletes =>
                    opMsgSectionsLoop payload stop (offset + 1 + sectionSize.toNat)
                      { sections with
                        deleteSequence := some deletes
                        documentSequences :=
                          pushSequence identifier documents sections.documentSequences }
                else
                  opMsgSectionsLoop payload stop (offset + 1 + sectionSize.toNat)
                    { sections with
                      documentSequences :=
                        pushSequence identifier documents sections.documentSequences }
    | some other => .error (.unsupportedSection other)
  else .ok sections
termination_by stop - offset

/-- A `deletes` document sequence overrides what the body says about deletes. -/
def overrideDeletes (deleteSequence : Option (Option DeleteScope × ℕ)) (summary : BsonSummary) :
    BsonSummary :=
  match deleteSequence with
  | some (scope, statements) =>
    { summary with deleteScope := scope, deleteStatements := some statements }
  | none => summary

/-- Insert the document sequences into the members of a command document. -/
def insertSequences (members : List (String × JsonValue))
    (sequences : List (String × List JsonValue)) : List (String × JsonValue) :=
  sequences.foldl (fun members entry => JsonValue.insertMember entry.1 (.array entry.2) members)
    members

/-- Merge the document sequences into the query of a captured command. -/
def mergeSequences (sequences : List (String × List JsonValue)) (summary : BsonSummary) :
    BsonSummary :=
  if capturesQuery summary then
    match summary.query with
    | some (.object members) =>
      { summary with query := some (.object (insertSequences members sequences)) }
    | _ => summary
  else summary

/-- The end of the sections: a checksum follows them when the first flag is set. -/
def sectionsEnd (flags length : ℕ) : ℕ := length - (if flags % 2 = 1 then 4 else 0)

/-- The message of the collected sections; one of them must be a body. -/
def OpMsgSections.message (sections : OpMsgSections) (requestId responseTo : ℤ)
    (wireBytes flags : ℕ) (compressed : Bool) : Except DecodeError DecodedMessage :=
  match sections.summary with
  | none => .error .invalidBson
  | some summary =>
    .ok (opMsgMessage requestId responseTo wireBytes flags compressed
      (mergeSequences sections.documentSequences (overrideDeletes sections.deleteSequence summary)))

def decodeOpMsg (requestId responseTo : ℤ) (wireBytes : ℕ) (payload : Bytes) (compressed : Bool) :
    Except DecodeError DecodedMessage :=
  if payload.length < 5 then .error .truncated
  else
    match readU32 payload 0 with
    | .error e => .error e
    | .ok flags =>
      if payload.length < 4 + (if flags % 2 = 1 then 4 else 0) then .error .truncated
      else
        match opMsgSectionsLoop payload (sectionsEnd flags payload.length) 4 {} with
        | .error e => .error e
        | .ok sections => sections.message requestId responseTo wireBytes flags compressed

def decodeOpMsgPrefix (requestId responseTo : ℤ) (declared : ℕ) (payload : Bytes) :
    Except DecodeError DecodedMessage :=
  if payload.length < 6 then .error .truncated
  else
    match readU32 payload 0, payload[4]? with
    | .error e, _ => .error e
    | .ok _, none => .error .truncated
    | .ok flags, some kind =>
      if kind ≠ 0 then .error (.unsupportedSection kind)
      else
        match summarizeBsonPrefix (payload.drop 5) with
        | .error e => .error e
        | .ok summary => .ok (opMsgMessage requestId responseTo declared flags false summary)

/-! ### Legacy opcodes -/

/-- Database, collection, and whether the namespace addresses commands. -/
def splitLegacyNamespace (name : String) : Option String × Option String × Bool :=
  match name.toList.splitOn '.' with
  | database :: first :: rest =>
    let collection := ['.'].intercalate (first :: rest)
    if collection = "$cmd".toList ∨ "$cmd.".toList <+: collection then
      (some (String.ofList database), none, true)
    else (some (String.ofList database), some (String.ofList collection), false)
  | _ => (none, none, false)

/-- The command of a legacy query. -/
def opQueryCommand (name : String) (summary : BsonSummary) : Option MongoCommand :=
  let (database, collection, isCommand) := splitLegacyNamespace name
  if isCommand then
    (commandFromSummary summary).map fun command =>
      { command with database := command.database.or database }
  else
    some
      { name := "find", database, collection, authMechanism := none, principal := none
        speculativeAuth := false, deleteScope := none, deleteStatements := none
        query := summary.query }

def decodedOpQuery (requestId responseTo : ℤ) (wireBytes flags : ℕ) (name : String)
    (summary : BsonSummary) (compressed : Bool) : DecodedMessage where
  requestId
  responseTo
  wireBytes := saturateU32 wireBytes
  flags
  moreToCome := false
  compressed
  command := if responseTo ≠ 0 then none else opQueryCommand name summary
  status := none

/-- The document of a legacy message, by its own length prefix. -/
def legacyDocument (payload : Bytes) (offset : ℕ) : Except DecodeError Bytes :=
  match readI32 payload offset with
  | .error e => .error e
  | .ok documentLength =>
    if documentLength < 5 then .error .invalidBson
    else sliceBson payload offset (offset + documentLength.toNat)

def decodeOpQuery (requestId responseTo : ℤ) (wireBytes : ℕ) (payload : Bytes)
    (compressed : Bool) : Except DecodeError DecodedMessage :=
  if payload.length < 13 then .error .truncated
  else do
    let flags ← readU32 payload 0
    let (name, afterNamespace) ← readCstring payload 4
    let document ← legacyDocument payload (afterNamespace + 8)
    let summary ← summarizeBson document
    return decodedOpQuery requestId responseTo wireBytes flags name summary compressed

def decodeOpQueryPrefix (requestId responseTo : ℤ) (wireBytes : ℕ) (payload : Bytes) :
    Except DecodeError DecodedMessage :=
  if payload.length < 13 then .error .truncated
  else do
    let flags ← readU32 payload 0
    let (name, afterNamespace) ← readCstring payload 4
    match sliceFrom? payload (afterNamespace + 8) with
    | none => .error .truncated
    | some document =>
      let summary ← summarizeBsonPrefix document
      return decodedOpQuery requestId responseTo wireBytes flags name summary false

def decodedOpReply (requestId responseTo : ℤ) (wireBytes flags : ℕ) (summary : Option BsonSummary)
    (compressed : Bool) : DecodedMessage where
  requestId
  responseTo
  wireBytes := saturateU32 wireBytes
  flags
  moreToCome := false
  compressed
  command := none
  status := some
    { ok := (summary.bind (·.ok)).or (some (flags % 4 = 0))
      code := summary.bind (·.code)
      codeName := summary.bind (·.codeName)
      affectedCount := summary.bind (·.affectedCount)
      authDone := summary.bind (·.authDone) }

def decodeOpReply (requestId responseTo : ℤ) (wireBytes : ℕ) (payload : Bytes)
    (compressed : Bool) : Except DecodeError DecodedMessage :=
  if payload.length < 20 then .error .truncated
  else do
    let flags ← readU32 payload 0
    let returned ← readI32 payload 16
    let summary ←
      if 0 < returned ∧ 20 < payload.length then
        (legacyDocument payload 20 >>= summarizeBson).map some
      else .ok none
    return decodedOpReply requestId responseTo wireBytes flags summary compressed

def decodeOpReplyPrefix (requestId responseTo : ℤ) (wireBytes : ℕ) (payload : Bytes) :
    Except DecodeError DecodedMessage :=
  if payload.length < 20 then .error .truncated
  else do
    let flags ← readU32 payload 0
    let returned ← readI32 payload 16
    let summary ←
      if 0 < returned ∧ 20 < payload.length then
        (summarizeBsonPrefix (payload.drop 20)).map some
      else .ok none
    return decodedOpReply requestId responseTo wireBytes flags summary false

/-! ### Compressed frames -/

/-- The decompressed payload. A library failure keeps its own message. -/
def decompress (codecs : Decompressors) (compressor : UInt8) (data : Bytes) (size : ℕ) :
    Except DecodeError Bytes :=
  match compressor with
  | 0 => .ok data
  | 1 =>
    match codecs.snappyLength data with
    | .error reason => .error (.decompression reason)
    | .ok decodedSize =>
      if decodedSize ≠ size then .error .invalidCompressed
      else (codecs.snappy data).mapError .decompression
  | 2 => (codecs.zlib data (size + 1)).mapError .decompression
  | 3 => (codecs.zstd data (size + 1)).mapError .decompression
  | other => .error (.unsupportedCompressor other)

def decodeCompressed (codecs : Decompressors) (requestId responseTo : ℤ) (wireBytes : ℕ)
    (payload : Bytes) (maxMessageBytes : ℕ) : Except DecodeError DecodedMessage :=
  if payload.length < 9 then .error .invalidCompressed
  else do
    let originalOpcode ← readI32 payload 0
    let uncompressedSize ← readI32 payload 4
    if uncompressedSize < 0 ∨ maxMessageBytes - 16 < uncompressedSize.toNat then
      .error .frameTooLarge
    else
      let uncompressed ←
        decompress codecs (payload.getD 8 0) (payload.drop 9) uncompressedSize.toNat
      if uncompressed.length ≠ uncompressedSize.toNat then .error .invalidCompressed
      else if originalOpcode = OP_MSG then
        decodeOpMsg requestId responseTo wireBytes uncompressed true
      else if originalOpcode = OP_QUERY then
        decodeOpQuery requestId responseTo wireBytes uncompressed true
      else if originalOpcode = OP_REPLY then
        decodeOpReply requestId responseTo wireBytes uncompressed true
      else .error (.unsupportedOpcode originalOpcode)

/-! ### Frames -/

def decodeFrame (codecs : Decompressors) (frame : Bytes) (maxMessageBytes : ℕ) :
    Except DecodeError DecodedMessage :=
  if frame.length < 16 then .error .truncated
  else do
    let declared ← readI32 frame 0
    if declared < 16 ∨ declared ≠ frame.length then .error (.invalidFrameLength declared)
    else if maxMessageBytes < frame.length then .error .frameTooLarge
    else
      let requestId ← readI32 frame 4
      let responseTo ← readI32 frame 8
      let opcode ← readI32 frame 12
      if opcode = OP_MSG then
        decodeOpMsg requestId responseTo frame.length (frame.drop 16) false
      else if opcode = OP_QUERY then
        decodeOpQuery requestId responseTo frame.length (frame.drop 16) false
      else if opcode = OP_REPLY then
        decodeOpReply requestId responseTo frame.length (frame.drop 16) false
      else if opcode = OP_COMPRESSED then
        decodeCompressed codecs requestId responseTo frame.length (frame.drop 16) maxMessageBytes
      else .error (.unsupportedOpcode opcode)

def decodeFramePrefix (codecs : Decompressors) (captured : Bytes) (maxMessageBytes : ℕ) :
    Except DecodeError DecodedMessage :=
  if captured.length < 16 then .error .truncated
  else do
    let declared ← readI32 captured 0
    if declared < 16 then .error (.invalidFrameLength declared)
    else if maxMessageBytes < declared.toNat then .error .frameTooLarge
    else if declared.toNat ≤ captured.length then
      decodeFrame codecs (captured.take declared.toNat) maxMessageBytes
    else
      let requestId ← readI32 captured 4
      let responseTo ← readI32 captured 8
      let opcode ← readI32 captured 12
      if opcode = OP_COMPRESSED then .error .truncated
      else if opcode = OP_MSG then
        decodeOpMsgPrefix requestId responseTo declared.toNat (captured.drop 16)
      else if opcode = OP_QUERY then
        decodeOpQueryPrefix requestId responseTo declared.toNat (captured.drop 16)
      else if opcode = OP_REPLY then
        decodeOpReplyPrefix requestId responseTo declared.toNat (captured.drop 16)
      else .error (.unsupportedOpcode opcode)

/-! ### Frames of the current opcode -/

/-- A decoded frame has the length it declares, within the limit. -/
theorem decodeFrame_length {codecs : Decompressors} {frame : Bytes} {maxMessageBytes : ℕ}
    {message : DecodedMessage} (h : decodeFrame codecs frame maxMessageBytes = .ok message) :
    16 ≤ frame.length ∧ readI32 frame 0 = .ok (frame.length : ℤ) ∧
      frame.length ≤ maxMessageBytes := by
  unfold decodeFrame at h
  split at h
  · cases h
  · cases hdeclared : readI32 frame 0 with
    | error e =>
      rw [hdeclared] at h
      cases h
    | ok declared =>
      rw [hdeclared] at h
      dsimp only [bind, Except.bind] at h
      split at h
      · cases h
      · split at h
        · cases h
        · exact ⟨by omega, congrArg Except.ok (by omega), by omega⟩

/-- A frame that is wholly captured is decoded as a whole. -/
theorem decodeFramePrefix_whole {codecs : Decompressors} {frame : Bytes} {maxMessageBytes : ℕ}
    (hlength : 16 ≤ frame.length) (hdeclared : readI32 frame 0 = .ok (frame.length : ℤ)) :
    decodeFramePrefix codecs frame maxMessageBytes = decodeFrame codecs frame maxMessageBytes := by
  unfold decodeFramePrefix
  rw [if_neg (by omega), hdeclared]
  dsimp only [bind, Except.bind]
  rw [if_neg (by omega), Int.toNat_natCast, if_pos (Nat.le_refl _), List.take_length]
  split
  · rename_i hlimit
    unfold decodeFrame
    rw [if_neg (by omega), hdeclared]
    dsimp only [bind, Except.bind]
    rw [if_neg (by omega), if_pos hlimit]
  · rfl

theorem decodeFrame_opMsg {codecs : Decompressors} {frame : Bytes} {maxMessageBytes : ℕ}
    {requestId responseTo : ℤ} (hlength : 16 ≤ frame.length)
    (hdeclared : readI32 frame 0 = .ok (frame.length : ℤ))
    (hrequest : readI32 frame 4 = .ok requestId)
    (hresponse : readI32 frame 8 = .ok responseTo) (hopcode : readI32 frame 12 = .ok OP_MSG) :
    decodeFrame codecs frame maxMessageBytes =
      if maxMessageBytes < frame.length then .error .frameTooLarge
      else decodeOpMsg requestId responseTo frame.length (frame.drop 16) false := by
  unfold decodeFrame
  rw [if_neg (by omega), hdeclared, hrequest, hresponse, hopcode]
  dsimp only [bind, Except.bind]
  rw [if_neg (by omega), if_pos rfl]

theorem decodeFramePrefix_opMsg {codecs : Decompressors} {captured : Bytes} {maxMessageBytes : ℕ}
    {declared : ℕ} {requestId responseTo : ℤ} (hlength : 16 ≤ captured.length)
    (hdeclared : readI32 captured 0 = .ok (declared : ℤ)) (hcut : captured.length < declared)
    (hrequest : readI32 captured 4 = .ok requestId)
    (hresponse : readI32 captured 8 = .ok responseTo) (hopcode : readI32 captured 12 = .ok OP_MSG) :
    decodeFramePrefix codecs captured maxMessageBytes =
      if maxMessageBytes < declared then .error .frameTooLarge
      else decodeOpMsgPrefix requestId responseTo declared (captured.drop 16) := by
  unfold decodeFramePrefix
  rw [if_neg (by omega), hdeclared, hrequest, hresponse, hopcode]
  dsimp only [bind, Except.bind]
  rw [if_neg (by omega), Int.toNat_natCast, if_neg (by omega : ¬declared ≤ captured.length),
    if_neg (by decide : OP_MSG ≠ OP_COMPRESSED), if_pos rfl]

/-! ### Wire lengths -/

section WireLengths

variable {requestId responseTo : ℤ} {wireBytes : ℕ} {payload : Bytes} {compressed : Bool}
  {message : DecodedMessage}

private theorem decodeOpMsg_wireBytes
    (h : decodeOpMsg requestId responseTo wireBytes payload compressed = .ok message) :
    message.wireBytes = saturateU32 wireBytes := by
  unfold decodeOpMsg at h
  split at h
  · cases h
  cases hflags : readU32 payload 0 with
  | error e =>
    rw [hflags] at h
    cases h
  | ok flags =>
    rw [hflags] at h
    dsimp only at h
    by_cases hshort : payload.length < 4 + (if flags % 2 = 1 then 4 else 0)
    · rw [if_pos hshort] at h
      cases h
    · rw [if_neg hshort] at h
      split at h
      · cases h
      · unfold OpMsgSections.message at h
        split at h
        · cases h
        · cases h
          rfl

private theorem decodeOpMsgPrefix_wireBytes
    (h : decodeOpMsgPrefix requestId responseTo wireBytes payload = .ok message) :
    message.wireBytes = saturateU32 wireBytes := by
  unfold decodeOpMsgPrefix at h
  split at h
  · cases h
  split at h
  · cases h
  · cases h
  split at h
  · cases h
  split at h
  · cases h
  · cases h
    rfl

/-- A word that is read as a length is less than `2 ^ 31`. -/
private theorem saturateU32_of_readI32 {bytes : Bytes} {offset length : ℕ}
    (h : readI32 bytes offset = .ok (length : ℤ)) : saturateU32 length = length := by
  unfold readI32 readWord at h
  split at h
  · rename_i word hword
    have hsigned : signed32 (leNat word) = length := Except.ok.inj h
    have hlt := leNat_lt word
    rw [slice?_length hword, Nat.add_sub_cancel_left] at hlt
    unfold signed32 at hsigned
    unfold saturateU32
    split at hsigned
    · omega
    · omega
  · cases h

/-- A computation whose last step gives a message of the length. -/
private theorem bind_wireBytes {α : Type} {x : Except DecodeError α}
    {f : α → Except DecodeError DecodedMessage} (h : x >>= f = .ok message)
    (hf : ∀ value, f value = .ok message → message.wireBytes = saturateU32 wireBytes) :
    message.wireBytes = saturateU32 wireBytes := by
  cases x with
  | error e => cases h
  | ok value => exact hf value h

private theorem decodeOpQuery_wireBytes
    (h : decodeOpQuery requestId responseTo wireBytes payload compressed = .ok message) :
    message.wireBytes = saturateU32 wireBytes := by
  unfold decodeOpQuery at h
  split at h
  · cases h
  refine bind_wireBytes h fun flags h => bind_wireBytes h fun name h => ?_
  refine bind_wireBytes h fun document h => bind_wireBytes h fun summary h => ?_
  cases h
  rfl

private theorem decodeOpQueryPrefix_wireBytes
    (h : decodeOpQueryPrefix requestId responseTo wireBytes payload = .ok message) :
    message.wireBytes = saturateU32 wireBytes := by
  unfold decodeOpQueryPrefix at h
  split at h
  · cases h
  refine bind_wireBytes h fun flags h => bind_wireBytes h fun name h => ?_
  dsimp only at h
  split at h
  · cases h
  · refine bind_wireBytes h fun summary h => ?_
    cases h
    rfl

private theorem decodeOpReply_wireBytes
    (h : decodeOpReply requestId responseTo wireBytes payload compressed = .ok message) :
    message.wireBytes = saturateU32 wireBytes := by
  unfold decodeOpReply at h
  split at h
  · cases h
  refine bind_wireBytes h fun flags h => bind_wireBytes h fun returned h => ?_
  dsimp only at h
  split at h
  · refine bind_wireBytes h fun summary h => ?_
    cases h
    rfl
  · cases h
    rfl

private theorem decodeOpReplyPrefix_wireBytes
    (h : decodeOpReplyPrefix requestId responseTo wireBytes payload = .ok message) :
    message.wireBytes = saturateU32 wireBytes := by
  unfold decodeOpReplyPrefix at h
  split at h
  · cases h
  refine bind_wireBytes h fun flags h => bind_wireBytes h fun returned h => ?_
  dsimp only at h
  split at h
  · refine bind_wireBytes h fun summary h => ?_
    cases h
    rfl
  · cases h
    rfl

private theorem decodeCompressed_wireBytes {codecs : Decompressors} {maxMessageBytes : ℕ}
    (h : decodeCompressed codecs requestId responseTo wireBytes payload maxMessageBytes =
      .ok message) :
    message.wireBytes = saturateU32 wireBytes := by
  unfold decodeCompressed at h
  split at h
  · cases h
  refine bind_wireBytes h fun opcode h => bind_wireBytes h fun size h => ?_
  split at h
  · cases h
  refine bind_wireBytes h fun uncompressed h => ?_
  split at h
  · cases h
  split at h
  · exact decodeOpMsg_wireBytes h
  split at h
  · exact decodeOpQuery_wireBytes h
  split at h
  · exact decodeOpReply_wireBytes h
  · cases h

/-- A message of a whole frame reports the frame's length. -/
theorem decodeFrame_wireBytes {codecs : Decompressors} {frame : Bytes} {maxMessageBytes : ℕ}
    (h : decodeFrame codecs frame maxMessageBytes = .ok message) :
    message.wireBytes = frame.length := by
  rw [← saturateU32_of_readI32 (decodeFrame_length h).2.1]
  unfold decodeFrame at h
  split at h
  · cases h
  refine bind_wireBytes h fun declared h => ?_
  split at h
  · cases h
  split at h
  · cases h
  refine bind_wireBytes h fun request h => bind_wireBytes h fun response h => ?_
  refine bind_wireBytes h fun opcode h => ?_
  split at h
  · exact decodeOpMsg_wireBytes h
  split at h
  · exact decodeOpQuery_wireBytes h
  split at h
  · exact decodeOpReply_wireBytes h
  split at h
  · exact decodeCompressed_wireBytes h
  · cases h

/-- A message of a captured beginning reports the length that the frame declares. -/
theorem decodeFramePrefix_wireBytes {codecs : Decompressors} {captured : Bytes}
    {maxMessageBytes declared : ℕ} (hdeclared : readI32 captured 0 = .ok (declared : ℤ))
    (h : decodeFramePrefix codecs captured maxMessageBytes = .ok message) :
    message.wireBytes = declared := by
  unfold decodeFramePrefix at h
  split at h
  · cases h
  rw [hdeclared] at h
  dsimp only [bind, Except.bind] at h
  rw [Int.toNat_natCast] at h
  split at h
  · cases h
  split at h
  · cases h
  split at h
  · have hwhole := decodeFrame_wireBytes h
    rw [hwhole, List.length_take]
    omega
  rw [← saturateU32_of_readI32 hdeclared]
  refine bind_wireBytes h fun request h => bind_wireBytes h fun response h => ?_
  refine bind_wireBytes h fun opcode h => ?_
  split at h
  · cases h
  split at h
  · exact decodeOpMsgPrefix_wireBytes h
  split at h
  · exact decodeOpQueryPrefix_wireBytes h
  split at h
  · exact decodeOpReplyPrefix_wireBytes h
  · cases h

end WireLengths

end MongoDam.Protocol
