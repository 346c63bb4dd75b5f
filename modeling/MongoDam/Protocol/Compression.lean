import MongoDam.Protocol.Encodings
import MongoDam.Protocol.Framing
import MongoDam.Protocol.Payloads

/-!
# Compressed frames

A frame may be sent compressed: behind a header with its identifiers come its opcode,
the size of its payload, the compressor, and the compressed payload. Such a frame is
decoded as the frame it was made of, and an accepted compressed frame was made of one
within the limit.
-/

namespace MongoDam.Protocol

open Lib

/-- The compressed form of a frame. -/
def compressedFrame (frame : Bytes) (compressor : UInt8) (data : Bytes) : Bytes :=
  leBytes 4 (data.length + 25) ++ ((frame.drop 4).take 8 ++ (leBytes 4 OP_COMPRESSED.toNat ++
    ((frame.drop 12).take 4 ++ (leBytes 4 (frame.length - 16) ++ compressor :: data))))

/-- The library of a compressor returns the payload that the data was made of. -/
def Decompressors.Restores (codecs : Decompressors) (compressor : UInt8) (payload data : Bytes) :
    Prop :=
  match compressor with
  | 0 => data = payload
  | 1 => codecs.snappyLength data = .ok payload.length ∧ codecs.snappy data = .ok payload
  | 2 => ∀ limit, codecs.zlib data limit = .ok (payload.take limit)
  | 3 => ∀ limit, codecs.zstd data limit = .ok (payload.take limit)
  | _ => False

/-! ### Decoders of a payload -/

section Payloads

variable {opcode requestId responseTo : ℤ} {wireBytes wireBytes' : ℕ} {payload : Bytes}

/-- A message of a compressed frame. -/
def markCompressed (wireBytes : ℕ) (message : DecodedMessage) : DecodedMessage :=
  { message with compressed := true, wireBytes := saturateU32 wireBytes }

theorem decodeOpMsg_compressed :
    decodeOpMsg requestId responseTo wireBytes payload true =
      (decodeOpMsg requestId responseTo wireBytes' payload false).map
        (markCompressed wireBytes) := by
  unfold decodeOpMsg
  split
  · rfl
  · cases readU32 payload 0 with
    | error e => rfl
    | ok flags =>
      dsimp only
      by_cases hshort : payload.length < 4 + (if flags % 2 = 1 then 4 else 0)
      · rw [if_pos hshort, if_pos hshort]
        rfl
      · rw [if_neg hshort, if_neg hshort]
        cases opMsgSectionsLoop payload (sectionsEnd flags payload.length) 4 {} with
        | error e => rfl
        | ok sections =>
          dsimp only [OpMsgSections.message]
          cases sections.summary <;> rfl

theorem decodeOpQuery_compressed :
    decodeOpQuery requestId responseTo wireBytes payload true =
      (decodeOpQuery requestId responseTo wireBytes' payload false).map
        (markCompressed wireBytes) := by
  unfold decodeOpQuery
  split
  · rfl
  · cases readU32 payload 0 with
    | error e => rfl
    | ok flags =>
      cases hname : readCstring payload 4 with
      | error e => rfl
      | ok name =>
        dsimp only [bind, Except.bind]
        cases legacyDocument payload (name.2 + 8) with
        | error e => rfl
        | ok document =>
          dsimp only
          cases summarizeBson document <;> rfl

theorem decodeOpReply_compressed :
    decodeOpReply requestId responseTo wireBytes payload true =
      (decodeOpReply requestId responseTo wireBytes' payload false).map
        (markCompressed wireBytes) := by
  unfold decodeOpReply
  split
  · rfl
  · cases readU32 payload 0 with
    | error e => rfl
    | ok flags =>
      cases readI32 payload 16 with
      | error e => rfl
      | ok returned =>
        dsimp only [bind, Except.bind]
        split
        · cases legacyDocument payload 20 with
          | error e => rfl
          | ok document =>
            dsimp only
            cases summarizeBson document <;> rfl
        · rfl

/-- A payload is decoded alike in a compressed frame. -/
theorem decodePayload_compressed :
    decodePayload opcode requestId responseTo wireBytes payload true =
      (decodePayload opcode requestId responseTo wireBytes' payload false).map
        (markCompressed wireBytes) := by
  unfold decodePayload
  split
  · exact decodeOpMsg_compressed
  · split
    · exact decodeOpQuery_compressed
    · split
      · exact decodeOpReply_compressed
      · rfl

end Payloads

/-! ### Frames by their header -/

section Frames

variable {codecs : Decompressors} {frame : Bytes} {maxMessageBytes : ℕ}
  {opcode requestId responseTo : ℤ}

/-- A frame that is not compressed is decoded from what follows its header. -/
theorem decodeFrame_plain (hframe : WellFormedFrame frame) (hlimit : frame.length ≤ maxMessageBytes)
    (hrequest : readI32 frame 4 = .ok requestId) (hresponse : readI32 frame 8 = .ok responseTo)
    (hopcode : readI32 frame 12 = .ok opcode) (hplain : opcode ≠ OP_COMPRESSED) :
    decodeFrame codecs frame maxMessageBytes =
      decodePayload opcode requestId responseTo frame.length (frame.drop 16) false := by
  obtain ⟨hlength, hdeclared⟩ := hframe
  unfold decodeFrame
  rw [if_neg (by omega), hdeclared, hrequest, hresponse, hopcode]
  dsimp only [bind, Except.bind]
  rw [if_neg (by omega), if_neg (by omega), if_neg hplain]
  rfl

theorem decodeFrame_compressed (hframe : WellFormedFrame frame)
    (hlimit : frame.length ≤ maxMessageBytes)
    (hrequest : readI32 frame 4 = .ok requestId) (hresponse : readI32 frame 8 = .ok responseTo)
    (hopcode : readI32 frame 12 = .ok OP_COMPRESSED) :
    decodeFrame codecs frame maxMessageBytes =
      decodeCompressed codecs requestId responseTo frame.length (frame.drop 16)
        maxMessageBytes := by
  obtain ⟨hlength, hdeclared⟩ := hframe
  unfold decodeFrame
  rw [if_neg (by omega), hdeclared, hrequest, hresponse, hopcode]
  dsimp only [bind, Except.bind]
  rw [if_neg (by omega), if_neg (by omega), if_neg (by decide), if_neg (by decide),
    if_neg (by decide), if_pos rfl]

/-- Data that restores a payload decompresses to it. -/
theorem decompress_of_restores {compressor : UInt8} {payload data : Bytes}
    (h : codecs.Restores compressor payload data) :
    decompress codecs compressor data payload.length = .ok payload := by
  have htake : payload.take (payload.length + 1) = payload :=
    List.take_of_length_le (Nat.le_succ _)
  unfold Decompressors.Restores at h
  unfold decompress
  split at h
  · exact congrArg Except.ok h
  · rw [h.1]
    dsimp only
    rw [if_neg (fun hne => hne rfl), h.2]
    rfl
  · rw [h, htake]
    rfl
  · rw [h, htake]
    rfl
  · cases h

/-- A compressed payload is decoded as the payload it restores. -/
theorem decodeCompressed_of_restores {wireBytes : ℕ} {compressor : UInt8}
    {compressed payload data : Bytes} (hlength : 9 ≤ compressed.length)
    (hopcode : readI32 compressed 0 = .ok opcode)
    (hsize : readI32 compressed 4 = .ok (payload.length : ℤ))
    (hcompressor : compressed.getD 8 0 = compressor) (hdata : compressed.drop 9 = data)
    (hlimit : payload.length ≤ maxMessageBytes - 16)
    (h : codecs.Restores compressor payload data) :
    decodeCompressed codecs requestId responseTo wireBytes compressed maxMessageBytes =
      decodePayload opcode requestId responseTo wireBytes payload true := by
  unfold decodeCompressed
  rw [if_neg (by omega), hopcode, hsize, hcompressor, hdata]
  dsimp only [bind, Except.bind]
  rw [if_neg (by omega), Int.toNat_natCast, decompress_of_restores h]
  dsimp only
  rw [if_neg (fun hne => hne rfl)]
  rfl

/-! ### The compressed form of a frame -/

theorem compressedFrame_length (compressor : UInt8) (data : Bytes) (h : 16 ≤ frame.length) :
    (compressedFrame frame compressor data).length = data.length + 25 := by
  simp only [compressedFrame, List.length_append, leBytes_length, List.length_take,
    List.length_drop, List.length_cons]
  omega

/-- The compressed form carries its length, the identifiers and its opcode. -/
theorem compressedFrame_header (compressor : UInt8) {data : Bytes} (h : 16 ≤ frame.length)
    (hlength : data.length + 25 < 2 ^ 31) :
    WellFormedFrame (compressedFrame frame compressor data) ∧
      readI32 (compressedFrame frame compressor data) 4 = readI32 frame 4 ∧
      readI32 (compressedFrame frame compressor data) 8 = readI32 frame 8 ∧
      readI32 (compressedFrame frame compressor data) 12 = .ok OP_COMPRESSED := by
  have hids : ((frame.drop 4).take 8).length = 8 := by
    rw [List.length_take, List.length_drop]
    omega
  have hmoved : ∀ (front rest : Bytes) (offset : ℕ), front.length = 4 →
      readI32 (front ++ rest) (4 + offset) = readI32 rest offset := by
    intro front rest offset hfront
    rw [← hfront, readI32_append_left]
  refine ⟨⟨?_, ?_⟩, ?_, ?_, ?_⟩
  · rw [compressedFrame_length compressor data h]
    omega
  · rw [compressedFrame_length compressor data h, compressedFrame, readI32_leBytes hlength]
  · refine (hmoved _ _ 0 (leBytes_length 4 _)).trans ?_
    rw [readI32_drop_take (by omega) (by omega)]
  · refine (hmoved _ _ 4 (leBytes_length 4 _)).trans ?_
    rw [readI32_drop_take (by omega) (by omega)]
  · refine (hmoved _ _ 8 (leBytes_length 4 _)).trans ?_
    have hbehind := readI32_append_left ((frame.drop 4).take 8) (leBytes 4 OP_COMPRESSED.toNat ++
      ((frame.drop 12).take 4 ++ (leBytes 4 (frame.length - 16) ++ compressor :: data))) 0
    rw [hids] at hbehind
    exact hbehind.trans (readI32_leBytes (by decide) _)

/-- Behind the header come the opcode, the size, the compressor and the data. -/
theorem compressedFrame_payload (compressor : UInt8) (data : Bytes) (h : 16 ≤ frame.length) :
    (compressedFrame frame compressor data).drop 16 =
      (frame.drop 12).take 4 ++ (leBytes 4 (frame.length - 16) ++ compressor :: data) := by
  have hheader : (leBytes 4 (data.length + 25) ++ ((frame.drop 4).take 8 ++
      leBytes 4 OP_COMPRESSED.toNat)).length = 16 := by
    simp only [List.length_append, leBytes_length, List.length_take, List.length_drop]
    omega
  rw [compressedFrame, ← List.append_assoc, ← List.append_assoc, List.append_assoc (leBytes 4 _)]
  exact List.drop_left' hheader

/-- A frame is decoded alike when it is compressed. -/
theorem decodeFrame_compressedFrame {compressor : UInt8} {data : Bytes}
    (hframe : WellFormedFrame frame) (hlimit : frame.length ≤ maxMessageBytes)
    (hopcode : readI32 frame 12 = .ok opcode) (hplain : opcode ≠ OP_COMPRESSED)
    (hrestores : codecs.Restores compressor (frame.drop 16) data)
    (hwire : (compressedFrame frame compressor data).length < 2 ^ 31)
    (hwireLimit : (compressedFrame frame compressor data).length ≤ maxMessageBytes) :
    decodeFrame codecs (compressedFrame frame compressor data) maxMessageBytes =
      (decodeFrame codecs frame maxMessageBytes).map
        (markCompressed (compressedFrame frame compressor data).length) := by
  obtain ⟨hlength, hdeclared⟩ := hframe
  obtain ⟨requestId, hrequest⟩ := exists_readI32 frame 4 (by omega)
  obtain ⟨responseTo, hresponse⟩ := exists_readI32 frame 8 (by omega)
  have hsmall : frame.length < 2 ^ 31 := readI32_length_lt hdeclared
  have hsize : (frame.drop 16).length = frame.length - 16 := List.length_drop
  have hword : ((frame.drop 12).take 4).length = 4 := by
    rw [List.length_take, List.length_drop]
    omega
  have hlengthWord : (leBytes 4 (frame.length - 16)).length = 4 := leBytes_length _ _
  rw [compressedFrame_length compressor data hlength] at hwire
  obtain ⟨hwrapped, hids, hresponses, hwrappedOpcode⟩ :=
    compressedFrame_header compressor hlength hwire
  have hpayload := compressedFrame_payload compressor data hlength
  rw [decodeFrame_compressed hwrapped hwireLimit (hids.trans hrequest)
    (hresponses.trans hresponse) hwrappedOpcode,
    decodeFrame_plain ⟨hlength, hdeclared⟩ hlimit hrequest hresponse hopcode hplain,
    ← decodePayload_compressed, hpayload]
  have hcount : 9 ≤ ((frame.drop 12).take 4 ++
      (leBytes 4 (frame.length - 16) ++ compressor :: data)).length := by
    simp only [List.length_append, hword, hlengthWord, List.length_cons]
    omega
  refine decodeCompressed_of_restores hcount ?_ ?_ ?_ ?_ (by omega) hrestores
  · exact (readI32_drop_take (by omega) (by omega) _).trans hopcode
  · have hbehind := readI32_append_left ((frame.drop 12).take 4)
      (leBytes 4 (frame.length - 16) ++ compressor :: data) 0
    rw [hword] at hbehind
    rw [hsize]
    exact hbehind.trans (readI32_leBytes (by omega) _)
  · have hfront : ((frame.drop 12).take 4 ++ leBytes 4 (frame.length - 16)).length = 8 := by
      rw [List.length_append, hword, hlengthWord]
    have hbehind := getD_append_left ((frame.drop 12).take 4 ++ leBytes 4 (frame.length - 16))
      (compressor :: data) 0
    rw [hfront, List.append_assoc] at hbehind
    exact hbehind
  · rw [← List.append_assoc, ← List.singleton_append, ← List.append_assoc]
    refine List.drop_left' ?_
    simp only [List.length_append, hword, hlengthWord, List.length_singleton]

/-- An accepted compressed frame was made of a payload of the declared size, within the limit. -/
theorem decodeFrame_compressed_ok {message : DecodedMessage}
    (hopcode : readI32 frame 12 = .ok OP_COMPRESSED)
    (h : decodeFrame codecs frame maxMessageBytes = .ok message) :
    ∃ original payload, readI32 frame 16 = .ok original ∧ original ≠ OP_COMPRESSED ∧
      readI32 frame 20 = .ok (payload.length : ℤ) ∧ payload.length ≤ maxMessageBytes - 16 ∧
      decompress codecs (frame.getD 24 0) (frame.drop 25) payload.length = .ok payload := by
  obtain ⟨hlength, hdeclared, hlimit⟩ := decodeFrame_length h
  obtain ⟨requestId, hrequest⟩ := exists_readI32 frame 4 (by omega)
  obtain ⟨responseTo, hresponse⟩ := exists_readI32 frame 8 (by omega)
  rw [decodeFrame_compressed ⟨hlength, hdeclared⟩ hlimit hrequest hresponse hopcode] at h
  unfold decodeCompressed at h
  split at h
  · cases h
  · next hshort =>
    rw [List.length_drop] at hshort
    obtain ⟨original, horiginal⟩ := exists_readI32 frame 16 (by omega)
    obtain ⟨size, hsize⟩ := exists_readI32 frame 20 (by omega)
    rw [readI32_drop_add hlength, readI32_drop_add hlength, horiginal, hsize] at h
    dsimp only [bind, Except.bind] at h
    split at h
    · cases h
    · next hbound =>
      rw [List.drop_drop] at h
      have hbyte : (frame.drop 16).getD 8 0 = frame.getD 24 0 := by
        rw [List.getD_eq_getElem?_getD, List.getElem?_drop, ← List.getD_eq_getElem?_getD]
      rw [hbyte] at h
      cases hdata : decompress codecs (frame.getD 24 0) (frame.drop 25) size.toNat with
      | error e =>
        rw [hdata] at h
        cases h
      | ok payload =>
        rw [hdata] at h
        dsimp only at h
        split at h
        · cases h
        · next hexact =>
          have hexact : payload.length = size.toNat := not_not.mp hexact
          refine ⟨original, payload, horiginal, ?_, ?_, by omega, by rw [hexact, hdata]⟩
          · rintro rfl
            rw [if_neg (by decide), if_neg (by decide), if_neg (by decide)] at h
            cases h
          · rw [hsize]
            exact congrArg Except.ok (by omega)

end Frames

/-- Compression is transparent: the compressed form of a frame is decoded as the frame, and every
accepted compressed frame was made of a payload of the size it declares. -/
theorem compression_transparent (codecs : Decompressors) (maxMessageBytes : ℕ) :
    (∀ (frame : Bytes) (opcode : ℤ) (compressor : UInt8) (data : Bytes),
      WellFormedFrame frame → frame.length ≤ maxMessageBytes →
      readI32 frame 12 = .ok opcode → opcode ≠ OP_COMPRESSED →
      codecs.Restores compressor (frame.drop 16) data →
      (compressedFrame frame compressor data).length < 2 ^ 31 →
      (compressedFrame frame compressor data).length ≤ maxMessageBytes →
      decodeFrame codecs (compressedFrame frame compressor data) maxMessageBytes =
        (decodeFrame codecs frame maxMessageBytes).map fun message =>
          { message with
            compressed := true
            wireBytes := (compressedFrame frame compressor data).length }) ∧
    ∀ (frame : Bytes) (message : DecodedMessage), readI32 frame 12 = .ok OP_COMPRESSED →
      decodeFrame codecs frame maxMessageBytes = .ok message →
      ∃ original payload, readI32 frame 16 = .ok original ∧ original ≠ OP_COMPRESSED ∧
        readI32 frame 20 = .ok (payload.length : ℤ) ∧ payload.length ≤ maxMessageBytes - 16 ∧
        decompress codecs (frame.getD 24 0) (frame.drop 25) payload.length = .ok payload := by
  refine ⟨?_, fun frame message hopcode h => decodeFrame_compressed_ok hopcode h⟩
  intro frame opcode compressor data hframe hlimit hopcode hplain hrestores hwire hwireLimit
  rw [decodeFrame_compressedFrame hframe hlimit hopcode hplain hrestores hwire hwireLimit]
  have hsaturate : saturateU32 (compressedFrame frame compressor data).length =
      (compressedFrame frame compressor data).length := by
    unfold saturateU32
    omega
  unfold markCompressed
  rw [hsaturate]

/-- A frame with a `ping` command. -/
def plainPing : Bytes :=
  encodeOpMsg 7 0 0 (encodeBody (encodeInt32 "ping" 1 ++ encodeString "$db" "admin"))

/-- Its payload as zlib compresses it. -/
def zlibPing : Bytes :=
  [0x78, 0x9c, 0x63, 0x60, 0x00, 0x02, 0x39, 0x20, 0x16, 0x28, 0xc8, 0xcc, 0x4b, 0x67, 0x60, 0x04,
    0xb2, 0x98, 0x54, 0x52, 0x92, 0x18, 0xd8, 0x80, 0x8c, 0xc4, 0x94, 0xdc, 0xcc, 0x3c, 0x06, 0x06,
    0x00, 0x43, 0xdd, 0x04, 0xd9]

/-- The libraries as far as that payload is concerned. -/
def Decompressors.forPing : Decompressors where
  snappyLength := fun _ => .error ""
  snappy := fun _ => .error ""
  zlib := fun data limit =>
    if data = zlibPing then .ok ((plainPing.drop 16).take limit)
    else .error "corrupt deflate stream"
  zstd := fun _ _ => .error ""

/-- The compressed `ping` is decoded as the plain one, and was made of its payload. -/
theorem zlibPing_transparent :
    decodeFrame .forPing (compressedFrame plainPing 2 zlibPing) 128 =
      (decodeFrame .forPing plainPing 128).map (fun message =>
        { message with
          compressed := true
          wireBytes := (compressedFrame plainPing 2 zlibPing).length }) ∧
    ∃ original payload,
      readI32 (compressedFrame plainPing 2 zlibPing) 16 = .ok original ∧ original ≠ OP_COMPRESSED ∧
      readI32 (compressedFrame plainPing 2 zlibPing) 20 = .ok (payload.length : ℤ) ∧
      payload.length ≤ 128 - 16 ∧
      decompress .forPing ((compressedFrame plainPing 2 zlibPing).getD 24 0)
        ((compressedFrame plainPing 2 zlibPing).drop 25) payload.length = .ok payload := by
  have hmessage :
      (decodeFrame .forPing (compressedFrame plainPing 2 zlibPing) 128).toOption.isSome := by
    decide +kernel
  refine ⟨(compression_transparent .forPing 128).1 plainPing OP_MSG 2 zlibPing
    ⟨by decide +kernel, by decide +kernel⟩ (by decide +kernel) (by decide +kernel) (by decide)
    (fun limit => rfl) (by decide +kernel) (by decide +kernel), ?_⟩
  cases hdecoded : decodeFrame .forPing (compressedFrame plainPing 2 zlibPing) 128 with
  | error e =>
    rw [hdecoded] at hmessage
    cases hmessage
  | ok message =>
    exact (compression_transparent .forPing 128).2 _ message (by decide +kernel) hdecoded

end MongoDam.Protocol
