import MongoDam.Protocol.Frame
import MongoDam.Protocol.Locality

/-!
# Payloads of frames

A frame carries the payload of its own opcode behind the header, or the compressed
payload of another one. Whichever it is, the frame is decoded by the decoder of that
opcode, from the payload and the identifiers of the header.
-/

namespace MongoDam.Protocol

open Lib

/-- The payload of a frame of the given opcode, which may be compressed. -/
def framePayload (codecs : Decompressors) (opcode : ℤ) (frame : Bytes) : Option Bytes :=
  if readI32 frame 12 = .ok opcode then some (frame.drop 16)
  else if readI32 frame 12 = .ok OP_COMPRESSED ∧ readI32 (frame.drop 16) 0 = .ok opcode then do
    let size ← (readI32 (frame.drop 16) 4).toOption
    (decompress codecs ((frame.drop 16).getD 8 0) ((frame.drop 16).drop 9) size.toNat).toOption
  else none

/-- The payload comes out of a compressed frame. -/
def isCompressed (frame : Bytes) : Bool := (readI32 frame 12).toOption = some OP_COMPRESSED

/-- The decoders by opcode, for opcodes that are not compressed. -/
def decodePayload (opcode requestId responseTo : ℤ) (wireBytes : ℕ) (payload : Bytes)
    (compressed : Bool) : Except DecodeError DecodedMessage :=
  if opcode = OP_MSG then decodeOpMsg requestId responseTo wireBytes payload compressed
  else if opcode = OP_QUERY then decodeOpQuery requestId responseTo wireBytes payload compressed
  else if opcode = OP_REPLY then decodeOpReply requestId responseTo wireBytes payload compressed
  else .error (.unsupportedOpcode opcode)

variable {codecs : Decompressors} {frame payload : Bytes} {maxMessageBytes : ℕ}
  {whole : DecodedMessage} {opcode : ℤ}

/-- A decoded compressed payload is decoded from what it decompresses to. -/
private theorem decodeCompressed_payload {requestId responseTo : ℤ} {wireBytes : ℕ}
    {compressed : Bytes} (hopcode : readI32 compressed 0 = .ok opcode)
    (h : decodeCompressed codecs requestId responseTo wireBytes compressed maxMessageBytes =
      .ok whole) :
    ∃ uncompressed, (do
        let size ← (readI32 compressed 4).toOption
        (decompress codecs (compressed.getD 8 0) (compressed.drop 9) size.toNat).toOption) =
          some uncompressed ∧
      decodePayload opcode requestId responseTo wireBytes uncompressed true = .ok whole := by
  unfold decodeCompressed at h
  split at h
  · cases h
  · rw [hopcode] at h
    dsimp only [bind, Except.bind, Option.bind] at h ⊢
    cases hsize : readI32 compressed 4 with
    | error e =>
      rw [hsize] at h
      cases h
    | ok size =>
      rw [hsize] at h
      dsimp only [Except.toOption] at h ⊢
      split at h
      · cases h
      · cases hdata : decompress codecs (compressed.getD 8 0) (compressed.drop 9) size.toNat with
        | error e =>
          rw [hdata] at h
          cases h
        | ok uncompressed =>
          rw [hdata] at h
          dsimp only at h
          split at h
          · cases h
          · exact ⟨uncompressed, rfl, h⟩

/-- A decoded frame is decoded from its payload. -/
theorem decodeFrame_payload (hopcode : opcode ≠ OP_COMPRESSED)
    (hpayload : framePayload codecs opcode frame = some payload)
    (hwhole : decodeFrame codecs frame maxMessageBytes = .ok whole) :
    ∃ requestId responseTo, readI32 frame 4 = .ok requestId ∧ readI32 frame 8 = .ok responseTo ∧
      decodePayload opcode requestId responseTo frame.length payload (isCompressed frame) =
        .ok whole := by
  obtain ⟨hlength, hdeclared, hlimit⟩ := decodeFrame_length hwhole
  obtain ⟨requestId, hrequest⟩ := exists_readI32 frame 4 (by omega)
  obtain ⟨responseTo, hresponse⟩ := exists_readI32 frame 8 (by omega)
  refine ⟨requestId, responseTo, hrequest, hresponse, ?_⟩
  unfold decodeFrame at hwhole
  rw [if_neg (by omega), hdeclared, hrequest, hresponse] at hwhole
  dsimp only [bind, Except.bind] at hwhole
  rw [if_neg (by omega), if_neg (by omega)] at hwhole
  unfold framePayload at hpayload
  split at hpayload
  · rename_i hplain
    obtain rfl := Option.some.inj hpayload
    have hflag : isCompressed frame = false := by
      unfold isCompressed
      rw [hplain]
      simpa [Except.toOption] using hopcode
    rw [hplain] at hwhole
    rw [hflag]
    dsimp only at hwhole
    rw [if_neg hopcode] at hwhole
    exact hwhole
  · split at hpayload
    · rename_i hcompressed
      obtain ⟨hwrapped, horiginal⟩ := hcompressed
      have hflag : isCompressed frame = true := by
        unfold isCompressed
        rw [hwrapped]
        rfl
      rw [hwrapped] at hwhole
      dsimp only at hwhole
      rw [if_neg (by decide), if_neg (by decide), if_neg (by decide), if_pos rfl] at hwhole
      obtain ⟨uncompressed, hdecompressed, hdecoded⟩ := decodeCompressed_payload horiginal hwhole
      rw [hpayload] at hdecompressed
      cases hdecompressed
      rw [hflag]
      exact hdecoded
    · cases hpayload

end MongoDam.Protocol
