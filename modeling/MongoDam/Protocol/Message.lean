import MongoDam.Lib.Bytes
import MongoDam.Lib.Json

/-!
# Decoded MongoDB messages

The public data of the protocol decoder: decoder limits, commands, response
statuses, decoded messages and decoding errors, together with the third-party
decompressors the decoder calls.
-/

namespace MongoDam.Protocol

open Lib

/-- The legacy reply opcode. -/
def OP_REPLY : ℤ := 1

/-- The legacy query opcode. -/
def OP_QUERY : ℤ := 2004

/-- The compression wrapper opcode. -/
def OP_COMPRESSED : ℤ := 2012

/-- The current message opcode. -/
def OP_MSG : ℤ := 2013

/-- The default bound on a message. -/
def DEFAULT_MAX_MESSAGE_BYTES : ℕ := 48 * 1024 * 1024

/-- Limits of a stream decoder. -/
structure DecoderConfig where
  maxMessageBytes : ℕ := DEFAULT_MAX_MESSAGE_BYTES
  maxBufferBytes : ℕ := DEFAULT_MAX_MESSAGE_BYTES * 2
  deriving DecidableEq

/-- Which documents a delete command removes. -/
inductive DeleteScope where
  | single
  | multi
  | mixed
  deriving DecidableEq, Repr

/-- The metadata of a command. -/
structure MongoCommand where
  name : String
  database : Option String := none
  collection : Option String := none
  authMechanism : Option String := none
  principal : Option String := none
  speculativeAuth : Bool := false
  deleteScope : Option DeleteScope := none
  deleteStatements : Option ℕ := none
  query : Option JsonValue := none
  deriving DecidableEq, Repr

/-- The outcome a server reports. -/
structure ResponseStatus where
  ok : Option Bool := none
  code : Option ℤ := none
  codeName : Option String := none
  affectedCount : Option ℕ := none
  authDone : Option Bool := none
  deriving DecidableEq, Repr

/-- One decoded message. -/
structure DecodedMessage where
  requestId : ℤ
  responseTo : ℤ
  wireBytes : ℕ
  flags : ℕ
  moreToCome : Bool
  compressed : Bool
  command : Option MongoCommand
  status : Option ResponseStatus
  deriving DecidableEq, Repr

/-- Why a message is rejected. -/
inductive DecodeError where
  | invalidFrameLength (length : ℤ)
  | frameTooLarge
  | bufferTooLarge
  | truncated
  | unsupportedOpcode (opcode : ℤ)
  | unsupportedSection (kind : UInt8)
  | invalidBson
  | invalidCompressed
  | unsupportedCompressor (compressor : UInt8)
  | decompression (reason : String)
  deriving DecidableEq, Repr

/-- The text of an error. -/
def DecodeError.toText : DecodeError → String
  | .invalidFrameLength length => "MongoDB frame length " ++ toString length ++ " is invalid"
  | .frameTooLarge => "MongoDB frame exceeds configured limit"
  | .bufferTooLarge => "MongoDB stream buffer exceeds configured limit"
  | .truncated => "truncated MongoDB message"
  | .unsupportedOpcode opcode => "unsupported MongoDB opcode " ++ toString opcode
  | .unsupportedSection kind => "unsupported OP_MSG section kind " ++ toString kind.toNat
  | .invalidBson => "invalid BSON document"
  | .invalidCompressed => "invalid OP_COMPRESSED payload"
  | .unsupportedCompressor compressor =>
    "unsupported MongoDB compressor " ++ toString compressor.toNat
  | .decompression reason => "MongoDB decompression failed: " ++ reason

/-- The decompressors of third-party libraries. `zlib` and `zstd` return at most
the given number of bytes of the decompressed stream. -/
structure Decompressors where
  snappyLength : Bytes → Except String ℕ
  snappy : Bytes → Except String Bytes
  zlib : Bytes → ℕ → Except String Bytes
  zstd : Bytes → ℕ → Except String Bytes

instance decidableEqExcept {ε α : Type} [DecidableEq ε] [DecidableEq α] : DecidableEq (Except ε α)
  | .ok a, .ok b => decidable_of_iff (a = b) ⟨congrArg Except.ok, Except.ok.inj⟩
  | .error a, .error b => decidable_of_iff (a = b) ⟨congrArg Except.error, Except.error.inj⟩
  | .ok _, .error _ => isFalse nofun
  | .error _, .ok _ => isFalse nofun

/-- `u32::try_from(n).unwrap_or(u32::MAX)`. -/
def saturateU32 (n : ℕ) : ℕ := min n (2 ^ 32 - 1)

end MongoDam.Protocol
