import MongoDam.Protocol.Frame

/-!
# Decoding a byte stream

A stream decoder keeps the bytes of the frame in progress. `push` decodes every
frame completed by a chunk; `pushBoundedPrefix` decodes a large frame from its
first bytes only; `pushTruncated` finishes with whatever was captured. Each
operation returns the new decoder beside its result, since an error also changes
what is buffered.
-/

namespace MongoDam.Protocol

open Lib

/-- The decoder of one direction of one connection. -/
structure StreamDecoder where
  config : DecoderConfig
  buffer : Bytes
  deriving DecidableEq

namespace StreamDecoder

variable (codecs : Decompressors)

def new (config : DecoderConfig) : StreamDecoder := ⟨config, []⟩

def bufferedBytes (decoder : StreamDecoder) : ℕ := decoder.buffer.length

/-- Drop what is buffered. -/
def clear (decoder : StreamDecoder) : StreamDecoder := { decoder with buffer := [] }

/-- The loop of `push`: take complete frames off the buffer until it holds less
than one. A frame is removed from the buffer before it is decoded. -/
def pushLoop (maxMessageBytes : ℕ) (buffer : Bytes) (decoded : List DecodedMessage) :
    Bytes × Except DecodeError (List DecodedMessage) :=
  if buffer.length < 4 then (buffer, .ok decoded)
  else
    match readI32 buffer 0 with
    | .error e => (buffer, .error e)
    | .ok length =>
      if length < 16 then ([], .error (.invalidFrameLength length))
      else if maxMessageBytes < length.toNat then ([], .error .frameTooLarge)
      else if buffer.length < length.toNat then (buffer, .ok decoded)
      else
        match decodeFrame codecs (buffer.take length.toNat) maxMessageBytes with
        | .error e => (buffer.drop length.toNat, .error e)
        | .ok message =>
          pushLoop maxMessageBytes (buffer.drop length.toNat) (decoded ++ [message])
termination_by buffer.length
decreasing_by
  rw [List.length_drop]
  omega

def push (decoder : StreamDecoder) (bytes : Bytes) :
    StreamDecoder × Except DecodeError (List DecodedMessage) :=
  if decoder.config.maxBufferBytes < decoder.buffer.length + bytes.length then
    (decoder.clear, .error .bufferTooLarge)
  else
    let (buffer, result) :=
      pushLoop codecs decoder.config.maxMessageBytes (decoder.buffer ++ bytes) []
    ({ decoder with buffer }, result)

/-- The declared length of the frame in progress, once its first four bytes are
known from the buffer and the chunk together. -/
def nextFrameLength (decoder : StreamDecoder) (bytes : Bytes) : Except DecodeError (Option ℕ) :=
  let buffered := min decoder.buffer.length 4
  let needed := 4 - buffered
  if bytes.length < needed then .ok none
  else
    let length := signed32 (leNat (decoder.buffer.take buffered ++ bytes.take needed))
    if length < 16 then .error (.invalidFrameLength length)
    else if decoder.config.maxMessageBytes < length.toNat then .error .frameTooLarge
    else .ok (some length.toNat)

def pushTruncated (decoder : StreamDecoder) (bytes : Bytes) :
    StreamDecoder × Except DecodeError DecodedMessage :=
  if decoder.config.maxBufferBytes < decoder.buffer.length + bytes.length then
    (decoder.clear, .error .bufferTooLarge)
  else
    (decoder.clear,
      decodeFramePrefix codecs (decoder.buffer ++ bytes) decoder.config.maxMessageBytes)

def pushBoundedPrefix (decoder : StreamDecoder) (bytes : Bytes) (prefixLimit : ℕ) :
    StreamDecoder × Except DecodeError (List DecodedMessage) :=
  if prefixLimit < 16 ∨ decoder.config.maxBufferBytes < prefixLimit then
    (decoder.clear, .error .bufferTooLarge)
  else
    match decoder.nextFrameLength bytes with
    | .error e => (decoder, .error e)
    | .ok none => decoder.push codecs bytes
    | .ok (some frameLength) =>
      if frameLength ≤ prefixLimit ∨ decoder.buffer.length + bytes.length < prefixLimit then
        decoder.push codecs bytes
      else
        let (decoder, result) :=
          decoder.pushTruncated codecs (bytes.take (prefixLimit - decoder.buffer.length))
        (decoder, result.map (fun message => [message]))

end StreamDecoder

end MongoDam.Protocol
