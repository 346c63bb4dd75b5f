import MongoDam.Protocol.CheckedFrame
import MongoDam.Protocol.Stream

/-!
# Decoding a byte stream, with panics

The operations of the stream decoder with their index, slice and overflow checks, over
any buffer that a vector can hold. Each returns the new decoder and its result, as
without the checks.
-/

namespace MongoDam.Protocol

open Lib Outcome

namespace Checked

variable {ε : Type} (codecs : Decompressors) (fuel : ℕ)

/-- A round of the loop of `push`. -/
def pushRound (maxMessageBytes : ℕ) (state : Bytes × List DecodedMessage) :
    Outcome ε ((Bytes × List DecodedMessage) ⊕
      (Bytes × Except DecodeError (List DecodedMessage))) := do
  let (buffer, decoded) := state
  if buffer.length < 4 then return .inr (buffer, .ok decoded)
  else
    let length := signed32 (leNat (← slice buffer 0 4))
    if length < 16 then return .inr ([], .error (.invalidFrameLength length))
    else if maxMessageBytes < asUsize length then return .inr ([], .error .frameTooLarge)
    else if buffer.length < asUsize length then return .inr (buffer, .ok decoded)
    else
      let frame ← slice buffer 0 (asUsize length)
      let rest ← slice buffer (asUsize length) buffer.length
      match ← attempt (decodeFrame codecs fuel frame maxMessageBytes) with
      | .error e => return .inr (rest, .error e)
      | .ok message => return .inl (rest, decoded ++ [message])

def push (decoder : StreamDecoder) (bytes : Bytes) :
    Outcome ε (StreamDecoder × Except DecodeError (List DecodedMessage)) := do
  if decoder.config.maxBufferBytes < saturatingAdd decoder.buffer.length bytes.length then
    return (decoder.clear, .error .bufferTooLarge)
  else
    let (buffer, result) ←
      loop (pushRound codecs fuel decoder.config.maxMessageBytes) fuel (decoder.buffer ++ bytes, [])
    return ({ decoder with buffer }, result)

def nextFrameLength (decoder : StreamDecoder) (bytes : Bytes) :
    Outcome DecodeError (Option ℕ) := do
  let header := [0, 0, 0, 0]
  let buffered := min decoder.buffer.length 4
  let header ← copyFromSlice header 0 buffered (← slice decoder.buffer 0 buffered)
  let needed ← sub 4 buffered
  if bytes.length < needed then return none
  else
    let header ← copyFromSlice header buffered header.length (← slice bytes 0 needed)
    let length := signed32 (leNat header)
    if length < 16 then fail (.invalidFrameLength length)
    else if decoder.config.maxMessageBytes < asUsize length then fail .frameTooLarge
    else return some (asUsize length)

def pushTruncated (decoder : StreamDecoder) (bytes : Bytes) :
    Outcome ε (StreamDecoder × Except DecodeError DecodedMessage) := do
  if decoder.config.maxBufferBytes < saturatingAdd decoder.buffer.length bytes.length then
    return (decoder.clear, .error .bufferTooLarge)
  else
    let result ← attempt (decodeFramePrefix codecs fuel (decoder.buffer ++ bytes)
      decoder.config.maxMessageBytes)
    return (decoder.clear, result)

def pushBoundedPrefix (decoder : StreamDecoder) (bytes : Bytes) (prefixLimit : ℕ) :
    Outcome ε (StreamDecoder × Except DecodeError (List DecodedMessage)) := do
  if prefixLimit < 16 ∨ decoder.config.maxBufferBytes < prefixLimit then
    return (decoder.clear, .error .bufferTooLarge)
  else
    match ← attempt (nextFrameLength decoder bytes) with
    | .error e => return (decoder, .error e)
    | .ok none => push codecs fuel decoder bytes
    | .ok (some frameLength) =>
      if frameLength ≤ prefixLimit ∨
          saturatingAdd decoder.buffer.length bytes.length < prefixLimit then
        push codecs fuel decoder bytes
      else
        let needed := prefixLimit - decoder.buffer.length
        let captured ← slice bytes 0 (min needed bytes.length)
        let (decoder, result) ← pushTruncated codecs fuel decoder captured
        return (decoder, result.map (fun message => [message]))

end Checked

section Stream

variable {ε : Type} {codecs : Decompressors} {fuel : ℕ} {decoder : StreamDecoder} {bytes : Bytes}

/-- The four bytes at the beginning of a buffer, as a length. -/
theorem readI32_buffer {buffer : Bytes} (h : 4 ≤ buffer.length) :
    readI32 buffer 0 = .ok (signed32 (leNat (buffer.take 4))) := by
  unfold readI32 readWord
  rw [slice?_eq_some (by decide) h]
  rfl

theorem pushRound_follows (hfuel : 2 ^ 31 ≤ fuel) (maxMessageBytes : ℕ)
    (state : Bytes × List DecodedMessage) (_ : True) :
    Follows (fun state => .ok (StreamDecoder.pushLoop codecs maxMessageBytes state.1 state.2))
      (fun next => True ∧ next.1.length < state.1.length)
      (.ok (StreamDecoder.pushLoop codecs maxMessageBytes state.1 state.2))
      (Checked.pushRound codecs fuel maxMessageBytes state : Outcome ε _) := by
  obtain ⟨buffer, decoded⟩ := state
  unfold Checked.pushRound
  dsimp only
  rw [StreamDecoder.pushLoop]
  by_cases hshort : buffer.length < 4
  · rw [if_pos hshort, if_pos hshort]
    rfl
  have hread := readI32_buffer (Nat.le_of_not_lt hshort)
  have hrange := readI32_range hread
  rw [if_neg hshort, if_neg hshort, slice_zero_eq (by omega), returned_ok_bind, hread]
  dsimp only
  by_cases hleast : signed32 (leNat (buffer.take 4)) < 16
  · rw [if_pos hleast, if_pos hleast]
    rfl
  rw [if_neg hleast, if_neg hleast, asUsize_of_nonneg (by omega) (by omega)]
  split
  · rfl
  split
  · rfl
  · rw [slice_zero_eq (by omega), returned_ok_bind, slice_length_eq (by omega), returned_ok_bind,
      decodeFrame_returned hfuel, attempt_returned, returned_ok_bind]
    cases decodeFrame codecs (buffer.take (signed32 (leNat (buffer.take 4))).toNat)
      maxMessageBytes with
    | error e => rfl
    | ok message =>
      refine ⟨⟨trivial, ?_⟩, rfl⟩
      dsimp only
      rw [List.length_drop]
      omega

theorem push_returned (hfuel : 2 ^ 31 ≤ fuel)
    (hrounds : decoder.buffer.length + bytes.length < fuel)
    (hbuffer : decoder.buffer.length < 2 ^ 63) (hbytes : bytes.length < 2 ^ 31) :
    (Checked.push codecs fuel decoder bytes : Outcome ε _) =
      returned (.ok (decoder.push codecs bytes)) := by
  have hsum : saturatingAdd decoder.buffer.length bytes.length =
      decoder.buffer.length + bytes.length := Nat.min_eq_left (by omega)
  unfold Checked.push StreamDecoder.push
  rw [hsum]
  split
  · rfl
  · exact bind_ok (loop_returned (pushRound_follows hfuel decoder.config.maxMessageBytes) trivial
      (by dsimp only; rw [List.length_append]; omega)) rfl

theorem nextFrameLength_returned :
    Checked.nextFrameLength decoder bytes = returned (decoder.nextFrameLength bytes) := by
  have hbuffered : (decoder.buffer.take (min decoder.buffer.length 4)).length =
      min decoder.buffer.length 4 := by
    rw [List.length_take]
    omega
  have hfour : ([0, 0, 0, 0] : Bytes).length = 4 := rfl
  have hcopy : (copyFromSlice [0, 0, 0, 0] 0 (min decoder.buffer.length 4)
      (decoder.buffer.take (min decoder.buffer.length 4)) : Outcome DecodeError Bytes) = _ :=
    copyFromSlice_eq (Nat.zero_le _) (Nat.min_le_right _ 4) hbuffered
  have hfirst : (decoder.buffer.take (min decoder.buffer.length 4) ++
      ([0, 0, 0, 0] : Bytes).drop (min decoder.buffer.length 4)).length = 4 := by
    rw [List.length_append, hbuffered, List.length_drop, hfour]
    omega
  unfold Checked.nextFrameLength StreamDecoder.nextFrameLength
  dsimp only
  rw [slice_zero_eq (Nat.min_le_left ..), returned_ok_bind, hcopy, returned_ok_bind,
    sub_eq (Nat.min_le_right ..), returned_ok_bind, List.take_zero, List.nil_append, hfirst]
  split
  · rfl
  have hneeded : (bytes.take (4 - min decoder.buffer.length 4)).length =
      4 - min decoder.buffer.length 4 := by
    rw [List.length_take]
    omega
  rw [slice_zero_eq (by omega), returned_ok_bind,
    copyFromSlice_eq (Nat.min_le_right ..) (Nat.le_of_eq hfirst.symm) hneeded, returned_ok_bind,
    List.take_left' hbuffered, List.drop_eq_nil_of_le (Nat.le_of_eq hfirst), List.append_nil]
  have hheader : (decoder.buffer.take (min decoder.buffer.length 4) ++
      bytes.take (4 - min decoder.buffer.length 4)).length = 4 := by
    rw [List.length_append, hbuffered, hneeded]
    omega
  have hread := readI32_buffer (Nat.le_of_eq hheader.symm)
  rw [List.take_of_length_le (Nat.le_of_eq hheader)] at hread
  have hrange := readI32_range hread
  split
  · rfl
  rw [asUsize_of_nonneg (by omega) (by omega)]
  split
  · rfl
  · rfl

theorem pushTruncated_returned (hfuel : 2 ^ 31 ≤ fuel)
    (hbuffer : decoder.buffer.length < 2 ^ 63) (hbytes : bytes.length < 2 ^ 31) :
    (Checked.pushTruncated codecs fuel decoder bytes : Outcome ε _) =
      returned (.ok (decoder.pushTruncated codecs bytes)) := by
  have hsum : saturatingAdd decoder.buffer.length bytes.length =
      decoder.buffer.length + bytes.length := Nat.min_eq_left (by omega)
  unfold Checked.pushTruncated StreamDecoder.pushTruncated
  rw [hsum, decodeFramePrefix_returned hfuel]
  split
  · rfl
  · rfl

theorem pushBoundedPrefix_returned (hfuel : 2 ^ 31 ≤ fuel)
    (hrounds : decoder.buffer.length + bytes.length < fuel)
    (hbuffer : decoder.buffer.length < 2 ^ 63) (hbytes : bytes.length < 2 ^ 31)
    (prefixLimit : ℕ) :
    (Checked.pushBoundedPrefix codecs fuel decoder bytes prefixLimit : Outcome ε _) =
      returned (.ok (decoder.pushBoundedPrefix codecs bytes prefixLimit)) := by
  have hsum : saturatingAdd decoder.buffer.length bytes.length =
      decoder.buffer.length + bytes.length := Nat.min_eq_left (by omega)
  unfold Checked.pushBoundedPrefix StreamDecoder.pushBoundedPrefix
  rw [nextFrameLength_returned, hsum, push_returned hfuel hrounds hbuffer hbytes]
  split
  · rfl
  cases decoder.nextFrameLength bytes with
  | error e => rfl
  | ok found =>
    cases found with
    | none => rfl
    | some frameLength =>
      rw [attempt_returned, returned_ok_bind]
      dsimp only
      split
      · rfl
      · have htake : bytes.take (min (prefixLimit - decoder.buffer.length) bytes.length) =
            bytes.take (prefixLimit - decoder.buffer.length) := by
          rw [← List.take_take, List.take_length]
        have hlength : (bytes.take (prefixLimit - decoder.buffer.length)).length ≤
            bytes.length := by
          rw [List.length_take]
          omega
        rw [slice_zero_eq (Nat.min_le_right ..), returned_ok_bind, htake,
          pushTruncated_returned hfuel hbuffer (by omega)]
        rfl

end Stream

end MongoDam.Protocol
