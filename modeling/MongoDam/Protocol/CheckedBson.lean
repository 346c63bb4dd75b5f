import MongoDam.Lib.Outcome
import MongoDam.Protocol.Encodings

/-!
# BSON readers that may panic

The readers of the decoder with the index, slice and overflow checks of the machine.
Lengths come from the bytes as signed 32-bit integers and are used as `usize`. At an
offset below `2 ^ 32` into fewer than `2 ^ 31` bytes no check fails, and every reader
returns what its unchecked counterpart returns.
-/

namespace MongoDam.Protocol

open Lib Outcome

namespace Checked

/-! ### Scalars -/

def readWord (width : ℕ) (bytes : Bytes) (offset : ℕ) : Outcome DecodeError ℕ := do
  let stop ← add offset width
  return leNat (← okOr .truncated (slice? bytes offset stop))

def readI32 (bytes : Bytes) (offset : ℕ) : Outcome DecodeError ℤ := do
  return signed32 (← readWord 4 bytes offset)

def readU32 (bytes : Bytes) (offset : ℕ) : Outcome DecodeError ℕ := readWord 4 bytes offset

def readI64 (bytes : Bytes) (offset : ℕ) : Outcome DecodeError ℤ := do
  return signed64 (← readWord 8 bytes offset)

def readU64 (bytes : Bytes) (offset : ℕ) : Outcome DecodeError ℕ := readWord 8 bytes offset

def readCstring (bytes : Bytes) (offset : ℕ) : Outcome DecodeError (String × ℕ) := do
  let rest ← okOr .invalidBson (sliceFrom? bytes offset)
  let relativeEnd ← okOr .invalidBson (rest.findIdx? (· == 0))
  let stop ← add offset relativeEnd
  let value ← okOr .invalidBson (fromUtf8 (← slice bytes offset stop))
  return (value, ← add stop 1)

/-- `offset.checked_add(length)`, within the bytes. -/
def checkedEnd (bytes : Bytes) (offset length : ℕ) : Outcome DecodeError ℕ :=
  okOr .invalidBson ((checkedAdd offset length).filter (fun stop => stop ≤ bytes.length))

/-- A value whose 32-bit length prefix must be at least `least`; `span` is the number of
its bytes. -/
def skipPrefixed (bytes : Bytes) (offset : ℕ) (least : ℤ) (span : ℕ → Outcome DecodeError ℕ) :
    Outcome DecodeError ℕ := do
  let length ← readI32 bytes offset
  if length < least then fail .invalidBson
  else checkedEnd bytes offset (← span (asUsize length))

def skipValue (bytes : Bytes) (offset : ℕ) (elementType : UInt8) : Outcome DecodeError ℕ :=
  match fixedLength elementType with
  | some length => checkedEnd bytes offset length
  | none =>
    match elementType with
    | 0x02 | 0x0d | 0x0e => skipPrefixed bytes offset 1 fun length => add 4 length
    | 0x03 | 0x04 | 0x0f => skipPrefixed bytes offset 5 fun length => pure length
    | 0x05 => skipPrefixed bytes offset 0 fun length => add 5 length
    | 0x0b => do
      let (_, afterPattern) ← readCstring bytes offset
      let (_, afterOptions) ← readCstring bytes afterPattern
      return afterOptions
    | 0x0c => skipPrefixed bytes offset 1 fun length => do add (← add 4 length) 12
    | _ => fail .invalidBson

def readBsonString (bytes : Bytes) (offset : ℕ) : Outcome DecodeError String := do
  let length ← readI32 bytes offset
  if length < 1 then fail .invalidBson
  else
    let start ← add offset 4
    let stop ← okOr .invalidBson (checkedAdd start (asUsize length))
    if bytes.length < stop then fail .invalidBson
    else if (← index bytes (← sub stop 1)) ≠ 0 then fail .invalidBson
    else okOr .invalidBson (fromUtf8 (← slice bytes start (← sub stop 1)))

def readBsonBinary (bytes : Bytes) (offset : ℕ) : Outcome DecodeError Bytes := do
  let length ← readI32 bytes offset
  if length < 0 then fail .invalidBson
  else
    let start ← okOr .invalidBson (checkedAdd offset 5)
    let stop ← okOr .invalidBson (checkedAdd start (asUsize length))
    okOr .invalidBson (slice? bytes start stop)

/-- The eight bytes at an offset, as a word. -/
def readWord64? (bytes : Bytes) (offset : ℕ) : Outcome DecodeError (Option ℕ) := do
  let stop ← add offset 8
  return (slice? bytes offset stop).map leNat

def readBoolish (bytes : Bytes) (offset : ℕ) (elementType : UInt8) :
    Outcome DecodeError (Option Bool) :=
  match elementType with
  | 0x01 => do return (← readWord64? bytes offset).map (fun bits => !Double.isZero bits)
  | 0x08 => return bytes[offset]?.map (fun value => value ≠ 0)
  | 0x10 => do return (← ok (readI32 bytes offset)).map (fun value => value ≠ 0)
  | 0x12 => do
    return ((← readWord64? bytes offset).map signed64).map (fun value => value ≠ 0)
  | _ => return none

def readI32ish (bytes : Bytes) (offset : ℕ) (elementType : UInt8) :
    Outcome DecodeError (Option ℤ) :=
  match elementType with
  | 0x10 => ok (readI32 bytes offset)
  | 0x12 => do
    return ((← readWord64? bytes offset).map signed64).filter
      (fun value => -2 ^ 31 ≤ value ∧ value < 2 ^ 31)
  | 0x01 => do return (← readWord64? bytes offset).bind Double.toI32?
  | _ => return none

def readU64ish (bytes : Bytes) (offset : ℕ) (elementType : UInt8) :
    Outcome DecodeError (Option ℕ) :=
  match elementType with
  | 0x10 => do return ((← ok (readI32 bytes offset)).filter (fun value => 0 ≤ value)).map Int.toNat
  | 0x12 => do
    return (((← readWord64? bytes offset).map signed64).filter (fun value => 0 ≤ value)).map
      Int.toNat
  | 0x01 => do return (← readWord64? bytes offset).bind Double.toU64?
  | _ => return none

/-- The outer shape of a document or array. -/
def requireContainer (document : Bytes) : Outcome DecodeError Unit := do
  if document.length < 5 then fail .invalidBson
  else if asUsize (← readI32 document 0) ≠ document.length then fail .invalidBson
  else if document.getLast? ≠ some 0 then fail .invalidBson
  else return

end Checked

/-! ### The readers do not panic -/

theorem readI32_range {bytes : Bytes} {offset : ℕ} {value : ℤ}
    (h : readI32 bytes offset = .ok value) : -2 ^ 31 ≤ value ∧ value < 2 ^ 31 := by
  unfold readI32 readWord at h
  split at h
  · rename_i word hword
    have hsigned : signed32 (leNat word) = value := Except.ok.inj h
    have hlt := leNat_lt word
    rw [slice?_length hword, Nat.add_sub_cancel_left] at hlt
    unfold signed32 at hsigned
    split at hsigned
    · omega
    · omega
  · cases h

section Readers

variable {bytes : Bytes} {offset : ℕ}

theorem readWord_returned (width : ℕ) (h : offset + width < 2 ^ 64) :
    Checked.readWord width bytes offset = returned (readWord width bytes offset) := by
  unfold Checked.readWord readWord
  rw [add_eq h, returned_ok_bind]
  cases slice? bytes offset (offset + width) with
  | some word => rfl
  | none => rfl

theorem readI32_returned (h : offset < 2 ^ 32) :
    Checked.readI32 bytes offset = returned (readI32 bytes offset) := by
  unfold Checked.readI32 readI32
  rw [readWord_returned 4 (by omega)]
  cases readWord 4 bytes offset with
  | ok word => rfl
  | error e => rfl

theorem readU32_returned (h : offset < 2 ^ 32) :
    Checked.readU32 bytes offset = returned (readU32 bytes offset) :=
  readWord_returned 4 (by omega)

theorem readI64_returned (h : offset < 2 ^ 32) :
    Checked.readI64 bytes offset = returned (readI64 bytes offset) := by
  unfold Checked.readI64 readI64
  rw [readWord_returned 8 (by omega)]
  cases readWord 8 bytes offset with
  | ok word => rfl
  | error e => rfl

theorem readU64_returned (h : offset < 2 ^ 32) :
    Checked.readU64 bytes offset = returned (readU64 bytes offset) :=
  readWord_returned 8 (by omega)

theorem readCstring_returned (hbytes : bytes.length < 2 ^ 31) :
    Checked.readCstring bytes offset = returned (readCstring bytes offset) := by
  unfold Checked.readCstring readCstring sliceFrom?
  by_cases hoffset : offset ≤ bytes.length
  · rw [if_pos hoffset, okOr_some, returned_ok_bind]
    dsimp only
    cases hfind : (bytes.drop offset).findIdx? (· == 0) with
    | none => rfl
    | some relativeEnd =>
      have hlt := (List.findIdx?_eq_some_iff_findIdx_eq.mp hfind).1
      rw [List.length_drop] at hlt
      rw [okOr_some, returned_ok_bind, add_eq (by omega), returned_ok_bind,
        slice_eq (by omega) (by omega), returned_ok_bind, Nat.add_sub_cancel_left]
      dsimp only
      cases fromUtf8 ((bytes.drop offset).take relativeEnd) with
      | none => rfl
      | some value =>
        rw [okOr_some, returned_ok_bind, add_eq (by omega)]
        rfl
  · rw [if_neg hoffset]
    rfl

theorem checkedEnd_returned {length : ℕ} (h : offset + length < 2 ^ 64) :
    Checked.checkedEnd bytes offset length = returned (checkedEnd bytes (offset + length)) := by
  unfold Checked.checkedEnd checkedEnd
  rw [checkedAdd_eq h, Option.filter_some]
  by_cases hle : offset + length ≤ bytes.length
  · rw [if_pos hle, if_pos (decide_eq_true hle)]
    rfl
  · rw [if_neg hle, if_neg (by simpa using hle)]
    rfl

theorem skipPrefixed_returned {least : ℤ} {span : ℕ → Outcome DecodeError ℕ} {extra : ℕ}
    (hoffset : offset < 2 ^ 32) (hleast : 0 ≤ least) (hextra : extra < 2 ^ 32)
    (hspan : ∀ length < 2 ^ 31, span length = returned (.ok (extra + length))) :
    Checked.skipPrefixed bytes offset least span =
      returned (skipPrefixed bytes offset least extra) := by
  unfold skipPrefixed
  refine bind_eq_returned (readI32_returned hoffset) (fun e h => by rw [h]) fun length h => ?_
  have hrange := readI32_range h
  rw [h]
  dsimp only
  split
  · rfl
  · rw [asUsize_of_nonneg (by omega) (by omega), hspan _ (by omega), returned_ok_bind,
      checkedEnd_returned (by omega)]

theorem skipValue_returned (hbytes : bytes.length < 2 ^ 31) (hoffset : offset < 2 ^ 32)
    (elementType : UInt8) :
    Checked.skipValue bytes offset elementType = returned (skipValue bytes offset elementType) := by
  have hstring := @skipPrefixed_returned bytes offset 1 (fun length => add 4 length) 4 hoffset
    (by decide) (by decide) fun length hlength => add_eq (by omega)
  have hdocument := @skipPrefixed_returned bytes offset 5 (fun length => pure length) 0 hoffset
    (by decide) (by decide) fun length _ => by rw [Nat.zero_add]; rfl
  have hbinary := @skipPrefixed_returned bytes offset 0 (fun length => add 5 length) 5 hoffset
    (by decide) (by decide) fun length hlength => add_eq (by omega)
  have hpointer := @skipPrefixed_returned bytes offset 1 (fun length => do
      add (← add 4 length) 12) 16 hoffset (by decide) (by decide) fun length hlength => by
    rw [add_eq (by omega), returned_ok_bind, add_eq (by omega), Nat.add_right_comm]
  unfold Checked.skipValue skipValue
  cases hfixed : fixedLength elementType with
  | some length =>
    have hle : length ≤ 16 := by
      unfold fixedLength at hfixed
      split at hfixed <;> cases hfixed <;> decide
    exact checkedEnd_returned (by omega)
  | none =>
    dsimp only
    split
    · exact hstring
    · exact hstring
    · exact hstring
    · exact hdocument
    · exact hdocument
    · exact hdocument
    · exact hbinary
    · change _ = returned (skipValue bytes offset 0x0b)
      rw [skipValue_regularExpression]
      exact bind_returned (readCstring_returned hbytes) fun _ _ =>
        bind_returned (readCstring_returned hbytes) fun _ _ => rfl
    · exact hpointer
    · simp [fail, *]

theorem readBsonString_returned (hoffset : offset < 2 ^ 32) :
    Checked.readBsonString bytes offset = returned (readBsonString bytes offset) := by
  unfold readBsonString
  refine bind_eq_returned (readI32_returned hoffset) (fun e h => by rw [h]) fun length h => ?_
  have hrange := readI32_range h
  rw [h]
  dsimp only
  split
  · rfl
  rw [add_eq (by omega), returned_ok_bind, asUsize_of_nonneg (by omega) (by omega),
    checkedAdd_eq (by omega), okOr_some, returned_ok_bind]
  by_cases hstop : offset + 4 + length.toNat ≤ bytes.length
  · rw [if_neg (by omega), sub_eq (by omega), returned_ok_bind, index_eq (by omega),
      returned_ok_bind, slice?_eq_some (by omega) hstop, returned_ok_bind,
      slice_eq (by omega) (by omega), returned_ok_bind]
    dsimp only
    have hcount : offset + 4 + length.toNat - 1 - (offset + 4) = length.toNat - 1 := by omega
    have hlast : ((bytes.drop (offset + 4)).take length.toNat).getLast? =
        some bytes[offset + 4 + length.toNat - 1] := by
      have hindex : offset + 4 + (length.toNat - 1) = offset + 4 + length.toNat - 1 := by omega
      rw [List.getLast?_eq_getElem?, List.length_take, List.length_drop,
        Nat.min_eq_left (by omega), List.getElem?_take_of_lt (by omega), List.getElem?_drop,
        hindex, List.getElem?_eq_getElem (by omega)]
    have hfront : ((bytes.drop (offset + 4)).take length.toNat).dropLast =
        (bytes.drop (offset + 4)).take (length.toNat - 1) := by
      rw [List.dropLast_eq_take, List.length_take, List.length_drop,
        Nat.min_eq_left (by omega), List.take_take, Nat.min_eq_left (by omega)]
    rw [Nat.add_sub_cancel_left, hlast, hfront, hcount]
    by_cases hterminator : bytes[offset + 4 + length.toNat - 1] = 0
    · rw [if_neg (not_not_intro hterminator), if_neg (by rw [hterminator]; exact not_not_intro rfl)]
      cases fromUtf8 ((bytes.drop (offset + 4)).take (length.toNat - 1)) with
      | none => rfl
      | some text => rfl
    · rw [if_pos hterminator, if_pos fun h => hterminator (Option.some.inj h)]
      rfl
  · rw [if_pos (by omega), slice?_eq_none (by omega)]
    rfl

theorem readBsonBinary_returned (hoffset : offset < 2 ^ 32) :
    Checked.readBsonBinary bytes offset = returned (readBsonBinary bytes offset) := by
  unfold readBsonBinary
  refine bind_eq_returned (readI32_returned hoffset) (fun e h => by rw [h]) fun length h => ?_
  have hrange := readI32_range h
  rw [h]
  dsimp only
  split
  · rfl
  rw [checkedAdd_eq (by omega), okOr_some, returned_ok_bind,
    asUsize_of_nonneg (by omega) (by omega), checkedAdd_eq (by omega), okOr_some,
    returned_ok_bind]
  cases slice? bytes (offset + 5) (offset + 5 + length.toNat) with
  | none => rfl
  | some data => rfl

theorem readWord64?_returned (hoffset : offset < 2 ^ 32) :
    Checked.readWord64? bytes offset = returned (.ok (readDouble? bytes offset)) := by
  unfold Checked.readWord64? readDouble?
  rw [add_eq (by omega)]
  rfl

/-- A 64-bit integer, where there are eight bytes. -/
theorem readDouble?_signed64 :
    (readDouble? bytes offset).map signed64 = (readI64 bytes offset).toOption := by
  unfold readDouble? readI64 readWord
  cases slice? bytes offset (offset + 8) with
  | none => rfl
  | some word => rfl

theorem readBoolish_returned (hoffset : offset < 2 ^ 32) (elementType : UInt8) :
    Checked.readBoolish bytes offset elementType =
      returned (.ok (readBoolish bytes offset elementType)) := by
  unfold Checked.readBoolish readBoolish
  rw [readI32_returned hoffset, readWord64?_returned hoffset, ← readDouble?_signed64]
  split
  · rfl
  · rfl
  · rfl
  · rfl
  · simp [*]

theorem readI32ish_returned (hoffset : offset < 2 ^ 32) (elementType : UInt8) :
    Checked.readI32ish bytes offset elementType =
      returned (.ok (readI32ish bytes offset elementType)) := by
  unfold Checked.readI32ish readI32ish
  rw [readI32_returned hoffset, readWord64?_returned hoffset, ← readDouble?_signed64]
  split
  · rfl
  · rfl
  · rfl
  · simp [*]

theorem readU64ish_returned (hoffset : offset < 2 ^ 32) (elementType : UInt8) :
    Checked.readU64ish bytes offset elementType =
      returned (.ok (readU64ish bytes offset elementType)) := by
  unfold Checked.readU64ish readU64ish
  rw [readI32_returned hoffset, readWord64?_returned hoffset, ← readDouble?_signed64]
  split
  · rfl
  · rfl
  · rfl
  · simp [*]

private theorem requireContainer_returned (hbytes : bytes.length < 2 ^ 31) :
    Checked.requireContainer bytes =
      returned (if isContainer bytes then .ok () else .error .invalidBson) := by
  unfold Checked.requireContainer isContainer
  by_cases hlength : bytes.length < 5
  · rw [if_pos hlength, if_neg (by simp; omega)]
    rfl
  rw [if_neg hlength, readI32_returned (by decide)]
  obtain ⟨declared, hdeclared⟩ := exists_readI32 bytes 0 (by omega)
  have hrange := readI32_range hdeclared
  have hsize : asUsize declared = bytes.length ↔ declared = bytes.length := by
    unfold asUsize
    omega
  rw [hdeclared, returned_ok_bind]
  by_cases hsame : declared = bytes.length
  · rw [if_neg (not_not_intro (hsize.mpr hsame))]
    by_cases hlast : bytes.getLast? = some 0
    · rw [if_neg (not_not_intro hlast),
        if_pos (decide_eq_true ⟨by omega, congrArg some hsame, hlast⟩)]
      rfl
    · rw [if_pos hlast, if_neg (by simp [hlast])]
      rfl
  · rw [if_pos (fun h => hsame (hsize.mp h)),
      if_neg (by simp [Except.toOption, hsame])]
    rfl

/-- Go on with a container. -/
theorem requireContainer_bind {α : Type} {f : Unit → Outcome DecodeError α}
    {expected : Except DecodeError α} (hbytes : bytes.length < 2 ^ 31)
    (hf : 5 ≤ bytes.length → f () = returned expected) :
    (Checked.requireContainer bytes >>= f) =
      returned (if isContainer bytes then expected else .error .invalidBson) := by
  rw [requireContainer_returned hbytes]
  by_cases hcontainer : isContainer bytes
  · rw [if_pos hcontainer, if_pos hcontainer]
    exact hf (of_decide_eq_true hcontainer).1
  · rw [if_neg hcontainer, if_neg hcontainer]
    rfl

end Readers

end MongoDam.Protocol
