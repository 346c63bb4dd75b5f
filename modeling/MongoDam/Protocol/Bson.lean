import MongoDam.Lib.Double
import MongoDam.Protocol.Message

/-!
# BSON readers

The readers of the decoder work at an offset of a byte slice: NUL-terminated
keys, little-endian integers, strings, binary data, numbers in their accepted
encodings, and the end of a value of a given element type. Conversion to JSON
walks a document's elements and recurses into embedded documents and arrays.
-/

namespace MongoDam.Protocol

open Lib

/-! ### Scalars -/

/-- A little-endian word of `width` bytes at an offset. -/
def readWord (width : ℕ) (bytes : Bytes) (offset : ℕ) : Except DecodeError ℕ :=
  match slice? bytes offset (offset + width) with
  | some word => .ok (leNat word)
  | none => .error .truncated

def readI32 (bytes : Bytes) (offset : ℕ) : Except DecodeError ℤ :=
  (readWord 4 bytes offset).map signed32

def readU32 (bytes : Bytes) (offset : ℕ) : Except DecodeError ℕ := readWord 4 bytes offset

def readI64 (bytes : Bytes) (offset : ℕ) : Except DecodeError ℤ :=
  (readWord 8 bytes offset).map signed64

def readU64 (bytes : Bytes) (offset : ℕ) : Except DecodeError ℕ := readWord 8 bytes offset

/-- A NUL-terminated UTF-8 text and the offset behind its terminator. -/
def readCstring (bytes : Bytes) (offset : ℕ) : Except DecodeError (String × ℕ) :=
  match sliceFrom? bytes offset with
  | none => .error .invalidBson
  | some rest =>
    match rest.findIdx? (· == 0) with
    | none => .error .invalidBson
    | some relativeEnd =>
      match fromUtf8 (rest.take relativeEnd) with
      | none => .error .invalidBson
      | some value => .ok (value, offset + relativeEnd + 1)

/-- An end offset that must not pass the end of the bytes. -/
def checkedEnd (bytes : Bytes) (stop : ℕ) : Except DecodeError ℕ :=
  if stop ≤ bytes.length then .ok stop else .error .invalidBson

/-- The length of an element type's values when it is fixed. -/
def fixedLength (elementType : UInt8) : Option ℕ :=
  match elementType with
  | 0x01 | 0x09 | 0x11 | 0x12 => some 8
  | 0x07 => some 12
  | 0x08 => some 1
  | 0x0A | 0x06 | 0x7f | 0xff => some 0
  | 0x10 => some 4
  | 0x13 => some 16
  | _ => none

/-- A value whose 32-bit length prefix must be at least `least`, and which takes
`extra` bytes besides that length. -/
def skipPrefixed (bytes : Bytes) (offset : ℕ) (least : ℤ) (extra : ℕ) : Except DecodeError ℕ :=
  match readI32 bytes offset with
  | .error e => .error e
  | .ok length =>
    if length < least then .error .invalidBson
    else checkedEnd bytes (offset + (extra + length.toNat))

/-- The offset behind a value of the given element type. -/
def skipValue (bytes : Bytes) (offset : ℕ) (elementType : UInt8) : Except DecodeError ℕ :=
  match fixedLength elementType with
  | some length => checkedEnd bytes (offset + length)
  | none =>
    match elementType with
    | 0x02 | 0x0d | 0x0e => skipPrefixed bytes offset 1 4
    | 0x03 | 0x04 | 0x0f => skipPrefixed bytes offset 5 0
    | 0x05 => skipPrefixed bytes offset 0 5
    | 0x0b =>
      match readCstring bytes offset with
      | .error e => .error e
      | .ok (_, afterPattern) =>
        match readCstring bytes afterPattern with
        | .error e => .error e
        | .ok (_, afterOptions) => .ok afterOptions
    | 0x0c => skipPrefixed bytes offset 1 16
    | _ => .error .invalidBson

/-- A length-prefixed, NUL-terminated UTF-8 string. -/
def readBsonString (bytes : Bytes) (offset : ℕ) : Except DecodeError String :=
  match readI32 bytes offset with
  | .error e => .error e
  | .ok length =>
    if length < 1 then .error .invalidBson
    else
      match slice? bytes (offset + 4) (offset + 4 + length.toNat) with
      | none => .error .invalidBson
      | some value =>
        if value.getLast? ≠ some 0 then .error .invalidBson
        else
          match fromUtf8 value.dropLast with
          | none => .error .invalidBson
          | some text => .ok text

/-- Length-prefixed binary data behind its subtype byte. -/
def readBsonBinary (bytes : Bytes) (offset : ℕ) : Except DecodeError Bytes :=
  match readI32 bytes offset with
  | .error e => .error e
  | .ok length =>
    if length < 0 then .error .invalidBson
    else
      match slice? bytes (offset + 5) (offset + 5 + length.toNat) with
      | none => .error .invalidBson
      | some data => .ok data

/-- The bits of a double at an offset. -/
def readDouble? (bytes : Bytes) (offset : ℕ) : Option ℕ :=
  (slice? bytes offset (offset + 8)).map leNat

/-- A truth value in any of its accepted encodings. -/
def readBoolish (bytes : Bytes) (offset : ℕ) (elementType : UInt8) : Option Bool :=
  match elementType with
  | 0x01 => (readDouble? bytes offset).map (fun bits => !Double.isZero bits)
  | 0x08 => bytes[offset]?.map (fun value => value ≠ 0)
  | 0x10 => (readI32 bytes offset).toOption.map (fun value => value ≠ 0)
  | 0x12 => (readI64 bytes offset).toOption.map (fun value => value ≠ 0)
  | _ => none

/-- A 32-bit integer in any of its accepted encodings. -/
def readI32ish (bytes : Bytes) (offset : ℕ) (elementType : UInt8) : Option ℤ :=
  match elementType with
  | 0x10 => (readI32 bytes offset).toOption
  | 0x12 => (readI64 bytes offset).toOption.filter (fun value => -2 ^ 31 ≤ value ∧ value < 2 ^ 31)
  | 0x01 => (readDouble? bytes offset).bind Double.toI32?
  | _ => none

/-- A 64-bit natural number in any of its accepted encodings. -/
def readU64ish (bytes : Bytes) (offset : ℕ) (elementType : UInt8) : Option ℕ :=
  match elementType with
  | 0x10 => ((readI32 bytes offset).toOption.filter (fun value => 0 ≤ value)).map Int.toNat
  | 0x12 => ((readI64 bytes offset).toOption.filter (fun value => 0 ≤ value)).map Int.toNat
  | 0x01 => (readDouble? bytes offset).bind Double.toU64?
  | _ => none

/-- The outer shape of a document or array: its length prefix counts its bytes,
and it ends with a NUL. -/
def isContainer (document : Bytes) : Bool :=
  decide (5 ≤ document.length ∧ (readI32 document 0).toOption = some (document.length : ℤ) ∧
    document.getLast? = some 0)

/-! ### Readers advance -/

theorem readCstring_lt {bytes : Bytes} {offset afterKey : ℕ} {key : String}
    (h : readCstring bytes offset = .ok (key, afterKey)) :
    offset < afterKey ∧ afterKey ≤ bytes.length := by
  unfold readCstring sliceFrom? at h
  split at h
  · cases h
  · rename_i rest hrest
    split at hrest
    · have hrest := Option.some.inj hrest
      subst hrest
      split at h
      · cases h
      · rename_i relativeEnd hfind
        have hlt := (List.findIdx?_eq_some_iff_findIdx_eq.mp hfind).1
        rw [List.length_drop] at hlt
        split at h
        · cases h
        · have heq := congrArg Prod.snd (Except.ok.inj h)
          dsimp only at heq
          omega
    · cases hrest

theorem checkedEnd_eq_ok {bytes : Bytes} {stop next : ℕ} (h : checkedEnd bytes stop = .ok next) :
    next = stop ∧ stop ≤ bytes.length := by
  unfold checkedEnd at h
  split at h
  · rename_i hle
    exact ⟨(Except.ok.inj h).symm, hle⟩
  · cases h

theorem skipPrefixed_le {bytes : Bytes} {offset next extra : ℕ} {least : ℤ}
    (h : skipPrefixed bytes offset least extra = .ok next) :
    offset ≤ next ∧ next ≤ bytes.length := by
  unfold skipPrefixed at h
  split at h
  · cases h
  · split at h
    · cases h
    · have := checkedEnd_eq_ok h
      omega

theorem skipValue_le {bytes : Bytes} {offset next : ℕ} {elementType : UInt8}
    (h : skipValue bytes offset elementType = .ok next) :
    offset ≤ next ∧ next ≤ bytes.length := by
  unfold skipValue at h
  split at h
  · have := checkedEnd_eq_ok h
    omega
  · split at h
    · exact skipPrefixed_le h
    · exact skipPrefixed_le h
    · exact skipPrefixed_le h
    · exact skipPrefixed_le h
    · exact skipPrefixed_le h
    · exact skipPrefixed_le h
    · exact skipPrefixed_le h
    · split at h
      · cases h
      · rename_i hpattern
        split at h
        · cases h
        · rename_i hoptions
          have hpattern := readCstring_lt hpattern
          have hoptions := readCstring_lt hoptions
          have heq := Except.ok.inj h
          omega
    · exact skipPrefixed_le h
    · cases h

/-! ### Regular expressions -/

/-- A regular expression is skipped by reading its two texts. -/
theorem skipValue_regularExpression (bytes : Bytes) (offset : ℕ) :
    skipValue bytes offset 0x0b = (do
      let pattern ← readCstring bytes offset
      let options ← readCstring bytes pattern.2
      return options.2) := by
  cases hpattern : readCstring bytes offset with
  | error e => simp [skipValue, fixedLength, hpattern, bind, Except.bind]
  | ok pattern =>
    cases hoptions : readCstring bytes pattern.2 <;>
      simp [skipValue, fixedLength, hpattern, hoptions, bind, Except.bind, pure, Except.pure]

theorem skipValue_regularExpression_eq_ok {bytes : Bytes} {offset stop : ℕ} :
    skipValue bytes offset 0x0b = .ok stop ↔
      ∃ pattern afterPattern options, readCstring bytes offset = .ok (pattern, afterPattern) ∧
        readCstring bytes afterPattern = .ok (options, stop) := by
  rw [skipValue_regularExpression]
  constructor
  · intro h
    cases hpattern : readCstring bytes offset with
    | error e =>
      rw [hpattern] at h
      cases h
    | ok pattern =>
      obtain ⟨text, afterPattern⟩ := pattern
      rw [hpattern] at h
      change (do
        let options ← readCstring bytes afterPattern
        return options.2) = _ at h
      cases hoptions : readCstring bytes afterPattern with
      | error e =>
        rw [hoptions] at h
        cases h
      | ok options =>
        rw [hoptions] at h
        cases h
        exact ⟨text, afterPattern, options.1, rfl, hoptions⟩
  · rintro ⟨pattern, afterPattern, options, hpattern, hoptions⟩
    rw [hpattern]
    change (do
      let options ← readCstring bytes afterPattern
      return options.2) = _
    rw [hoptions]
    rfl

end MongoDam.Protocol
