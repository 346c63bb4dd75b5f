import MongoDam.Protocol.Summary

/-!
# Readers are local

Every reader of the decoder looks at the bytes from its offset on, and at no more of
them than the value it reads takes. A reader can therefore be moved past any bytes in
front of its offset, an encoded value is read the same whatever follows it, and the
beginning of an encoded value is never mistaken for the whole.
-/

namespace MongoDam.Protocol

open Lib

/-- The bytes are exactly one NUL-terminated key. -/
def IsKey (bytes : Bytes) (key : String) : Prop := readCstring bytes 0 = .ok (key, bytes.length)

/-- The bytes are exactly one value of the element type. -/
def IsValue (elementType : UInt8) (bytes : Bytes) : Prop :=
  skipValue bytes 0 elementType = .ok bytes.length

instance (bytes : Bytes) (key : String) : Decidable (IsKey bytes key) :=
  inferInstanceAs (Decidable (_ = _))

instance (elementType : UInt8) (bytes : Bytes) : Decidable (IsValue elementType bytes) :=
  inferInstanceAs (Decidable (_ = _))

/-! ### Moving a reader past the bytes in front of it -/

theorem readWord_append_left (width : ℕ) (front rest : Bytes) (offset : ℕ) :
    readWord width (front ++ rest) (front.length + offset) = readWord width rest offset := by
  unfold readWord
  rw [Nat.add_assoc, slice?_append_left]

theorem readI32_append_left (front rest : Bytes) (offset : ℕ) :
    readI32 (front ++ rest) (front.length + offset) = readI32 rest offset := by
  unfold readI32
  rw [readWord_append_left]

theorem readI32_drop {bytes : Bytes} {offset : ℕ} (h : offset ≤ bytes.length) :
    readI32 (bytes.drop offset) 0 = readI32 bytes offset := by
  have hsplit := readI32_append_left (bytes.take offset) (bytes.drop offset) 0
  rw [List.take_append_drop, List.length_take, Nat.min_eq_left h] at hsplit
  exact hsplit.symm

theorem readI64_append_left (front rest : Bytes) (offset : ℕ) :
    readI64 (front ++ rest) (front.length + offset) = readI64 rest offset := by
  unfold readI64
  rw [readWord_append_left]

theorem readCstring_append_left (front rest : Bytes) (offset : ℕ) :
    readCstring (front ++ rest) (front.length + offset) =
      (readCstring rest offset).map (Prod.map id (front.length + ·)) := by
  unfold readCstring
  rw [sliceFrom?_append_left]
  split
  · rfl
  · split
    · rfl
    · split
      · rfl
      · simp only [Except.map, Prod.map, id, Nat.add_assoc]

theorem checkedEnd_append_left (front rest : Bytes) (stop : ℕ) :
    checkedEnd (front ++ rest) (front.length + stop) =
      (checkedEnd rest stop).map (front.length + ·) := by
  unfold checkedEnd
  rw [List.length_append]
  by_cases hstop : stop ≤ rest.length
  · rw [if_pos hstop, if_pos (by omega)]
    rfl
  · rw [if_neg hstop, if_neg (by omega)]
    rfl

theorem skipPrefixed_append_left (front rest : Bytes) (offset : ℕ) (least : ℤ) (extra : ℕ) :
    skipPrefixed (front ++ rest) (front.length + offset) least extra =
      (skipPrefixed rest offset least extra).map (front.length + ·) := by
  unfold skipPrefixed
  rw [readI32_append_left]
  split
  · rfl
  · split
    · rfl
    · rw [Nat.add_assoc, checkedEnd_append_left]

theorem skipValue_append_left (front rest : Bytes) (offset : ℕ) (elementType : UInt8) :
    skipValue (front ++ rest) (front.length + offset) elementType =
      (skipValue rest offset elementType).map (front.length + ·) := by
  unfold skipValue
  split
  · rw [Nat.add_assoc, checkedEnd_append_left]
  · split
    case h_8 =>
      -- a regular expression is two keys in a row
      rw [readCstring_append_left]
      cases readCstring rest offset with
      | error e => rfl
      | ok pattern =>
        dsimp only [Except.map, Prod.map]
        rw [readCstring_append_left]
        cases readCstring rest pattern.2 with
        | error e => rfl
        | ok options => rfl
    case h_10 => rfl
    all_goals exact skipPrefixed_append_left ..

theorem readBsonString_append_left (front rest : Bytes) (offset : ℕ) :
    readBsonString (front ++ rest) (front.length + offset) = readBsonString rest offset := by
  unfold readBsonString
  simp only [readI32_append_left, Nat.add_assoc, slice?_append_left]

theorem readBsonBinary_append_left (front rest : Bytes) (offset : ℕ) :
    readBsonBinary (front ++ rest) (front.length + offset) = readBsonBinary rest offset := by
  unfold readBsonBinary
  simp only [readI32_append_left, Nat.add_assoc, slice?_append_left]

theorem readDouble?_append_left (front rest : Bytes) (offset : ℕ) :
    readDouble? (front ++ rest) (front.length + offset) = readDouble? rest offset := by
  unfold readDouble?
  rw [Nat.add_assoc, slice?_append_left]

theorem getElem?_append_left (front rest : Bytes) (offset : ℕ) :
    (front ++ rest)[front.length + offset]? = rest[offset]? := by
  rw [List.getElem?_append_right (by omega), Nat.add_sub_cancel_left]

theorem readBoolish_append_left (front rest : Bytes) (offset : ℕ) (elementType : UInt8) :
    readBoolish (front ++ rest) (front.length + offset) elementType =
      readBoolish rest offset elementType := by
  unfold readBoolish
  simp only [readDouble?_append_left, getElem?_append_left, readI32_append_left,
    readI64_append_left]

theorem readI32ish_append_left (front rest : Bytes) (offset : ℕ) (elementType : UInt8) :
    readI32ish (front ++ rest) (front.length + offset) elementType =
      readI32ish rest offset elementType := by
  unfold readI32ish
  simp only [readDouble?_append_left, readI32_append_left, readI64_append_left]

theorem readU64ish_append_left (front rest : Bytes) (offset : ℕ) (elementType : UInt8) :
    readU64ish (front ++ rest) (front.length + offset) elementType =
      readU64ish rest offset elementType := by
  unfold readU64ish
  simp only [readDouble?_append_left, readI32_append_left, readI64_append_left]

/-! ### Reading a value whatever follows it -/

theorem readWord_append {width : ℕ} {bytes : Bytes} {offset : ℕ} (rest : Bytes)
    (h : offset + width ≤ bytes.length) :
    readWord width (bytes ++ rest) offset = readWord width bytes offset := by
  unfold readWord
  rw [slice?_append h]

theorem readWord_eq_ok {width : ℕ} {bytes : Bytes} {offset word : ℕ}
    (h : readWord width bytes offset = .ok word) : offset + width ≤ bytes.length := by
  unfold readWord slice? at h
  split at h
  · rename_i hslice
    split at hslice
    · omega
    · cases hslice
  · cases h

theorem readI32_eq_ok {bytes : Bytes} {offset : ℕ} {value : ℤ}
    (h : readI32 bytes offset = .ok value) : offset + 4 ≤ bytes.length := by
  unfold readI32 at h
  cases hword : readWord 4 bytes offset with
  | error e =>
    rw [hword] at h
    cases h
  | ok word => exact readWord_eq_ok hword

theorem readI32_append {bytes : Bytes} {offset : ℕ} (rest : Bytes)
    (h : offset + 4 ≤ bytes.length) :
    readI32 (bytes ++ rest) offset = readI32 bytes offset := by
  unfold readI32
  rw [readWord_append rest h]

theorem readI32_take {bytes : Bytes} {offset n : ℕ} (h : offset + 4 ≤ (bytes.take n).length) :
    readI32 (bytes.take n) offset = readI32 bytes offset := by
  rw [← readI32_append (bytes.drop n) h, List.take_append_drop]

theorem readU32_take {bytes : Bytes} {offset n : ℕ} (h : offset + 4 ≤ (bytes.take n).length) :
    readU32 (bytes.take n) offset = readU32 bytes offset := by
  unfold readU32
  rw [← readWord_append (bytes.drop n) h, List.take_append_drop]

theorem exists_readI32 (bytes : Bytes) (offset : ℕ) (h : offset + 4 ≤ bytes.length) :
    ∃ value, readI32 bytes offset = .ok value := by
  unfold readI32 readWord
  rw [slice?_eq_some (by omega) h]
  exact ⟨_, rfl⟩

theorem readI64_append {bytes : Bytes} {offset : ℕ} (rest : Bytes)
    (h : offset + 8 ≤ bytes.length) :
    readI64 (bytes ++ rest) offset = readI64 bytes offset := by
  unfold readI64
  rw [readWord_append rest h]

theorem readDouble?_append {bytes : Bytes} {offset : ℕ} (rest : Bytes)
    (h : offset + 8 ≤ bytes.length) :
    readDouble? (bytes ++ rest) offset = readDouble? bytes offset := by
  unfold readDouble?
  rw [slice?_append h]

theorem readCstring_append {bytes : Bytes} {offset : ℕ} {result : String × ℕ} (rest : Bytes)
    (h : readCstring bytes offset = .ok result) :
    readCstring (bytes ++ rest) offset = .ok result := by
  unfold readCstring sliceFrom? at h ⊢
  split at h
  · cases h
  · rename_i tail htail
    split at htail
    · rename_i hoffset
      have htail := Option.some.inj htail
      subst htail
      rw [if_pos (by rw [List.length_append]; omega), List.drop_append_of_le_length hoffset]
      dsimp only
      split at h
      · cases h
      · rename_i relativeEnd hfind
        have hlt := (List.findIdx?_eq_some_iff_findIdx_eq.mp hfind).1
        rw [List.findIdx?_append, hfind, Option.some_or]
        dsimp only
        rw [List.take_append_of_le_length (by omega)]
        exact h
    · cases htail

theorem checkedEnd_append {bytes : Bytes} {stop next : ℕ} (rest : Bytes)
    (h : checkedEnd bytes stop = .ok next) : checkedEnd (bytes ++ rest) stop = .ok next := by
  obtain ⟨rfl, hle⟩ := checkedEnd_eq_ok h
  unfold checkedEnd
  rw [if_pos (by rw [List.length_append]; omega)]

/-- What a value with a length prefix amounts to. -/
theorem skipPrefixed_eq_ok {bytes : Bytes} {offset next extra : ℕ} {least : ℤ}
    (h : skipPrefixed bytes offset least extra = .ok next) :
    ∃ length, readI32 bytes offset = .ok length ∧ least ≤ length ∧
      next = offset + (extra + length.toNat) ∧ next ≤ bytes.length := by
  unfold skipPrefixed at h
  split at h
  · cases h
  · rename_i length hread
    split at h
    · cases h
    · obtain ⟨rfl, hle⟩ := checkedEnd_eq_ok h
      exact ⟨length, hread, by omega, rfl, hle⟩

theorem skipPrefixed_append {bytes : Bytes} {offset next extra : ℕ} {least : ℤ} (rest : Bytes)
    (h : skipPrefixed bytes offset least extra = .ok next) :
    skipPrefixed (bytes ++ rest) offset least extra = .ok next := by
  obtain ⟨length, hread, hleast, rfl, hle⟩ := skipPrefixed_eq_ok h
  unfold skipPrefixed
  rw [readI32_append rest (readI32_eq_ok hread), hread]
  dsimp only
  rw [if_neg (by omega)]
  unfold checkedEnd
  rw [if_pos (by rw [List.length_append]; omega)]

theorem skipValue_append {bytes : Bytes} {offset next : ℕ} {elementType : UInt8} (rest : Bytes)
    (h : skipValue bytes offset elementType = .ok next) :
    skipValue (bytes ++ rest) offset elementType = .ok next := by
  unfold skipValue at h ⊢
  split at h
  · exact checkedEnd_append rest h
  · split at h
    case h_8 =>
      cases hpattern : readCstring bytes offset with
      | error e =>
        rw [hpattern] at h
        cases h
      | ok pattern =>
        rw [hpattern] at h
        dsimp only at h
        rw [readCstring_append rest hpattern]
        dsimp only
        cases hoptions : readCstring bytes pattern.2 with
        | error e =>
          rw [hoptions] at h
          cases h
        | ok options =>
          rw [hoptions] at h
          rw [readCstring_append rest hoptions]
          exact h
    case h_10 => cases h
    all_goals exact skipPrefixed_append rest h

/-- The beginning of a value is never read as a value. -/
theorem skipValue_take_ne_ok {bytes : Bytes} {offset next n : ℕ} {elementType : UInt8}
    (h : skipValue bytes offset elementType = .ok next) (hcut : n < next) (stop : ℕ) :
    skipValue (bytes.take n) offset elementType ≠ .ok stop := by
  intro hskip
  have hwhole := skipValue_append (bytes.drop n) hskip
  rw [List.take_append_drop, h] at hwhole
  have hle := (skipValue_le hskip).2
  have heq := Except.ok.inj hwhole
  rw [List.length_take] at hle
  omega

theorem readBsonString_value {value : Bytes} (rest : Bytes) (h : IsValue 0x02 value) :
    readBsonString (value ++ rest) 0 = readBsonString value 0 := by
  obtain ⟨length, hread, hleast, hend, hle⟩ := skipPrefixed_eq_ok (h : skipPrefixed value 0 1 4 = _)
  unfold readBsonString
  rw [readI32_append rest (readI32_eq_ok hread), hread]
  dsimp only
  rw [slice?_append (by omega)]

theorem readBsonBinary_value {value : Bytes} (rest : Bytes) (h : IsValue 0x05 value) :
    readBsonBinary (value ++ rest) 0 = readBsonBinary value 0 := by
  obtain ⟨length, hread, hleast, hend, hle⟩ := skipPrefixed_eq_ok (h : skipPrefixed value 0 0 5 = _)
  unfold readBsonBinary
  rw [readI32_append rest (readI32_eq_ok hread), hread]
  dsimp only
  rw [slice?_append (by omega)]

/-- A value of a type with a fixed length has that length. -/
theorem fixedLength_le {elementType : UInt8} {value : Bytes} {length : ℕ}
    (h : IsValue elementType value) (hfixed : fixedLength elementType = some length) :
    length ≤ value.length := by
  unfold IsValue skipValue at h
  rw [hfixed] at h
  have := checkedEnd_eq_ok h
  omega

theorem readBoolish_value {elementType : UInt8} {value : Bytes} (rest : Bytes)
    (h : IsValue elementType value) :
    readBoolish (value ++ rest) 0 elementType = readBoolish value 0 elementType := by
  unfold readBoolish
  split
  · rw [readDouble?_append rest (fixedLength_le h rfl)]
  · have hlength : 1 ≤ value.length := fixedLength_le h rfl
    rw [List.getElem?_append_left (by omega)]
  · rw [readI32_append rest (fixedLength_le h rfl)]
  · rw [readI64_append rest (fixedLength_le h rfl)]
  · rfl

theorem readI32ish_value {elementType : UInt8} {value : Bytes} (rest : Bytes)
    (h : IsValue elementType value) :
    readI32ish (value ++ rest) 0 elementType = readI32ish value 0 elementType := by
  unfold readI32ish
  split
  · rw [readI32_append rest (fixedLength_le h rfl)]
  · rw [readI64_append rest (fixedLength_le h rfl)]
  · rw [readDouble?_append rest (fixedLength_le h rfl)]
  · rfl

theorem readU64ish_value {elementType : UInt8} {value : Bytes} (rest : Bytes)
    (h : IsValue elementType value) :
    readU64ish (value ++ rest) 0 elementType = readU64ish value 0 elementType := by
  unfold readU64ish
  split
  · rw [readI32_append rest (fixedLength_le h rfl)]
  · rw [readI64_append rest (fixedLength_le h rfl)]
  · rw [readDouble?_append rest (fixedLength_le h rfl)]
  · rfl

/-! ### Elements -/

section

variable (nested : Option (Bytes → Except DecodeError BsonSummary))

theorem recordElement_append_left (front rest : Bytes) (ordinal : ℕ) (elementType : UInt8)
    (key : String) (valueStart : ℕ) (next : Option ℕ) (summary : BsonSummary) :
    recordElement nested (front ++ rest) ordinal elementType key (front.length + valueStart)
        (next.map (front.length + ·)) summary =
      recordElement nested rest ordinal elementType key valueStart next summary := by
  have hslice : (next.map (front.length + ·)).bind
      (slice? (front ++ rest) (front.length + valueStart)) =
        next.bind (slice? rest valueStart) := by
    cases next with
    | none => rfl
    | some stop => exact slice?_append_left ..
  unfold recordElement recordField recordFirst
  simp only [readBsonString_append_left, readBoolish_append_left, readI32ish_append_left,
    readU64ish_append_left, readBsonBinary_append_left, hslice]

theorem recordElement_value {elementType : UInt8} {value : Bytes} (rest : Bytes)
    (h : IsValue elementType value) (ordinal : ℕ) (key : String) (summary : BsonSummary) :
    recordElement nested (value ++ rest) ordinal elementType key 0 (some value.length) summary =
      recordElement nested value ordinal elementType key 0 (some value.length) summary := by
  have hslice : (some value.length).bind (slice? (value ++ rest) 0) =
      (some value.length).bind (slice? value 0) := slice?_append (Nat.le_refl _)
  unfold recordElement recordField recordFirst
  simp only [readBoolish_value rest h, readI32ish_value rest h, readU64ish_value rest h, hslice]
  by_cases hstring : elementType = 0x02
  · subst hstring
    simp only [readBsonString_value rest h]
    rfl
  · by_cases hbinary : elementType = 0x05
    · subst hbinary
      simp only [readBsonBinary_value rest h]
      rfl
    · simp only [if_neg hstring, if_neg hbinary]

/-! ### Element loops -/

theorem summarizeLoop_eq (document : Bytes) (offset ordinal : ℕ) (summary : BsonSummary) :
    summarizeLoop nested document offset ordinal summary =
      if offset < document.length - 1 then
        match readCstring document (offset + 1) with
        | .error e => .error e
        | .ok (key, afterKey) =>
          match skipValue document afterKey (document.getD offset 0) with
          | .error e => .error e
          | .ok next =>
            if document.length - 1 < next then .error .invalidBson
            else summarizeLoop nested document next (ordinal + 1)
              (recordElement nested document ordinal (document.getD offset 0) key afterKey
                (some next) summary)
      else .ok summary := by
  rw [summarizeLoop]
  by_cases hoffset : offset < document.length - 1
  · have helement : document.getD offset 0 = document[offset] :=
      (List.getElem_eq_getD 0).symm
    rw [dif_pos hoffset, if_pos hoffset, helement]
    split
    · rename_i hkey
      rw [hkey]
    · rename_i hkey
      rw [hkey]
      dsimp only
      split
      · rename_i hskip
        rw [hskip]
      · rename_i hskip
        rw [hskip]
  · rw [dif_neg hoffset, if_neg hoffset]

theorem getD_append_left (front rest : Bytes) (offset : ℕ) :
    (front ++ rest).getD (front.length + offset) 0 = rest.getD offset 0 := by
  rw [List.getD_eq_getElem?_getD, getElem?_append_left, List.getD_eq_getElem?_getD]

theorem summarizeLoop_append_left (front rest : Bytes) (offset ordinal : ℕ)
    (summary : BsonSummary) :
    summarizeLoop nested (front ++ rest) (front.length + offset) ordinal summary =
      summarizeLoop nested rest offset ordinal summary := by
  have hlength : (front ++ rest).length = front.length + rest.length := List.length_append
  fun_induction summarizeLoop nested rest offset ordinal summary with
  | case1 offset ordinal summary hoffset e hkey =>
    rw [summarizeLoop_eq, if_pos (by omega), Nat.add_assoc, readCstring_append_left, hkey]
    rfl
  | case2 offset ordinal summary hoffset key afterKey hkey e hskip =>
    rw [List.getElem_eq_getD 0] at hskip
    rw [summarizeLoop_eq, if_pos (by omega), Nat.add_assoc, readCstring_append_left, hkey]
    dsimp only [Except.map, Prod.map]
    rw [getD_append_left, skipValue_append_left, hskip]
    rfl
  | case3 offset ordinal summary hoffset key afterKey hkey next hskip hnext =>
    rw [List.getElem_eq_getD 0] at hskip
    rw [summarizeLoop_eq, if_pos (by omega), Nat.add_assoc, readCstring_append_left, hkey]
    dsimp only [Except.map, Prod.map]
    rw [getD_append_left, skipValue_append_left, hskip]
    dsimp only [Except.map]
    rw [if_pos (by omega)]
  | case4 offset ordinal summary hoffset key afterKey hkey next hskip hnext ih =>
    rw [← ih]
    rw [List.getElem_eq_getD 0] at hskip ⊢
    rw [summarizeLoop_eq, if_pos (by omega), Nat.add_assoc, readCstring_append_left, hkey]
    dsimp only [Except.map, Prod.map]
    rw [getD_append_left, skipValue_append_left, hskip]
    dsimp only [Except.map]
    rw [if_neg (by omega)]
    exact congrArg _ (recordElement_append_left nested front rest ordinal _ key afterKey
      (some next) summary)
  | case5 offset ordinal summary hend =>
    rw [summarizeLoop_eq, if_neg (by omega)]

end

theorem summarizePrefixLoop_eq (document : Bytes) (availableEnd offset ordinal : ℕ)
    (summary : BsonSummary) :
    summarizePrefixLoop document availableEnd offset ordinal summary =
      if offset < availableEnd then
        match document[offset]? with
        | none => summary
        | some elementType =>
          match readCstring document (offset + 1) with
          | .error _ => summary
          | .ok (key, afterKey) =>
            match skipValue document afterKey elementType with
            | .error _ =>
              recordElement (some (summarizeWith none)) document ordinal elementType key afterKey
                none summary
            | .ok next =>
              if afterKey < next ∧ next ≤ availableEnd then
                summarizePrefixLoop document availableEnd next (ordinal + 1)
                  (recordElement (some (summarizeWith none)) document ordinal elementType key
                    afterKey (some next) summary)
              else
                recordElement (some (summarizeWith none)) document ordinal elementType key afterKey
                  (some next) summary
      else summary := by
  rw [summarizePrefixLoop]
  split
  · cases document[offset]? with
    | none => rfl
    | some elementType =>
      dsimp only
      split
      · rename_i hkey
        rw [hkey]
      · rename_i key afterKey hkey
        cases hskip : skipValue document afterKey elementType with
        | error e => simp only [hkey, hskip]
        | ok next => simp only [hkey, hskip]
  · rfl

theorem summarizePrefixLoop_append_left (front rest : Bytes) (availableEnd offset ordinal : ℕ)
    (summary : BsonSummary) :
    summarizePrefixLoop (front ++ rest) (front.length + availableEnd) (front.length + offset)
        ordinal summary =
      summarizePrefixLoop rest availableEnd offset ordinal summary := by
  fun_induction summarizePrefixLoop rest availableEnd offset ordinal summary with
  | case1 offset ordinal summary hoffset hnone =>
    rw [summarizePrefixLoop_eq, if_pos (by omega), getElem?_append_left, hnone]
  | case2 offset ordinal summary hoffset elementType htype e hkey =>
    rw [summarizePrefixLoop_eq, if_pos (by omega), getElem?_append_left, htype]
    dsimp only
    rw [Nat.add_assoc, readCstring_append_left, hkey]
    rfl
  | case3 offset ordinal summary hoffset elementType htype key afterKey hkey e hskip =>
    rw [summarizePrefixLoop_eq, if_pos (by omega), getElem?_append_left, htype]
    dsimp only
    rw [Nat.add_assoc, readCstring_append_left, hkey]
    dsimp only [Except.map, Prod.map]
    rw [skipValue_append_left, hskip]
    exact recordElement_append_left _ front rest ordinal elementType key afterKey none summary
  | case4 offset ordinal summary hoffset elementType htype key afterKey hkey next hskip hnext ih =>
    rw [← ih, summarizePrefixLoop_eq, if_pos (by omega), getElem?_append_left, htype]
    dsimp only
    rw [Nat.add_assoc, readCstring_append_left, hkey]
    dsimp only [Except.map, Prod.map]
    rw [skipValue_append_left, hskip]
    dsimp only [Except.map]
    rw [if_pos (by omega)]
    exact congrArg _ (recordElement_append_left _ front rest ordinal elementType key afterKey
      (some next) summary)
  | case5 offset ordinal summary hoffset elementType htype key afterKey hkey next hskip hnext =>
    rw [summarizePrefixLoop_eq, if_pos (by omega), getElem?_append_left, htype]
    dsimp only
    rw [Nat.add_assoc, readCstring_append_left, hkey]
    dsimp only [Except.map, Prod.map]
    rw [skipValue_append_left, hskip]
    dsimp only [Except.map]
    rw [if_neg (by omega)]
    exact recordElement_append_left _ front rest ordinal elementType key afterKey
      (some next) summary
  | case6 offset ordinal summary hend =>
    rw [summarizePrefixLoop_eq, if_neg (by omega)]

end MongoDam.Protocol
