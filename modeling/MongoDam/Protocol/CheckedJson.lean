import MongoDam.Protocol.CheckedBson

/-!
# JSON conversion that may panic

The conversion to JSON with its index, slice and overflow checks. Containers nest to a
bounded depth, and the loop over the elements of each has a bounded number of rounds;
one more than the bytes of the document is enough for both.
-/

namespace MongoDam.Protocol

open Lib Outcome

namespace Checked

def DIGITS : List Char := "0123456789abcdef".toList

/-- Append the two digits of a byte. -/
def pushHex (encoded : List Char) (byte : UInt8) : Outcome DecodeError (List Char) := do
  let high ← index DIGITS (byte.toNat / 16)
  let low ← index DIGITS (byte.toNat % 16)
  return encoded ++ [high, low]

def encodeHex (bytes : Bytes) : Outcome DecodeError String := do
  -- the capacity of the text
  let _ ← mul bytes.length 2
  return String.ofList (← bytes.foldlM pushHex [])

/-- `bytes.get(start..stop).ok_or(InvalidBson)?`. -/
def getRange (bytes : Bytes) (start stop : ℕ) : Outcome DecodeError Bytes :=
  okOr .invalidBson (slice? bytes start stop)

/-- `nested` converts an embedded document or, with `true`, an embedded array. -/
def bsonPayloadToJson (nested : Bytes → Bool → Outcome DecodeError JsonValue) (bytes : Bytes)
    (offset stop : ℕ) (elementType : UInt8) : Outcome DecodeError JsonValue :=
  match elementType with
  | 0x01 => do return jsonDouble (leNat (← getRange bytes offset stop))
  | 0x02 => do return .string (← readBsonString bytes offset)
  | 0x03 => do nested (← getRange bytes offset stop) false
  | 0x04 => do nested (← getRange bytes offset stop) true
  | 0x05 => do
    let subtype ← okOr .invalidBson bytes[← add offset 4]?
    let data ← readBsonBinary bytes offset
    return tagged "$binary" (.ofMembers [("hex", .string (← encodeHex data)),
      ("subType", .string (hexPadded 2 subtype.toNat))])
  | 0x06 => return tagged "$undefined" (.bool true)
  | 0x07 => do return tagged "$oid" (.string (← encodeHex (← getRange bytes offset stop)))
  | 0x08 => do return .bool ((← okOr .invalidBson bytes[offset]?) ≠ 0)
  | 0x09 => do
    let value ← readI64 bytes offset
    return tagged "$date" (tagged "$numberLong" (.string (toString value)))
  | 0x0a => return .null
  | 0x0b => do
    let (pattern, afterPattern) ← readCstring bytes offset
    let (options, _) ← readCstring bytes afterPattern
    return tagged "$regularExpression"
      (.ofMembers [("pattern", .string pattern), ("options", .string options)])
  | 0x0c => do
    let collection ← readBsonString bytes offset
    let namespaceLength ← readI32 bytes offset
    let objectIdStart ← add (← add offset 4) (asUsize namespaceLength)
    let objectId ← getRange bytes objectIdStart stop
    return tagged "$dbPointer"
      (.ofMembers [("$ref", .string collection), ("$id", .string (← encodeHex objectId))])
  | 0x0d => do return tagged "$code" (.string (← readBsonString bytes offset))
  | 0x0e => do return tagged "$symbol" (.string (← readBsonString bytes offset))
  | 0x10 => do return jsonInt (← readI32 bytes offset)
  | 0x11 => do
    let value ← readU64 bytes offset
    return tagged "$timestamp" (.ofMembers [("t", jsonInt ((value / 2 ^ 32 : ℕ) : ℤ)),
      ("i", jsonInt ((value % 2 ^ 32 : ℕ) : ℤ))])
  | 0x12 => do return jsonInt (← readI64 bytes offset)
  | 0x13 => do
    return tagged "$numberDecimalBytes" (.string (← encodeHex (← getRange bytes offset stop)))
  | 0x7f => return tagged "$maxKey" (jsonInt 1)
  | 0xff => return tagged "$minKey" (jsonInt 1)
  | _ => fail .invalidBson

def bsonValueToJson (nested : Bytes → Bool → Outcome DecodeError JsonValue) (bytes : Bytes)
    (offset : ℕ) (elementType : UInt8) : Outcome DecodeError (JsonValue × ℕ) := do
  let stop ← skipValue bytes offset elementType
  let value ← bsonPayloadToJson nested bytes offset stop elementType
  return (value, stop)

/-- A round of the element loop of `bsonContainerToJson`. -/
def elementsRound (nested : Bytes → Bool → Outcome DecodeError JsonValue) (document : Bytes)
    (array : Bool) (state : ℕ × List (String × JsonValue) × List JsonValue) :
    Outcome DecodeError ((ℕ × List (String × JsonValue) × List JsonValue) ⊕ JsonValue) := do
  let (offset, object, values) := state
  if offset < (← sub document.length 1) then
    let elementType ← index document offset
    let (key, afterKey) ← readCstring document (← add offset 1)
    let (value, next) ← bsonValueToJson nested document afterKey elementType
    if (← sub document.length 1) < next then fail .invalidBson
    else if array then return .inl (next, object, values ++ [value])
    else return .inl (next, JsonValue.insertMember key value object, values)
  else return .inr (if array then .array values else .object object)

/-- Containers may be nested to the given depth, and every loop has the given rounds. -/
def bsonContainerToJson (rounds : ℕ) : ℕ → Bytes → Bool → Outcome DecodeError JsonValue
  | 0, _, _ => unfinished
  | depth + 1, document, array => do
    requireContainer document
    loop (elementsRound (bsonContainerToJson rounds depth) document array) rounds (4, [], [])

def bsonDocumentToJson (fuel : ℕ) (document : Bytes) : Outcome DecodeError JsonValue :=
  bsonContainerToJson fuel fuel document false

/-- The document at an offset of a sequence, and the offset behind it. -/
def nextDocument (documents : Bytes) (offset : ℕ) : Outcome DecodeError (Bytes × ℕ) := do
  let length ← readI32 documents offset
  if length < 5 then fail .invalidBson
  else
    let stop ← checkedEnd documents offset (asUsize length)
    return (← slice documents offset stop, stop)

/-- A round of the loop of `bsonDocumentSequenceToJson`. -/
def documentSequenceRound (fuel : ℕ) (documents : Bytes) (state : ℕ × List JsonValue) :
    Outcome DecodeError ((ℕ × List JsonValue) ⊕ List JsonValue) := do
  let (offset, result) := state
  if offset < documents.length then
    let (document, stop) ← nextDocument documents offset
    let value ← bsonDocumentToJson fuel document
    return .inl (stop, result ++ [value])
  else return .inr result

def bsonDocumentSequenceToJson (fuel : ℕ) (documents : Bytes) :
    Outcome DecodeError (List JsonValue) :=
  loop (documentSequenceRound fuel documents) fuel (0, [])

end Checked

/-! ### Hexadecimal texts -/

theorem index_DIGITS {value : ℕ} (h : value < 16) :
    (index Checked.DIGITS value : Outcome DecodeError Char) = returned (.ok (hexDigit value)) := by
  have hlength : Checked.DIGITS.length = 16 := by decide
  rw [index_eq (by omega), List.getElem_eq_getD '0']
  rfl

theorem pushHex_returned (encoded : List Char) (byte : UInt8) :
    Checked.pushHex encoded byte =
      returned (.ok (encoded ++ [hexDigit (byte.toNat / 16), hexDigit (byte.toNat % 16)])) := by
  have hbyte := byte.toNat_lt
  unfold Checked.pushHex
  rw [index_DIGITS (by omega), returned_ok_bind, index_DIGITS (by omega)]
  rfl

theorem foldlM_pushHex (bytes : Bytes) (encoded : List Char) :
    bytes.foldlM Checked.pushHex encoded = returned (.ok (encoded ++
      bytes.flatMap fun b => [hexDigit (b.toNat / 16), hexDigit (b.toNat % 16)])) := by
  induction bytes generalizing encoded with
  | nil => exact congrArg (fun e => returned (.ok e)) (List.append_nil _).symm
  | cons b bs ih =>
    rw [List.foldlM_cons, pushHex_returned, returned_ok_bind, ih, List.flatMap_cons,
      List.append_assoc]

theorem encodeHex_returned {bytes : Bytes} (hbytes : bytes.length < 2 ^ 31) :
    Checked.encodeHex bytes = returned (.ok (encodeHex bytes)) := by
  unfold Checked.encodeHex
  rw [mul_eq (by omega), returned_ok_bind, foldlM_pushHex]
  rfl

/-! ### Values -/

section Json

variable {bytes : Bytes} {offset stop : ℕ} {elementType : UInt8}
  {nested : Bytes → Bool → Outcome DecodeError JsonValue}
  {convert : Bytes → Bool → Except DecodeError JsonValue}

theorem getRange_returned : Checked.getRange bytes offset stop =
    returned (sliceBson bytes offset stop) := by
  unfold Checked.getRange sliceBson
  cases slice? bytes offset stop with
  | none => rfl
  | some value => rfl

theorem sliceBson_length_le {value : Bytes} (h : sliceBson bytes offset stop = .ok value) :
    value.length ≤ bytes.length - offset := by
  obtain ⟨hle, hstop, -⟩ := sliceBson_eq_ok.mp h
  rw [sliceBson_length h]
  omega

/-- The hexadecimal text of a slice. -/
theorem sliceHex_returned (hbytes : bytes.length < 2 ^ 31) (f : String → JsonValue) :
    (do return f (← Checked.encodeHex (← Checked.getRange bytes offset stop))) =
      returned (do return f (encodeHex (← sliceBson bytes offset stop))) := by
  refine bind_returned getRange_returned fun value hvalue => ?_
  have hlength := sliceBson_length_le hvalue
  rw [encodeHex_returned (by omega)]
  rfl

theorem readBsonString_pos {text : String} (h : readBsonString bytes offset = .ok text) :
    ∃ length, readI32 bytes offset = .ok length ∧ 1 ≤ length := by
  unfold readBsonString at h
  split at h
  · cases h
  · rename_i length hlength
    split at h
    · cases h
    · exact ⟨length, hlength, by omega⟩

theorem readBsonBinary_length_le {data : Bytes} (h : readBsonBinary bytes offset = .ok data) :
    data.length ≤ bytes.length := by
  unfold readBsonBinary at h
  split at h
  · cases h
  split at h
  · cases h
  split at h
  · cases h
  · rename_i hslice
    cases h
    have hstop : ¬bytes.length < offset + 5 + _ := fun h => by
      cases (slice?_eq_none h).symm.trans hslice
    rw [slice?_length hslice]
    omega

theorem bsonPayloadToJson_returned (hbytes : bytes.length < 2 ^ 31) (hoffset : offset < 2 ^ 32)
    (hnested : ∀ value asArray, sliceBson bytes offset stop = .ok value →
      nested value asArray = returned (convert value asArray)) :
    Checked.bsonPayloadToJson nested bytes offset stop elementType =
      returned (bsonPayloadToJson bytes offset stop elementType
        fun value _ asArray => convert value asArray) := by
  have hcontainer : ∀ {result : Except DecodeError JsonValue} (asArray : Bool),
      (∀ e, sliceBson bytes offset stop = .error e → result = .error e) →
      (∀ value, sliceBson bytes offset stop = .ok value → result = convert value asArray) →
      (do nested (← Checked.getRange bytes offset stop) asArray) = returned result := by
    intro result asArray herror hvalue
    refine bind_eq_returned getRange_returned herror fun value h => ?_
    rw [hnested value asArray h, hvalue value h]
  unfold bsonPayloadToJson
  split
  · exact bind_returned getRange_returned fun _ _ => rfl
  · exact bind_returned (readBsonString_returned hoffset) fun _ _ => rfl
  · dsimp only
    exact hcontainer false (fun e h => by rw [h]) fun value h => by rw [h]
  · dsimp only
    exact hcontainer true (fun e h => by rw [h]) fun value h => by rw [h]
  · refine bind_eq_returned (add_eq (by omega : offset + 4 < 2 ^ 64)) (fun e h => by cases h)
      fun place hplace => ?_
    cases hplace
    cases bytes[offset + 4]? with
    | none => rfl
    | some subtype =>
      refine bind_returned (readBsonBinary_returned hoffset) fun data hdata => ?_
      have hlength := readBsonBinary_length_le hdata
      rw [encodeHex_returned (by omega)]
      rfl
  · rfl
  · exact sliceHex_returned hbytes _
  · change (do return JsonValue.bool ((← okOr DecodeError.invalidBson bytes[offset]?) ≠ 0)) = _
    cases bytes[offset]? with
    | none => rfl
    | some value => rfl
  · exact bind_returned (readI64_returned hoffset) fun _ _ => rfl
  · rfl
  · refine bind_returned (readCstring_returned hbytes) ?_
    rintro ⟨pattern, afterPattern⟩ -
    exact bind_returned (readCstring_returned hbytes) fun _ _ => rfl
  · refine bind_returned (readBsonString_returned hoffset) fun text htext => ?_
    obtain ⟨length, hlength, hpos⟩ := readBsonString_pos htext
    refine bind_returned (readI32_returned hoffset) fun namespaceLength hread => ?_
    cases hlength.symm.trans hread
    have hrange := readI32_range hlength
    rw [add_eq (by omega), returned_ok_bind, asUsize_of_nonneg (by omega) (by omega),
      add_eq (by omega), returned_ok_bind]
    exact sliceHex_returned hbytes _
  · exact bind_returned (readBsonString_returned hoffset) fun _ _ => rfl
  · exact bind_returned (readBsonString_returned hoffset) fun _ _ => rfl
  · exact bind_returned (readI32_returned hoffset) fun _ _ => rfl
  · exact bind_returned (readU64_returned hoffset) fun _ _ => rfl
  · exact bind_returned (readI64_returned hoffset) fun _ _ => rfl
  · exact sliceHex_returned hbytes _
  · rfl
  · rfl
  · unfold Checked.bsonPayloadToJson
    split
    all_goals first | rfl | contradiction

theorem bsonValueToJson_returned (hbytes : bytes.length < 2 ^ 31) (hoffset : offset < 2 ^ 32)
    (hnested : ∀ value asArray, value.length ≤ bytes.length - offset →
      nested value asArray = returned (convert value asArray)) :
    Checked.bsonValueToJson nested bytes offset elementType =
      returned (bsonValueToJson bytes offset elementType
        fun value _ asArray => convert value asArray) := by
  unfold bsonValueToJson
  refine bind_eq_returned (skipValue_returned hbytes hoffset elementType) (fun e h => ?_)
    fun stop h => ?_
  · split
    · rename_i h'
      cases h'.symm.trans h
      rfl
    · rename_i h'
      cases h'.symm.trans h
  · split
    · rename_i h'
      cases h'.symm.trans h
    · rename_i h'
      cases h'.symm.trans h
      refine bind_eq_returned (bsonPayloadToJson_returned hbytes hoffset fun value asArray hvalue =>
        hnested value asArray (sliceBson_length_le hvalue)) (fun e h => by rw [h]) fun value h => ?_
      rw [h]
      rfl

end Json

/-! ### Containers -/

section Containers

variable {document : Bytes} {array : Bool}

/-- One element, and the elements behind it. -/
theorem bsonElementsToJson_step {offset : ℕ} {object : List (String × JsonValue)}
    {values : List JsonValue} (hinside : offset < document.length)
    (hoffset : offset < document.length - 1) :
    bsonElementsToJson document array offset object values = (do
      let (key, afterKey) ← readCstring document (offset + 1)
      let (value, next) ← bsonValueToJson document afterKey (document[offset])
        fun value _ asArray => bsonContainerToJson value asArray
      if document.length - 1 < next then .error .invalidBson
      else if array then bsonElementsToJson document array next object (values ++ [value])
      else
        bsonElementsToJson document array next (JsonValue.insertMember key value object)
          values) := by
  rw [bsonElementsToJson, dif_pos hoffset]
  split
  · rename_i hkey
    rw [hkey]
    rfl
  · rename_i key afterKey hkey
    rw [hkey]
    dsimp only [bind, Except.bind]
    split
    · rename_i hvalue
      rw [show bsonValueToJson document afterKey (document[offset]) (fun value _ asArray =>
        bsonContainerToJson value asArray) = _ from hvalue]
    · rename_i hvalue
      rw [show bsonValueToJson document afterKey (document[offset]) (fun value _ asArray =>
        bsonContainerToJson value asArray) = _ from hvalue]

theorem elementsRound_follows {nested : Bytes → Bool → Outcome DecodeError JsonValue}
    (hdocument : document.length < 2 ^ 31) (hpos : 1 ≤ document.length)
    (hnested : ∀ value asArray, value.length < document.length →
      nested value asArray = returned (bsonContainerToJson value asArray))
    (state : ℕ × List (String × JsonValue) × List JsonValue) (hstate : state.1 ≤ document.length) :
    Follows (fun state => bsonElementsToJson document array state.1 state.2.1 state.2.2)
      (fun next => next.1 ≤ document.length ∧
        document.length - next.1 < document.length - state.1)
      (bsonElementsToJson document array state.1 state.2.1 state.2.2)
      (Checked.elementsRound nested document array state) := by
  obtain ⟨offset, object, values⟩ := state
  unfold Checked.elementsRound
  dsimp only at hstate ⊢
  rw [sub_eq hpos, returned_ok_bind]
  by_cases hoffset : offset < document.length - 1
  · rw [if_pos hoffset, index_eq (by omega), returned_ok_bind, add_eq (by omega), returned_ok_bind,
      bsonElementsToJson_step (by omega) hoffset]
    refine Follows.bind (readCstring_returned hdocument) ?_
    rintro ⟨key, afterKey⟩ hkey
    have hafter := readCstring_lt hkey
    refine Follows.bind (bsonValueToJson_returned hdocument (by omega) fun value asArray hvalue =>
      hnested value asArray (by omega)) ?_
    rintro ⟨value, next⟩ hvalue
    have hskip := skipValue_le (bsonValueToJson_next hvalue)
    dsimp only
    rw [returned_ok_bind]
    by_cases hnext : document.length - 1 < next
    · rw [if_pos hnext, if_pos hnext]
      rfl
    · rw [if_neg hnext, if_neg hnext]
      cases array with
      | true => exact Follows.advance (object, values ++ [value]) (by omega) (by omega) hskip.2
      | false =>
        exact Follows.advance (JsonValue.insertMember key value object, values) (by omega)
          (by omega) hskip.2
  · rw [if_neg hoffset, bsonElementsToJson, dif_neg hoffset]
    rfl

theorem bsonContainerToJson_returned {rounds depth : ℕ} (hdocument : document.length < 2 ^ 31)
    (hrounds : document.length < rounds) (hdepth : document.length < depth) :
    Checked.bsonContainerToJson rounds depth document array =
      returned (bsonContainerToJson document array) := by
  induction depth generalizing document array with
  | zero => exact absurd hdepth (Nat.not_lt_zero _)
  | succ depth ih =>
    refine requireContainer_bind hdocument fun hfive => ?_
    exact loop_returned (elementsRound_follows hdocument (by omega) fun value asArray hvalue =>
      ih (by omega) (by omega) (by omega)) (by dsimp only; omega) (by dsimp only; omega)

theorem bsonDocumentToJson_returned {fuel : ℕ} (hdocument : document.length < 2 ^ 31)
    (hfuel : document.length < fuel) :
    Checked.bsonDocumentToJson fuel document = returned (bsonDocumentToJson document) :=
  bsonContainerToJson_returned hdocument hfuel hfuel

end Containers

/-! ### Document sequences -/

section Sequences

variable {documents : Bytes} {offset : ℕ}

/-- The document at an offset of a sequence, and the offset behind it. -/
def nextDocument (documents : Bytes) (offset : ℕ) : Except DecodeError (Bytes × ℕ) := do
  let length ← readI32 documents offset
  if length < 5 then .error .invalidBson
  else
    let document ← sliceBson documents offset (offset + length.toNat)
    return (document, offset + length.toNat)

theorem nextDocument_returned (hdocuments : documents.length < 2 ^ 31)
    (hoffset : offset ≤ documents.length) :
    Checked.nextDocument documents offset = returned (nextDocument documents offset) := by
  refine bind_returned (readI32_returned (by omega)) fun length h => ?_
  have hrange := readI32_range h
  split
  · rfl
  rw [asUsize_of_nonneg (by omega) (by omega), checkedEnd_returned (by omega)]
  unfold checkedEnd sliceBson
  by_cases hstop : offset + length.toNat ≤ documents.length
  · rw [if_pos hstop, returned_ok_bind, slice_eq (by omega) hstop,
      slice?_eq_some (by omega) hstop]
    rfl
  · rw [if_neg hstop, slice?_eq_none (by omega)]
    rfl

/-- The document lies inside the sequence, and takes bytes. -/
theorem nextDocument_lt {document : Bytes} {stop : ℕ}
    (h : nextDocument documents offset = .ok (document, stop)) :
    offset < stop ∧ stop ≤ documents.length ∧ document.length = stop - offset := by
  unfold nextDocument at h
  cases hlength : readI32 documents offset with
  | error e =>
    rw [hlength] at h
    cases h
  | ok length =>
    rw [hlength] at h
    dsimp only [bind, Except.bind] at h
    split at h
    · cases h
    · split at h
      · cases h
      · rename_i hslice
        cases h
        have hinside := sliceBson_eq_ok.mp hslice
        exact ⟨by omega, hinside.2.1, sliceBson_length hslice⟩

/-- A loop over the documents of a sequence, as the total functions write it. -/
theorem nextDocument_bind {α : Type} (documents : Bytes) (offset : ℕ)
    (f : Bytes → Except DecodeError α) {β : Type} (k : α → ℕ → Except DecodeError β) :
    (do
      let (document, stop) ← nextDocument documents offset
      let value ← f document
      k value stop) =
      match readI32 documents offset with
      | .error e => .error e
      | .ok length =>
        if length < 5 then .error .invalidBson
        else if documents.length < offset + length.toNat then .error .invalidBson
        else
          match sliceBson documents offset (offset + length.toNat) >>= f with
          | .error e => .error e
          | .ok value => k value (offset + length.toNat) := by
  unfold nextDocument
  cases readI32 documents offset with
  | error e => rfl
  | ok length =>
    by_cases hleast : length < 5
    · simp only [bind, Except.bind, if_pos hleast]
    by_cases hstop : offset + length.toNat ≤ documents.length
    · have hslice := sliceBson_eq_ok.mpr ⟨Nat.le_add_right offset length.toNat, hstop, rfl⟩
      simp only [bind, Except.bind, if_neg hleast, if_neg (Nat.not_lt_of_le hstop), hslice, pure,
        Except.pure]
      cases f _ with
      | error e => rfl
      | ok value => rfl
    · have hslice : sliceBson documents offset (offset + length.toNat) = .error .invalidBson := by
        rw [sliceBson, slice?_eq_none (Nat.lt_of_not_le hstop)]
      simp only [bind, Except.bind, if_neg hleast, if_pos (Nat.lt_of_not_le hstop), hslice]

theorem documentSequenceLoop_step {result : List JsonValue}
    (hoffset : offset < documents.length) :
    documentSequenceLoop documents offset result = (do
      let (document, stop) ← nextDocument documents offset
      let value ← bsonDocumentToJson document
      documentSequenceLoop documents stop (result ++ [value])) := by
  rw [documentSequenceLoop, if_pos hoffset]
  refine Eq.trans ?_ (nextDocument_bind documents offset bsonDocumentToJson fun value stop =>
    documentSequenceLoop documents stop (result ++ [value])).symm
  cases readI32 documents offset with
  | error e => rfl
  | ok length =>
    dsimp only
    cases (sliceBson documents offset (offset + length.toNat) >>= bsonDocumentToJson) with
    | error e => rfl
    | ok value => rfl

theorem documentSequenceRound_follows {fuel : ℕ} (hdocuments : documents.length < 2 ^ 31)
    (hfuel : documents.length < fuel) (state : ℕ × List JsonValue)
    (hstate : state.1 ≤ documents.length) :
    Follows (fun state => documentSequenceLoop documents state.1 state.2)
      (fun next => next.1 ≤ documents.length ∧
        documents.length - next.1 < documents.length - state.1)
      (documentSequenceLoop documents state.1 state.2)
      (Checked.documentSequenceRound fuel documents state) := by
  obtain ⟨offset, result⟩ := state
  unfold Checked.documentSequenceRound
  dsimp only at hstate ⊢
  by_cases hoffset : offset < documents.length
  · rw [if_pos hoffset, documentSequenceLoop_step hoffset]
    refine Follows.bind (nextDocument_returned hdocuments hstate) ?_
    rintro ⟨document, stop⟩ hnext
    obtain ⟨hlt, hstop, hlength⟩ := nextDocument_lt hnext
    dsimp only
    refine Follows.bind (bsonDocumentToJson_returned (by omega) (by omega)) fun value _ => ?_
    exact Follows.advance _ hlt hoffset hstop
  · rw [if_neg hoffset, documentSequenceLoop, if_neg hoffset]
    rfl

theorem bsonDocumentSequenceToJson_returned {fuel : ℕ} (hdocuments : documents.length < 2 ^ 31)
    (hfuel : documents.length < fuel) :
    Checked.bsonDocumentSequenceToJson fuel documents =
      returned (bsonDocumentSequenceToJson documents) :=
  loop_returned (documentSequenceRound_follows hdocuments hfuel) (Nat.zero_le _) hfuel

end Sequences

end MongoDam.Protocol
