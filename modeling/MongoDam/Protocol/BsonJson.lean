import MongoDam.Protocol.Bson

/-!
# BSON documents as JSON

A document becomes an object and an array becomes a list, element by element.
Values without a JSON counterpart become objects with one `$`-prefixed member.
The recursion into an embedded container is on its own bytes, which lie behind
the key that introduces it.
-/

namespace MongoDam.Protocol

open Lib

/-- The JSON object with a single member. -/
def tagged (key : String) (value : JsonValue) : JsonValue := .ofMembers [(key, value)]

/-- A 32-bit or 64-bit integer as JSON. -/
def jsonInt (value : ℤ) : JsonValue := .number (.int value)

/-- The JSON form of a double: a number when it is finite, its text otherwise. -/
def jsonDouble (bits : ℕ) : JsonValue :=
  if Double.isFinite bits then .number (.double bits)
  else tagged "$numberDouble" (.string (Double.nonFiniteText bits))

/-- A checked slice that reports a missing range as bad BSON. -/
def sliceBson (bytes : Bytes) (start stop : ℕ) : Except DecodeError Bytes :=
  match slice? bytes start stop with
  | some value => .ok value
  | none => .error .invalidBson

theorem sliceBson_length {bytes value : Bytes} {start stop : ℕ}
    (h : sliceBson bytes start stop = .ok value) : value.length = stop - start := by
  unfold sliceBson at h
  split at h
  · rename_i hslice
    rw [← Except.ok.inj h]
    exact slice?_length hslice
  · cases h

theorem sliceBson_eq_ok {bytes value : Bytes} {start stop : ℕ} :
    sliceBson bytes start stop = .ok value ↔
      start ≤ stop ∧ stop ≤ bytes.length ∧ (bytes.drop start).take (stop - start) = value := by
  unfold sliceBson slice?
  by_cases hinside : start ≤ stop ∧ stop ≤ bytes.length
  · rw [if_pos hinside]
    exact ⟨fun h => ⟨hinside.1, hinside.2, Except.ok.inj h⟩, fun h => congrArg _ h.2.2⟩
  · rw [if_neg hinside]
    exact iff_of_false nofun fun h => hinside ⟨h.1, h.2.1⟩

/-- The JSON form of the value that starts at `offset` and ends at `stop`.
`nested` converts an embedded document or, with `true`, an embedded array. -/
def bsonPayloadToJson (bytes : Bytes) (offset stop : ℕ) (elementType : UInt8)
    (nested : (value : Bytes) → value.length = stop - offset → Bool →
      Except DecodeError JsonValue) : Except DecodeError JsonValue :=
  match elementType with
  | 0x01 => do return jsonDouble (leNat (← sliceBson bytes offset stop))
  | 0x02 => do return .string (← readBsonString bytes offset)
  | 0x03 =>
    match h : sliceBson bytes offset stop with
    | .error e => .error e
    | .ok value => nested value (sliceBson_length h) false
  | 0x04 =>
    match h : sliceBson bytes offset stop with
    | .error e => .error e
    | .ok value => nested value (sliceBson_length h) true
  | 0x05 =>
    match bytes[offset + 4]? with
    | none => .error .invalidBson
    | some subtype => do
      let data ← readBsonBinary bytes offset
      return tagged "$binary" (.ofMembers [("hex", .string (encodeHex data)),
        ("subType", .string (hexPadded 2 subtype.toNat))])
  | 0x06 => return tagged "$undefined" (.bool true)
  | 0x07 => do return tagged "$oid" (.string (encodeHex (← sliceBson bytes offset stop)))
  | 0x08 =>
    match bytes[offset]? with
    | none => .error .invalidBson
    | some value => return .bool (value ≠ 0)
  | 0x09 => do
    let value ← readI64 bytes offset
    return tagged "$date" (tagged "$numberLong" (.string (toString value)))
  | 0x0a => return .null
  | 0x0b => do
    let (pattern, afterPattern) ← readCstring bytes offset
    let (options, _) ← readCstring bytes afterPattern
    return tagged "$regularExpression"
      (.ofMembers [("pattern", .string pattern), ("options", .string options)])
  | 0x0c => do
    let collection ← readBsonString bytes offset
    let namespaceLength ← readI32 bytes offset
    let objectId ← sliceBson bytes (offset + 4 + namespaceLength.toNat) stop
    return tagged "$dbPointer"
      (.ofMembers [("$ref", .string collection), ("$id", .string (encodeHex objectId))])
  | 0x0d => do return tagged "$code" (.string (← readBsonString bytes offset))
  | 0x0e => do return tagged "$symbol" (.string (← readBsonString bytes offset))
  | 0x10 => do return jsonInt (← readI32 bytes offset)
  | 0x11 => do
    let value ← readU64 bytes offset
    return tagged "$timestamp" (.ofMembers [("t", jsonInt ((value / 2 ^ 32 : ℕ) : ℤ)),
      ("i", jsonInt ((value % 2 ^ 32 : ℕ) : ℤ))])
  | 0x12 => do return jsonInt (← readI64 bytes offset)
  | 0x13 => do
    return tagged "$numberDecimalBytes" (.string (encodeHex (← sliceBson bytes offset stop)))
  | 0x7f => return tagged "$maxKey" (jsonInt 1)
  | 0xff => return tagged "$minKey" (jsonInt 1)
  | _ => .error .invalidBson

/-- The JSON form of the value at an offset, and the offset behind it. -/
def bsonValueToJson (bytes : Bytes) (offset : ℕ) (elementType : UInt8)
    (nested : (value : Bytes) → value.length ≤ bytes.length - offset → Bool →
      Except DecodeError JsonValue) : Except DecodeError (JsonValue × ℕ) :=
  match h : skipValue bytes offset elementType with
  | .error e => .error e
  | .ok stop =>
    match bsonPayloadToJson bytes offset stop elementType (fun value hlength asArray =>
        nested value (by have := skipValue_le h; omega) asArray) with
    | .error e => .error e
    | .ok value => .ok (value, stop)

theorem bsonValueToJson_next {bytes : Bytes} {offset next : ℕ} {elementType : UInt8}
    {nested : (value : Bytes) → value.length ≤ bytes.length - offset → Bool →
      Except DecodeError JsonValue} {value : JsonValue}
    (h : bsonValueToJson bytes offset elementType nested = .ok (value, next)) :
    skipValue bytes offset elementType = .ok next := by
  unfold bsonValueToJson at h
  split at h
  · cases h
  · rename_i stop hskip
    split at h
    · cases h
    · rw [hskip, (Prod.mk.inj (Except.ok.inj h)).2]

/-- The element loop of `bsonContainerToJson`, from an element boundary on. -/
def bsonElementsToJson (document : Bytes) (array : Bool) (offset : ℕ)
    (object : List (String × JsonValue)) (values : List JsonValue) :
    Except DecodeError JsonValue :=
  if h : offset < document.length - 1 then
    match hkey : readCstring document (offset + 1) with
    | .error e => .error e
    | .ok (key, afterKey) =>
      match hvalue : bsonValueToJson document afterKey (document[offset]) (fun value _ asArray =>
          if isContainer value then bsonElementsToJson value asArray 4 [] []
          else .error .invalidBson) with
      | .error e => .error e
      | .ok (value, next) =>
        if document.length - 1 < next then .error .invalidBson
        else if array then bsonElementsToJson document array next object (values ++ [value])
        else bsonElementsToJson document array next (JsonValue.insertMember key value object) values
  else .ok (if array then .array values else .object object)
termination_by document.length - offset
decreasing_by
  all_goals
    have hadvance := readCstring_lt hkey
  · omega
  all_goals
    have hskip := skipValue_le (bsonValueToJson_next hvalue)
    omega

/-- The JSON form of a document or array. -/
def bsonContainerToJson (document : Bytes) (array : Bool) : Except DecodeError JsonValue :=
  if isContainer document then bsonElementsToJson document array 4 [] [] else .error .invalidBson

def bsonDocumentToJson (document : Bytes) : Except DecodeError JsonValue :=
  bsonContainerToJson document false

/-- The loop of `bsonDocumentSequenceToJson`. -/
def documentSequenceLoop (documents : Bytes) (offset : ℕ) (result : List JsonValue) :
    Except DecodeError (List JsonValue) :=
  if offset < documents.length then
    match readI32 documents offset with
    | .error e => .error e
    | .ok length =>
      if length < 5 then .error .invalidBson
      else
        if documents.length < offset + length.toNat then .error .invalidBson
        else
          match sliceBson documents offset (offset + length.toNat) >>= bsonDocumentToJson with
          | .error e => .error e
          | .ok value => documentSequenceLoop documents (offset + length.toNat) (result ++ [value])
  else .ok result
termination_by documents.length - offset

/-- The JSON forms of a run of concatenated documents. -/
def bsonDocumentSequenceToJson (documents : Bytes) : Except DecodeError (List JsonValue) :=
  documentSequenceLoop documents 0 []

end MongoDam.Protocol
