import MongoDam.Protocol.Convertible
import MongoDam.Protocol.Encodings
import MongoDam.Protocol.SummaryFields

/-!
# Documents as trees

A document as a tree of values of every type that the readers know, and its bytes as
a client writes them. Each value is skipped exactly, and the bytes of a document
consist of its elements, one behind the other.
-/

namespace MongoDam.Protocol

open Lib

/-- A text that is ended by a NUL. -/
structure Cstring where
  text : String
  noNul : Char.ofNat 0 ∉ text.toList
  deriving DecidableEq

/-- The key of the first element of an array. -/
def Cstring.zero : Cstring := ⟨"0", by decide⟩

/-- Bytes of a fixed number. -/
abbrev FixedBytes (length : ℕ) := { bytes : Bytes // bytes.length = length }

/-- A value of a document. Arrays have keys as documents do. -/
inductive BsonValue where
  | double (bits : UInt64)
  | string (text : String)
  | document (elements : List (Cstring × BsonValue))
  | array (elements : List (Cstring × BsonValue))
  | binary (subtype : UInt8) (data : Bytes)
  | undefined
  | objectId (id : FixedBytes 12)
  | boolean (value : Bool)
  | dateTime (milliseconds : Int64)
  | null
  | regularExpression (pattern options : Cstring)
  | dbPointer (collection : String) (id : FixedBytes 12)
  | code (text : String)
  | symbol (text : String)
  | codeWithScope (text : String) (scope : List (Cstring × BsonValue))
  | int32 (value : Int32)
  | timestamp (seconds increment : UInt32)
  | int64 (value : Int64)
  | decimal128 (value : FixedBytes 16)
  | maxKey
  | minKey

/-- The elements of a document. -/
abbrev BsonElements := List (Cstring × BsonValue)

namespace BsonValue

/-! ### Encoding -/

def elementType : BsonValue → UInt8
  | double _ => 0x01
  | string _ => 0x02
  | document _ => 0x03
  | array _ => 0x04
  | binary _ _ => 0x05
  | undefined => 0x06
  | objectId _ => 0x07
  | boolean _ => 0x08
  | dateTime _ => 0x09
  | null => 0x0a
  | regularExpression _ _ => 0x0b
  | dbPointer _ _ => 0x0c
  | code _ => 0x0d
  | symbol _ => 0x0e
  | codeWithScope _ _ => 0x0f
  | int32 _ => 0x10
  | timestamp _ _ => 0x11
  | int64 _ => 0x12
  | decimal128 _ => 0x13
  | maxKey => 0x7f
  | minKey => 0xff

mutual

/-- The bytes of a value. -/
def encode : BsonValue → Bytes
  | double bits => leBytes 8 bits.toNat
  | string text => encodeText text
  | document elements => encodeDocument (encodeElements elements)
  | array elements => encodeDocument (encodeElements elements)
  | binary subtype data => encodeBinary subtype data
  | undefined => []
  | objectId id => id.val
  | boolean value => [if value then 1 else 0]
  | dateTime milliseconds => leBytes 8 milliseconds.toUInt64.toNat
  | null => []
  | regularExpression pattern options =>
    toUtf8 pattern.text ++ 0 :: (toUtf8 options.text ++ [0])
  | dbPointer collection id => encodeText collection ++ id.val
  | code text => encodeText text
  | symbol text => encodeText text
  | codeWithScope text scope =>
    let content := encodeText text ++ encodeDocument (encodeElements scope)
    leBytes 4 (content.length + 4) ++ content
  | int32 value => leBytes 4 value.toUInt32.toNat
  | timestamp seconds increment => leBytes 8 (seconds.toNat * 2 ^ 32 + increment.toNat)
  | int64 value => leBytes 8 value.toUInt64.toNat
  | decimal128 value => value.val
  | maxKey => []
  | minKey => []

/-- The bytes of elements, without the length in front and the NUL behind them. -/
def encodeElements : List (Cstring × BsonValue) → Bytes
  | [] => []
  | (key, value) :: rest =>
    encodeElement value.elementType key.text value.encode ++ encodeElements rest

end

end BsonValue

/-- The bytes of a document. -/
def BsonElements.encode (elements : BsonElements) : Bytes :=
  encodeDocument (BsonValue.encodeElements elements)

theorem encodeDocument_length (elements : Bytes) :
    (encodeDocument elements).length = elements.length + 5 := by
  simp only [encodeDocument, List.length_append, leBytes_length, List.length_singleton]
  omega

/-! ### Skipping values -/

/-- A value of fixed length is skipped. -/
theorem isValue_fixed {elementType : UInt8} {bytes : Bytes} {length : ℕ}
    (hfixed : fixedLength elementType = some length) (hlength : bytes.length = length) :
    IsValue elementType bytes := by
  unfold IsValue skipValue checkedEnd
  rw [hfixed]
  dsimp only
  rw [if_pos (by omega), Nat.zero_add, hlength]

/-- A value behind its length is skipped. -/
theorem skipPrefixed_leBytes {length extra : ℕ} {least : ℤ} {content : Bytes}
    (hleast : least ≤ length) (hcontent : content.length + 4 = extra + length)
    (hfits : length < 2 ^ 31) :
    skipPrefixed (leBytes 4 length ++ content) 0 least extra =
      .ok (leBytes 4 length ++ content).length := by
  have hsize : (leBytes 4 length ++ content).length = extra + length := by
    rw [List.length_append, leBytes_length]
    omega
  unfold skipPrefixed checkedEnd
  rw [readI32_leBytes hfits]
  dsimp only
  rw [if_neg (by omega), Int.toNat_natCast, if_pos (by omega), hsize, Nat.zero_add]

theorem skipPrefixed_encodeText {text : String} (h : (encodeText text).length < 2 ^ 31) :
    skipPrefixed (encodeText text) 0 1 4 = .ok (encodeText text).length := by
  rw [encodeText_length] at h
  refine skipPrefixed_leBytes (by omega) ?_ (by omega)
  rw [List.length_append, List.length_singleton]
  omega

theorem skipPrefixed_encodeDocument {elements : Bytes} (h : elements.length + 5 < 2 ^ 31) :
    skipPrefixed (encodeDocument elements) 0 5 0 = .ok (encodeDocument elements).length := by
  rw [encodeDocument, List.append_assoc]
  refine skipPrefixed_leBytes (by omega) ?_ h
  rw [List.length_append, List.length_singleton]
  omega

/-- Every value is skipped exactly. -/
theorem isValue_encode {value : BsonValue} (h : value.encode.length < 2 ^ 31) :
    IsValue value.elementType value.encode := by
  cases value with
  | double bits => exact isValue_fixed rfl (leBytes_length 8 _)
  | string text => exact skipPrefixed_encodeText h
  | document elements =>
    rw [BsonValue.encode, encodeDocument_length] at h
    exact skipPrefixed_encodeDocument h
  | array elements =>
    rw [BsonValue.encode, encodeDocument_length] at h
    exact skipPrefixed_encodeDocument h
  | binary subtype data =>
    rw [BsonValue.encode, encodeBinary, List.length_append, leBytes_length, List.length_cons] at h
    refine skipPrefixed_leBytes (by omega) ?_ (by omega)
    rw [List.length_cons]
    omega
  | undefined => exact isValue_fixed rfl rfl
  | objectId id => exact isValue_fixed rfl id.property
  | boolean value => exact isValue_fixed rfl rfl
  | dateTime milliseconds => exact isValue_fixed rfl (leBytes_length 8 _)
  | null => exact isValue_fixed rfl rfl
  | regularExpression pattern options =>
    have hpattern := readCstring_behind [] (toUtf8 options.text ++ [0]) pattern.noNul
    have hoptions := readCstring_behind (toUtf8 pattern.text ++ [0]) [] options.noNul
    rw [List.nil_append, List.length_nil, Nat.zero_add] at hpattern
    rw [List.append_assoc, List.singleton_append, List.length_append,
      List.length_singleton] at hoptions
    rw [BsonValue.encode, IsValue]
    refine (skipValue_regularExpression_eq_ok.mpr ⟨_, _, _, hpattern, hoptions⟩).trans
      (congrArg Except.ok ?_)
    simp only [List.length_append, List.length_cons, List.length_nil]
    omega
  | dbPointer collection id =>
    have hid := id.property
    rw [BsonValue.encode, List.length_append, encodeText_length] at h
    unfold IsValue
    rw [BsonValue.encode, encodeText, List.append_assoc]
    refine skipPrefixed_leBytes (by omega) ?_ (by omega)
    simp only [List.length_append, List.length_singleton]
    omega
  | code text => exact skipPrefixed_encodeText h
  | symbol text => exact skipPrefixed_encodeText h
  | codeWithScope text scope =>
    rw [BsonValue.encode, List.length_append, leBytes_length] at h
    refine skipPrefixed_leBytes ?_ (by omega) (by omega)
    rw [List.length_append, encodeText_length]
    omega
  | int32 value => exact isValue_fixed rfl (leBytes_length 4 _)
  | timestamp seconds increment => exact isValue_fixed rfl (leBytes_length 8 _)
  | int64 value => exact isValue_fixed rfl (leBytes_length 8 _)
  | decimal128 value => exact isValue_fixed rfl value.property
  | maxKey => exact isValue_fixed rfl rfl
  | minKey => exact isValue_fixed rfl rfl

/-- A value is skipped wherever it stands. -/
theorem skipValue_encode (front rest : Bytes) {value : BsonValue}
    (h : value.encode.length < 2 ^ 31) :
    skipValue (front ++ (value.encode ++ rest)) front.length value.elementType =
      .ok (front.length + value.encode.length) := by
  have hskip := skipValue_append_left front (value.encode ++ rest) 0 value.elementType
  rw [Nat.add_zero] at hskip
  rw [hskip, skipValue_append rest (isValue_encode h)]
  rfl

/-- A text ended by a NUL is a key. -/
theorem isKey_toUtf8 (key : Cstring) : IsKey (toUtf8 key.text ++ [0]) key.text := by
  have hread := readCstring_behind [] [] key.noNul
  unfold IsKey
  rw [List.length_append, List.length_singleton]
  rw [List.nil_append, List.length_nil, Nat.zero_add] at hread
  exact hread

/-! ### Elements in place -/

/-- The element that starts at an offset. -/
def elementAt (offset : ℕ) (key : Cstring) (value : BsonValue) : Element where
  elementType := value.elementType
  key := key.text
  valueStart := offset + 1 + (toUtf8 key.text).length + 1
  next := offset + 1 + (toUtf8 key.text).length + 1 + value.encode.length

/-- The elements from an offset on. -/
def placedAt : ℕ → BsonElements → List Element
  | _, [] => []
  | offset, (key, value) :: rest =>
    elementAt offset key value :: placedAt (elementAt offset key value).next rest

/-- The bytes in front of the value of an element. -/
def lead (key : Cstring) (value : BsonValue) : Bytes :=
  value.elementType :: (toUtf8 key.text ++ [0])

theorem lead_length (key : Cstring) (value : BsonValue) :
    (lead key value).length = (toUtf8 key.text).length + 2 := by
  simp only [lead, List.length_cons, List.length_append, List.length_nil]

theorem encodeElements_cons (key : Cstring) (value : BsonValue) (rest : BsonElements) :
    BsonValue.encodeElements ((key, value) :: rest) =
      lead key value ++ (value.encode ++ BsonValue.encodeElements rest) := by
  rw [BsonValue.encodeElements, encodeElement, lead]
  simp only [List.append_assoc, List.cons_append, List.nil_append]

/-- An element is found where it stands. -/
theorem elementAt?_encode (front rest : Bytes) (key : Cstring) {value : BsonValue}
    (h : value.encode.length < 2 ^ 31) :
    elementAt? (front ++ (lead key value ++ (value.encode ++ rest))) front.length =
      some (elementAt front.length key value) := by
  have hsplit : front ++ (lead key value ++ (value.encode ++ rest)) =
      (front ++ [value.elementType]) ++ (toUtf8 key.text ++ 0 :: (value.encode ++ rest)) := by
    simp only [lead, List.append_assoc, List.cons_append, List.nil_append]
  have hbehind : front ++ (lead key value ++ (value.encode ++ rest)) =
      (front ++ lead key value) ++ (value.encode ++ rest) := by
    rw [List.append_assoc]
  rw [elementAt?_eq_some]
  refine ⟨?_, ?_, ?_⟩
  · have hbyte := getD_append_left front (lead key value ++ (value.encode ++ rest)) 0
    rw [Nat.add_zero] at hbyte
    rw [hbyte]
    rfl
  · have hread := readCstring_behind (front ++ [value.elementType]) (value.encode ++ rest) key.noNul
    rw [List.length_append, List.length_singleton] at hread
    rw [hsplit, hread]
    rfl
  · have hskip := skipValue_encode (front ++ lead key value) rest h
    rw [List.length_append, lead_length] at hskip
    have hstart : (elementAt front.length key value).valueStart =
        front.length + ((toUtf8 key.text).length + 2) := by
      change front.length + 1 + (toUtf8 key.text).length + 1 = _
      omega
    have hnext : (elementAt front.length key value).next =
        front.length + ((toUtf8 key.text).length + 2) + value.encode.length := by
      change front.length + 1 + (toUtf8 key.text).length + 1 + value.encode.length = _
      omega
    rw [hbehind, hstart, hnext]
    exact hskip

/-- The elements stand one behind the other up to the last byte. -/
theorem placed_encodeElements (front : Bytes) {elements : BsonElements}
    (h : (BsonValue.encodeElements elements).length < 2 ^ 31) :
    Placed (front ++ (BsonValue.encodeElements elements ++ [0])) front.length
      (placedAt front.length elements) := by
  induction elements generalizing front with
  | nil =>
    change (front ++ [0]).length - 1 ≤ front.length
    rw [List.length_append, List.length_singleton]
    omega
  | cons element rest ih =>
    obtain ⟨key, value⟩ := element
    rw [encodeElements_cons, List.length_append, List.length_append] at h
    have hnext : (elementAt front.length key value).next =
        (front ++ (lead key value ++ value.encode)).length := by
      rw [List.length_append, List.length_append, lead_length]
      change front.length + 1 + (toUtf8 key.text).length + 1 + value.encode.length = _
      omega
    have hsplit : front ++ (BsonValue.encodeElements ((key, value) :: rest) ++ [0]) =
        (front ++ (lead key value ++ value.encode)) ++
          (BsonValue.encodeElements rest ++ [0]) := by
      simp only [encodeElements_cons, List.append_assoc]
    have hrest := ih (front ++ (lead key value ++ value.encode)) (by omega)
    rw [← hsplit, ← hnext] at hrest
    have hlength : (front ++ (BsonValue.encodeElements ((key, value) :: rest) ++ [0])).length =
        (front ++ (lead key value ++ value.encode)).length +
          ((BsonValue.encodeElements rest).length + 1) := by
      rw [hsplit]
      simp only [List.length_append, List.length_singleton]
    have hinside : front.length < (front ++ (lead key value ++ value.encode)).length := by
      rw [List.length_append, List.length_append, lead_length]
      omega
    refine ⟨?_, ?_, ?_, hrest⟩
    · omega
    · rw [encodeElements_cons, List.append_assoc, List.append_assoc]
      exact elementAt?_encode _ _ _ (by omega)
    · rw [hnext, hlength]
      omega

/-- The bytes of a document are those of one. -/
theorem isContainer_encodeDocument {elements : Bytes} (h : elements.length + 5 < 2 ^ 31) :
    isContainer (encodeDocument elements) = true := by
  have hlast : (encodeDocument elements).getLast? = some 0 := by
    rw [encodeDocument, List.getLast?_append]
    rfl
  unfold isContainer
  rw [encodeDocument_length, hlast, encodeDocument, List.append_assoc, readI32_leBytes h]
  simp [Except.toOption]

end MongoDam.Protocol
