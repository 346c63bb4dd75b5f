import MongoDam.Protocol.DocumentReading

/-!
# The JSON form of encoded documents

The bytes of a document convert to the JSON form of its tree: objects keep the last
value of a key, arrays keep the order of their elements. Only code with a scope has
no such form, at any depth.
-/

namespace MongoDam.Protocol

open Lib

namespace BsonValue

mutual

/-- Neither the value nor one inside it is code with a scope. -/
def scopeFree : BsonValue → Bool
  | document elements => allScopeFree elements
  | array elements => allScopeFree elements
  | codeWithScope _ _ => false
  | _ => true

def allScopeFree : List (Cstring × BsonValue) → Bool
  | [] => true
  | (_, value) :: rest => value.scopeFree && allScopeFree rest

end

mutual

/-- The JSON form of a value. -/
def json : BsonValue → JsonValue
  | double bits => jsonDouble bits.toNat
  | string text => .string text
  | document elements => .ofMembers (members elements)
  | array elements => .array ((members elements).map Prod.snd)
  | binary subtype data => tagged "$binary" (.ofMembers [("hex", .string (encodeHex data)),
      ("subType", .string (hexPadded 2 subtype.toNat))])
  | undefined => tagged "$undefined" (.bool true)
  | objectId id => tagged "$oid" (.string (encodeHex id.val))
  | boolean value => .bool value
  | dateTime milliseconds =>
    tagged "$date" (tagged "$numberLong" (.string (toString milliseconds.toInt)))
  | null => .null
  | regularExpression pattern options => tagged "$regularExpression"
      (.ofMembers [("pattern", .string pattern.text), ("options", .string options.text)])
  | dbPointer collection id => tagged "$dbPointer"
      (.ofMembers [("$ref", .string collection), ("$id", .string (encodeHex id.val))])
  | code text => tagged "$code" (.string text)
  | symbol text => tagged "$symbol" (.string text)
  | codeWithScope _ _ => .null -- not converted
  | int32 value => jsonInt value.toInt
  | timestamp seconds increment => tagged "$timestamp"
      (.ofMembers [("t", jsonInt seconds.toNat), ("i", jsonInt increment.toNat)])
  | int64 value => jsonInt value.toInt
  | decimal128 value => tagged "$numberDecimalBytes" (.string (encodeHex value.val))
  | maxKey => tagged "$maxKey" (jsonInt 1)
  | minKey => tagged "$minKey" (jsonInt 1)

/-- The keys of elements with the JSON forms of their values. -/
def members : List (Cstring × BsonValue) → List (String × JsonValue)
  | [] => []
  | (key, value) :: rest => (key.text, value.json) :: members rest

end

/-- The elements of a document or, with `true`, of an array. -/
def embedded? : BsonValue → Option (BsonElements × Bool)
  | document elements => some (elements, false)
  | array elements => some (elements, true)
  | _ => none

end BsonValue

/-- Neither a value of the document nor one inside it is code with a scope. -/
def BsonElements.ScopeFree (elements : BsonElements) : Prop :=
  BsonValue.allScopeFree elements = true

/-- The JSON form of a document. -/
def BsonElements.json (elements : BsonElements) : JsonValue :=
  .ofMembers (BsonValue.members elements)

/-- The JSON form of elements that follow others. -/
def jsonFrom (array : Bool) (object : List (String × JsonValue)) (values : List JsonValue)
    (elements : BsonElements) : JsonValue :=
  if array then .array (values ++ (BsonValue.members elements).map Prod.snd)
  else .object ((BsonValue.members elements).foldl
    (fun object member => JsonValue.insertMember member.1 member.2 object) object)

section Values

variable (front rest : Bytes) {value : BsonValue}
  (convert : Bytes → Bool → Except DecodeError JsonValue)

theorem bsonPayloadToJson_binary (subtype : UInt8) (data : Bytes) (stop : ℕ)
    (h : (BsonValue.binary subtype data).encode.length < 2 ^ 31) :
    bsonPayloadToJson (front ++ ((BsonValue.binary subtype data).encode ++ rest)) front.length stop
      0x05 (fun nested _ asArray => convert nested asArray) =
        .ok (BsonValue.binary subtype data).json := by
  rw [BsonValue.encode, encodeBinary, List.length_append, leBytes_length, List.length_cons] at h
  have hdata : readBsonBinary (front ++ (encodeBinary subtype data ++ rest)) front.length =
      .ok data := readBsonBinary_behind front rest (by omega)
  have hsubtype := getElem?_behind (front ++ leBytes 4 data.length) (data ++ rest) subtype
  rw [List.length_append, leBytes_length] at hsubtype
  have hsplit : front ++ (encodeBinary subtype data ++ rest) =
      (front ++ leBytes 4 data.length) ++ ([subtype] ++ (data ++ rest)) := by
    simp only [encodeBinary, List.append_assoc, List.cons_append, List.nil_append]
  rw [← hsplit] at hsubtype
  simp only [bsonPayloadToJson, BsonValue.encode]
  rw [hsubtype, hdata]
  rfl

theorem bsonPayloadToJson_regularExpression (pattern options : Cstring) (stop : ℕ) :
    bsonPayloadToJson (front ++ ((BsonValue.regularExpression pattern options).encode ++ rest))
      front.length stop 0x0b (fun nested _ asArray => convert nested asArray) =
        .ok (BsonValue.regularExpression pattern options).json := by
  have hpattern := readCstring_behind front (toUtf8 options.text ++ [0] ++ rest) pattern.noNul
  have hoptions := readCstring_behind (front ++ (toUtf8 pattern.text ++ [0])) rest options.noNul
  have hsplit : front ++ (toUtf8 pattern.text ++ 0 :: (toUtf8 options.text ++ [0]) ++ rest) =
      front ++ (toUtf8 pattern.text ++ 0 :: (toUtf8 options.text ++ [0] ++ rest)) := by
    simp only [List.append_assoc, List.cons_append]
  have hbehind : front ++ (toUtf8 pattern.text ++ 0 :: (toUtf8 options.text ++ [0] ++ rest)) =
      front ++ (toUtf8 pattern.text ++ [0]) ++ (toUtf8 options.text ++ 0 :: rest) := by
    simp only [List.append_assoc, List.cons_append, List.nil_append]
  rw [← hbehind, List.length_append, List.length_append, List.length_singleton,
    ← Nat.add_assoc] at hoptions
  simp only [bsonPayloadToJson, BsonValue.encode]
  rw [hsplit, hpattern]
  simp only [bind, Except.bind]
  rw [hoptions]
  rfl

theorem bsonPayloadToJson_dbPointer (collection : String) (id : FixedBytes 12)
    (h : (BsonValue.dbPointer collection id).encode.length < 2 ^ 31) :
    bsonPayloadToJson (front ++ ((BsonValue.dbPointer collection id).encode ++ rest)) front.length
      (front.length + (BsonValue.dbPointer collection id).encode.length) 0x0c
      (fun nested _ asArray => convert nested asArray) =
        .ok (BsonValue.dbPointer collection id).json := by
  have htext : (encodeText collection).length < 2 ^ 31 := by
    rw [BsonValue.encode, List.length_append] at h
    omega
  have hcollection := readBsonString_behind front (id.val ++ rest) htext
  have hlength := htext
  rw [encodeText_length] at hlength
  have hprefix : readI32 (front ++ (encodeText collection ++ (id.val ++ rest))) front.length =
      .ok (((toUtf8 collection).length + 1 : ℕ) : ℤ) := by
    rw [encodeText, List.append_assoc]
    exact readI32_behind _ _ (by omega)
  have hid := sliceBson_behind (front ++ encodeText collection) rest id.val
  rw [List.length_append, encodeText_length, List.append_assoc] at hid
  simp only [bsonPayloadToJson, BsonValue.encode, List.append_assoc]
  rw [hcollection, hprefix]
  simp only [bind, Except.bind, Int.toNat_natCast, List.length_append, encodeText_length]
  rw [show front.length + 4 + ((toUtf8 collection).length + 1) =
    front.length + ((toUtf8 collection).length + 5) by omega, ← Nat.add_assoc front.length _
      id.val.length, hid]
  rfl

theorem bsonPayloadToJson_timestamp (seconds increment : UInt32) (stop : ℕ) :
    bsonPayloadToJson (front ++ ((BsonValue.timestamp seconds increment).encode ++ rest))
      front.length stop 0x11 (fun nested _ asArray => convert nested asArray) =
        .ok (BsonValue.timestamp seconds increment).json := by
  have hseconds := seconds.toNat_lt
  have hincrement := increment.toNat_lt
  have hword : readU64 (front ++ (leBytes 8 (seconds.toNat * 2 ^ 32 + increment.toNat) ++ rest))
      front.length = .ok (seconds.toNat * 2 ^ 32 + increment.toNat) :=
    readWord_behind front rest (by omega)
  have hhigh : (seconds.toNat * 2 ^ 32 + increment.toNat) / 2 ^ 32 = seconds.toNat := by omega
  have hlow : (seconds.toNat * 2 ^ 32 + increment.toNat) % 2 ^ 32 = increment.toNat := by omega
  simp only [bsonPayloadToJson, BsonValue.encode]
  rw [hword]
  simp only [bind, Except.bind, hhigh, hlow]
  rfl

/-- A value without others inside it converts to its JSON form, and an embedded one as its
elements do. -/
theorem bsonPayloadToJson_encode (h : value.encode.length < 2 ^ 31) (hscope : value.scopeFree)
    (hembedded : ∀ elements array, value.embedded? = some (elements, array) →
      convert elements.encode array = .ok (jsonFrom array [] [] elements)) :
    bsonPayloadToJson (front ++ (value.encode ++ rest)) front.length
      (front.length + value.encode.length) value.elementType
      (fun nested _ asArray => convert nested asArray) = .ok value.json := by
  have hskip := skipValue_encode front rest h
  have hslice := sliceBson_behind front rest value.encode
  obtain ⟨-, -, hbytes⟩ := sliceBson_eq_ok.mp hslice
  cases value with
  | double bits =>
    have hbits : bits.toNat < 256 ^ 8 := bits.toNat_lt
    simp only [bsonPayloadToJson, BsonValue.elementType, hslice]
    rw [BsonValue.encode, BsonValue.json]
    exact congrArg (Except.ok ∘ jsonDouble) (leNat_leBytes hbits)
  | string text =>
    simp only [bsonPayloadToJson, BsonValue.elementType, BsonValue.encode]
    rw [readBsonString_behind front rest h]
    rfl
  | document elements =>
    have htype : (0x03 : UInt8) ∈ embeddedTypes := by decide
    rw [bsonPayloadToJson_embedded convert hskip htype, hbytes]
    exact hembedded elements false rfl
  | array elements =>
    have htype : (0x04 : UInt8) ∈ embeddedTypes := by decide
    rw [bsonPayloadToJson_embedded convert hskip htype, hbytes]
    exact hembedded elements true rfl
  | binary subtype data => exact bsonPayloadToJson_binary front rest convert subtype data _ h
  | undefined => rfl
  | objectId id =>
    simp only [bsonPayloadToJson, BsonValue.elementType, hslice]
    rfl
  | boolean value =>
    simp only [bsonPayloadToJson, BsonValue.elementType, BsonValue.encode]
    rw [getElem?_behind]
    cases value <;> rfl
  | dateTime milliseconds =>
    simp only [bsonPayloadToJson, BsonValue.elementType, BsonValue.encode]
    rw [readI64_int64]
    rfl
  | null => rfl
  | regularExpression pattern options =>
    exact bsonPayloadToJson_regularExpression front rest convert pattern options _
  | dbPointer collection id => exact bsonPayloadToJson_dbPointer front rest convert collection id h
  | code text =>
    simp only [bsonPayloadToJson, BsonValue.elementType, BsonValue.encode]
    rw [readBsonString_behind front rest h]
    rfl
  | symbol text =>
    simp only [bsonPayloadToJson, BsonValue.elementType, BsonValue.encode]
    rw [readBsonString_behind front rest h]
    rfl
  | codeWithScope text scope => exact absurd hscope Bool.false_ne_true
  | int32 value =>
    simp only [bsonPayloadToJson, BsonValue.elementType, BsonValue.encode]
    rw [readI32_int32]
    rfl
  | timestamp seconds increment =>
    exact bsonPayloadToJson_timestamp front rest convert seconds increment _
  | int64 value =>
    simp only [bsonPayloadToJson, BsonValue.elementType, BsonValue.encode]
    rw [readI64_int64]
    rfl
  | decimal128 value =>
    simp only [bsonPayloadToJson, BsonValue.elementType, hslice]
    rfl
  | maxKey => rfl
  | minKey => rfl

end Values

/-! ### Documents -/

/-- The bytes of a value are fewer than those of its document. -/
theorem encode_length_lt_of_mem {element : Cstring × BsonValue} {elements : BsonElements}
    (h : element ∈ elements) :
    element.2.encode.length < (BsonValue.encodeElements elements).length := by
  induction elements with
  | nil => cases h
  | cons first rest ih =>
    obtain ⟨key, value⟩ := first
    rw [encodeElements_cons, List.length_append, List.length_append, lead_length]
    rcases List.mem_cons.mp h with rfl | hrest
    · dsimp only
      omega
    · have := ih hrest
      omega

theorem scopeFree_of_mem {element : Cstring × BsonValue} {elements : BsonElements}
    (h : element ∈ elements) (hscope : elements.ScopeFree) : element.2.scopeFree = true := by
  induction elements with
  | nil => cases h
  | cons first rest ih =>
    obtain ⟨hfirst, hrest⟩ := Bool.and_eq_true_iff.mp hscope
    rcases List.mem_cons.mp h with rfl | hmem
    · exact hfirst
    · exact ih hmem hrest

/-- The elements inside a value are shorter than it, and as free of scopes. -/
theorem embedded?_bounds {value : BsonValue} {elements : BsonElements} {array : Bool}
    (h : value.embedded? = some (elements, array)) :
    elements.encode.length = value.encode.length ∧
      (value.scopeFree = true → elements.ScopeFree) := by
  cases value <;> cases h <;> exact ⟨rfl, id⟩

/-- The loop converts the elements that stand in front of the last byte. -/
theorem bsonElementsToJson_encode {elements : BsonElements} (front : Bytes) (array : Bool)
    (object : List (String × JsonValue)) (values : List JsonValue)
    (h : (BsonValue.encodeElements elements).length < 2 ^ 31) (hscope : elements.ScopeFree)
    (hembedded : ∀ element ∈ elements, ∀ inner array, element.2.embedded? = some (inner, array) →
      bsonContainerToJson inner.encode array = .ok (jsonFrom array [] [] inner)) :
    bsonElementsToJson (front ++ (BsonValue.encodeElements elements ++ [0])) array front.length
      object values = .ok (jsonFrom array object values elements) := by
  have hplaced := placed_encodeElements front h
  induction elements generalizing front object values with
  | nil =>
    have hend : ¬front.length < (front ++ ([] ++ [0]) : Bytes).length - 1 := by
      rw [List.length_append, List.nil_append, List.length_singleton]
      omega
    rw [BsonValue.encodeElements, bsonElementsToJson, dif_neg hend]
    simp [jsonFrom, BsonValue.members]
  | cons element rest ih =>
    obtain ⟨key, value⟩ := element
    obtain ⟨hfirst, hrest⟩ : value.scopeFree = true ∧ BsonElements.ScopeFree rest :=
      Bool.and_eq_true_iff.mp hscope
    obtain ⟨hoffset, helement, hnext, htail⟩ := hplaced
    rw [encodeElements_cons, List.length_append, List.length_append] at h
    have hpayload := bsonPayloadToJson_encode (front ++ lead key value)
      (BsonValue.encodeElements rest ++ [0]) bsonContainerToJson (by omega) hfirst
      (hembedded (key, value) (List.mem_cons_self ..))
    have hsplit : front ++ (BsonValue.encodeElements ((key, value) :: rest) ++ [0]) =
        (front ++ lead key value) ++
          (value.encode ++ (BsonValue.encodeElements rest ++ [0])) := by
      simp only [encodeElements_cons, List.append_assoc]
    have hstart : (front ++ lead key value).length =
        (elementAt front.length key value).valueStart := by
      rw [List.length_append, lead_length]
      change _ = front.length + 1 + (toUtf8 key.text).length + 1
      omega
    have hjson : (elementAt front.length key value).toJson
        (front ++ (BsonValue.encodeElements ((key, value) :: rest) ++ [0])) = .ok value.json := by
      rw [hstart, ← hsplit] at hpayload
      exact hpayload
    refine (bsonElementsToJson_eq_ok_iff hoffset).mpr ⟨_, value.json, helement, hnext, hjson, ?_⟩
    have hbehind : (elementAt front.length key value).next =
        (front ++ lead key value ++ value.encode).length := by
      rw [List.length_append, hstart]
      rfl
    have hsplit' : front ++ (BsonValue.encodeElements ((key, value) :: rest) ++ [0]) =
        (front ++ lead key value ++ value.encode) ++
          (BsonValue.encodeElements rest ++ [0]) := by
      rw [hsplit, List.append_assoc (front ++ lead key value)]
    rw [hsplit', hbehind] at htail ⊢
    rw [ih _ _ _ (by omega) hrest (fun element hmem => hembedded element
      (List.mem_cons_of_mem _ hmem)) htail]
    cases array <;> simp [jsonFrom, BsonValue.members, elementAt]

/-- An encoded document or array converts to the JSON form of its elements. The recursion is
into the values, which are shorter. -/
theorem bsonContainerToJson_encode {elements : BsonElements} (array : Bool)
    (h : elements.encode.length < 2 ^ 31) (hscope : elements.ScopeFree) :
    bsonContainerToJson elements.encode array = .ok (jsonFrom array [] [] elements) := by
  have hlength := elements.encode_length
  have hembedded : ∀ element ∈ elements, ∀ inner array,
      element.2.embedded? = some (inner, array) →
        bsonContainerToJson inner.encode array = .ok (jsonFrom array [] [] inner) := by
    intro element hmem inner array hinner
    have hshorter := encode_length_lt_of_mem hmem
    obtain ⟨hsame, hfree⟩ := embedded?_bounds hinner
    exact bsonContainerToJson_encode array (by omega) (hfree (scopeFree_of_mem hmem hscope))
  have hcontainer : isContainer elements.encode = true := isContainer_encodeDocument (by omega)
  have hloop := bsonElementsToJson_encode
    (leBytes 4 ((BsonValue.encodeElements elements).length + 5)) array [] [] (by omega) hscope
    hembedded
  rw [← elements.encode_eq, leBytes_length] at hloop
  unfold bsonContainerToJson
  rw [if_pos hcontainer, hloop]
termination_by elements.encode.length

/-- An encoded document converts to its JSON form. -/
theorem bsonDocumentToJson_encode {elements : BsonElements} (h : elements.encode.length < 2 ^ 31)
    (hscope : elements.ScopeFree) : bsonDocumentToJson elements.encode = .ok elements.json :=
  bsonContainerToJson_encode false h hscope

/-- Decoding inverts encoding. -/
theorem document_decoding {elements : BsonElements} (h : elements.encode.length < 2 ^ 31) :
    (∀ (value : BsonValue) (front rest : Bytes), value.encode.length < 2 ^ 31 →
      skipValue (front ++ (value.encode ++ rest)) front.length value.elementType =
        .ok (front.length + value.encode.length)) ∧
    (∃ summary, summarizeBson elements.encode = .ok summary ∧
      summary.firstKey = elements.head?.map (·.1.text) ∧
      (elements.Unrepeated → elements.SummarizedAs summary)) ∧
    (elements.ScopeFree → bsonDocumentToJson elements.encode = .ok elements.json) :=
  ⟨fun _ front rest hvalue => skipValue_encode front rest hvalue, summarizeBson_encode h,
    bsonDocumentToJson_encode h⟩

/-- A reply with an array in it, `{"ok": 1.0, "n": 2, "": [true]}`. -/
private def sampleReply : BsonElements :=
  [(⟨"ok", by decide⟩, .double 0x3ff0000000000000), (⟨"n", by decide⟩, .int32 2),
    (⟨"", by decide⟩, .array [(.zero, .boolean true)])]

theorem sampleReply_decoding :
    (∃ summary, summarizeBson sampleReply.encode = .ok summary ∧
      summary.firstKey = some "ok" ∧ summary.ok = some true ∧ summary.affectedCount = some 2) ∧
    bsonDocumentToJson sampleReply.encode = .ok sampleReply.json := by
  have hlength : sampleReply.encode.length < 2 ^ 31 := by decide +kernel
  have hunrepeated : sampleReply.Unrepeated := by
    unfold BsonElements.Unrepeated
    decide +kernel
  obtain ⟨-, ⟨summary, hsummary, hfirst, hfields⟩, hjson⟩ := document_decoding hlength
  have hfields := hfields hunrepeated
  refine ⟨⟨summary, hsummary, hfirst, ?_, ?_⟩, hjson (by unfold BsonElements.ScopeFree; rfl)⟩
  · rw [hfields.ok]
    decide +kernel
  · rw [hfields.affectedCount]
    decide +kernel

/-- A count that is not one, `{"n": -1}`. -/
private def negativeReply : BsonElements := [(⟨"n", by decide⟩, .int32 (-1))]

/-- A count is read off a 32-bit integer, but not off a negative one. -/
theorem negative_count_not_read :
    ¬∀ elements : BsonElements, elements.encode.length < 2 ^ 31 → elements.Unrepeated →
      ∀ summary, summarizeBson elements.encode = .ok summary →
        ∀ value : Int32, elements.get? "n" = some (.int32 value) →
          summary.affectedCount.map Int.ofNat = some value.toInt := by
  intro h
  have hlength : negativeReply.encode.length < 2 ^ 31 := by decide +kernel
  have hunrepeated : negativeReply.Unrepeated := by
    unfold BsonElements.Unrepeated
    decide +kernel
  obtain ⟨summary, hsummary, -, hfields⟩ := summarizeBson_encode hlength
  have hcount := h negativeReply hlength hunrepeated summary hsummary (-1) rfl
  rw [(hfields hunrepeated).affectedCount] at hcount
  exact absurd hcount (by decide +kernel)

end MongoDam.Protocol
