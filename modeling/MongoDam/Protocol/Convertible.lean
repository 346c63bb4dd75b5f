import MongoDam.Protocol.Elements

/-!
# Documents that have a JSON form

The conversion to JSON goes through the elements of a document as the summaries do, and
into embedded documents and arrays. It fails where the summaries pass: on code with a
scope, on text that is not UTF-8 or does not end with a NUL, and on embedded documents
whose bytes are not all elements. A document converts exactly when it holds no such
value at any depth.
-/

namespace MongoDam.Protocol

open Lib

/-! ### Convertible documents -/

/-- The types of values that are read as a text: strings, the references of pointers, code, and
symbols. -/
def textTypes : List UInt8 := [0x02, 0x0c, 0x0d, 0x0e]

/-- The types of documents and arrays. -/
def embeddedTypes : List UInt8 := [0x03, 0x04]

/-- The bytes of an element's value. -/
def Element.valueBytes (document : Bytes) (element : Element) : Bytes :=
  (document.drop element.valueStart).take (element.next - element.valueStart)

/-- The document consists of elements, and none of them is code with scope, a text that cannot
be read, or an embedded document of another kind. -/
inductive Convertible : Bytes → Prop
  | intro {document : Bytes} (hcontainer : isContainer document = true)
      (hplaced : Placed document 4 (documentElements document))
      (hscope : ∀ element ∈ documentElements document, element.elementType ≠ 0x0f)
      (htext : ∀ element ∈ documentElements document, element.elementType ∈ textTypes →
        ∃ text, readBsonString document element.valueStart = .ok text)
      (hembedded : ∀ element ∈ documentElements document, element.elementType ∈ embeddedTypes →
        Convertible (element.valueBytes document)) : Convertible document

/-! ### Values -/

/-- The types of values that always have a JSON form. -/
private def plainTypes : List UInt8 :=
  [0x01, 0x05, 0x06, 0x07, 0x08, 0x09, 0x0a, 0x0b, 0x10, 0x11, 0x12, 0x13, 0x7f, 0xff]

/-- The types of values that can be skipped. -/
private theorem skipValue_types {bytes : Bytes} {offset stop : ℕ} {elementType : UInt8}
    (h : skipValue bytes offset elementType = .ok stop) :
    elementType ∈ plainTypes ∨ elementType ∈ textTypes ∨ elementType ∈ embeddedTypes ∨
      elementType = 0x0f := by
  unfold skipValue fixedLength at h
  split at h
  · rename_i hfixed
    split at hfixed <;> first | decide | cases hfixed
  · split at h <;> first | decide | cases h

private theorem exists_readWord {width : ℕ} {bytes : Bytes} {offset : ℕ}
    (h : offset + width ≤ bytes.length) : ∃ value, readWord width bytes offset = .ok value := by
  unfold readWord
  rw [slice?_eq_some (by omega) h]
  exact ⟨_, rfl⟩

section Payloads

variable {bytes : Bytes} {offset stop : ℕ} {elementType : UInt8}
  (convert : Bytes → Bool → Except DecodeError JsonValue)

/-- Values of the other types have a JSON form when they are skipped. -/
private theorem bsonPayloadToJson_plain (hskip : skipValue bytes offset elementType = .ok stop)
    (htype : elementType ∈ plainTypes) :
    ∃ value, bsonPayloadToJson bytes offset stop elementType
      (fun nested _ asArray => convert nested asArray) = .ok value := by
  obtain ⟨hle, hstop⟩ := skipValue_le hskip
  have hslice := sliceBson_eq_ok.mpr ⟨hle, hstop, rfl⟩
  have hfixed : ∀ width, checkedEnd bytes (offset + width) = .ok stop →
      ∃ value, readWord width bytes offset = .ok value := fun width h =>
    exists_readWord (checkedEnd_eq_ok h).2
  simp only [plainTypes, List.mem_cons, List.not_mem_nil, or_false] at htype
  rcases htype with rfl | rfl | rfl | rfl | rfl | rfl | rfl | rfl | rfl | rfl | rfl | rfl | rfl |
    rfl
  · simp [bsonPayloadToJson, hslice, bind, Except.bind, pure, Except.pure]
  · -- binary data
    obtain ⟨length, hlength, hleast, rfl, hinside⟩ :=
      skipPrefixed_eq_ok (show skipPrefixed bytes offset 0 5 = .ok stop from hskip)
    have hsubtype : bytes[offset + 4]? = some bytes[offset + 4] :=
      List.getElem?_eq_getElem (by omega)
    have hdata : readBsonBinary bytes offset =
        .ok ((bytes.drop (offset + 5)).take (offset + 5 + length.toNat - (offset + 5))) := by
      unfold readBsonBinary
      rw [hlength]
      dsimp only
      rw [if_neg (by omega), slice?_eq_some (by omega) (by omega)]
    simp [bsonPayloadToJson, hsubtype, hdata, bind, Except.bind, pure, Except.pure]
  · exact ⟨_, rfl⟩
  · simp [bsonPayloadToJson, hslice, bind, Except.bind, pure, Except.pure]
  · have hinside : offset < bytes.length :=
      (checkedEnd_eq_ok (show checkedEnd bytes (offset + 1) = .ok stop from hskip)).2
    simp [bsonPayloadToJson, List.getElem?_eq_getElem hinside, pure, Except.pure]
  · obtain ⟨word, hword⟩ := hfixed 8 hskip
    simp [bsonPayloadToJson, readI64, hword, bind, Except.bind, Except.map, pure, Except.pure]
  · exact ⟨_, rfl⟩
  · obtain ⟨pattern, afterPattern, options, hpattern, hoptions⟩ :=
      skipValue_regularExpression_eq_ok.mp hskip
    simp [bsonPayloadToJson, hpattern, hoptions, bind, Except.bind, pure, Except.pure]
  · obtain ⟨word, hword⟩ := hfixed 4 hskip
    simp [bsonPayloadToJson, readI32, hword, bind, Except.bind, Except.map, pure, Except.pure]
  · obtain ⟨word, hword⟩ := hfixed 8 hskip
    simp [bsonPayloadToJson, readU64, hword, bind, Except.bind, pure, Except.pure]
  · obtain ⟨word, hword⟩ := hfixed 8 hskip
    simp [bsonPayloadToJson, readI64, hword, bind, Except.bind, Except.map, pure, Except.pure]
  · simp [bsonPayloadToJson, hslice, bind, Except.bind, pure, Except.pure]
  · exact ⟨_, rfl⟩
  · exact ⟨_, rfl⟩

/-- Texts have a JSON form when they can be read. -/
private theorem bsonPayloadToJson_text (hskip : skipValue bytes offset elementType = .ok stop)
    (htype : elementType ∈ textTypes) :
    (∃ value, bsonPayloadToJson bytes offset stop elementType
        (fun nested _ asArray => convert nested asArray) = .ok value) ↔
      ∃ text, readBsonString bytes offset = .ok text := by
  simp only [textTypes, List.mem_cons, List.not_mem_nil, or_false] at htype
  cases htext : readBsonString bytes offset with
  | error e =>
    refine iff_of_false ?_ nofun
    rcases htype with rfl | rfl | rfl | rfl <;>
      simp [bsonPayloadToJson, htext, bind, Except.bind]
  | ok text =>
    refine iff_of_true ?_ ⟨text, rfl⟩
    rcases htype with rfl | rfl | rfl | rfl
    · simp [bsonPayloadToJson, htext, bind, Except.bind, pure, Except.pure]
    · -- the object of a pointer lies behind its text
      obtain ⟨length, hlength, -, rfl, hinside⟩ :=
        skipPrefixed_eq_ok (show skipPrefixed bytes offset 1 16 = .ok stop from hskip)
      have hobject : sliceBson bytes (offset + 4 + length.toNat) (offset + (16 + length.toNat)) =
          .ok _ := sliceBson_eq_ok.mpr ⟨by omega, hinside, rfl⟩
      simp [bsonPayloadToJson, htext, hlength, hobject, bind, Except.bind, pure, Except.pure]
    · simp [bsonPayloadToJson, htext, bind, Except.bind, pure, Except.pure]
    · simp [bsonPayloadToJson, htext, bind, Except.bind, pure, Except.pure]

/-- Embedded documents and arrays have the JSON form they are converted to. -/
theorem bsonPayloadToJson_embedded (hskip : skipValue bytes offset elementType = .ok stop)
    (htype : elementType ∈ embeddedTypes) :
    bsonPayloadToJson bytes offset stop elementType
        (fun nested _ asArray => convert nested asArray) =
      convert ((bytes.drop offset).take (stop - offset)) (elementType = 0x04) := by
  obtain ⟨hle, hstop⟩ := skipValue_le hskip
  have hslice := sliceBson_eq_ok.mpr ⟨hle, hstop, rfl⟩
  simp only [embeddedTypes, List.mem_cons, List.not_mem_nil, or_false] at htype
  rcases htype with rfl | rfl <;>
  · simp only [bsonPayloadToJson]
    split
    · rename_i hslice'
      cases hslice.symm.trans hslice'
    · rename_i value hslice'
      cases hslice.symm.trans hslice'
      rfl

/-- A value that is skipped has a JSON form unless it is code with scope, a text that cannot be
read, or embedded and not converted. -/
theorem bsonPayloadToJson_isOk (hskip : skipValue bytes offset elementType = .ok stop) :
    (∃ value, bsonPayloadToJson bytes offset stop elementType
        (fun nested _ asArray => convert nested asArray) = .ok value) ↔
      elementType ≠ 0x0f ∧
      (elementType ∈ textTypes → ∃ text, readBsonString bytes offset = .ok text) ∧
      (elementType ∈ embeddedTypes →
        ∃ value, convert ((bytes.drop offset).take (stop - offset)) (elementType = 0x04) =
          .ok value) := by
  have hdisjoint : (∀ t ∈ plainTypes, t ≠ 0x0f ∧ t ∉ textTypes ∧ t ∉ embeddedTypes) ∧
      (∀ t ∈ textTypes, t ≠ 0x0f ∧ t ∉ embeddedTypes) ∧
      ∀ t ∈ embeddedTypes, t ≠ 0x0f ∧ t ∉ textTypes := by
    decide +kernel
  rcases skipValue_types hskip with hplain | htext | hembedded | rfl
  · obtain ⟨hscope, htext, hembedded⟩ := hdisjoint.1 elementType hplain
    exact iff_of_true (bsonPayloadToJson_plain convert hskip hplain)
      ⟨hscope, fun h => absurd h htext, fun h => absurd h hembedded⟩
  · obtain ⟨hscope, hembedded⟩ := hdisjoint.2.1 elementType htext
    rw [bsonPayloadToJson_text convert hskip htext]
    exact ⟨fun h => ⟨hscope, fun _ => h, fun h => absurd h hembedded⟩, fun h => h.2.1 htext⟩
  · obtain ⟨hscope, htext⟩ := hdisjoint.2.2 elementType hembedded
    rw [bsonPayloadToJson_embedded convert hskip hembedded]
    exact ⟨fun h => ⟨hscope, fun h => absurd h htext, fun _ => h⟩, fun h => h.2.2 hembedded⟩
  · exact iff_of_false (fun h => by obtain ⟨_, h⟩ := h; cases h) fun h => h.1 rfl

private theorem bsonValueToJson_eq_ok_iff {value : JsonValue} :
    bsonValueToJson bytes offset elementType (fun nested _ asArray => convert nested asArray) =
        .ok (value, stop) ↔
      skipValue bytes offset elementType = .ok stop ∧
        bsonPayloadToJson bytes offset stop elementType
          (fun nested _ asArray => convert nested asArray) = .ok value := by
  unfold bsonValueToJson
  split
  · rename_i hskip
    rw [hskip]
    exact iff_of_false (by simp) fun h => by cases h.1
  · rename_i next hskip
    dsimp only
    rw [hskip]
    split
    · rename_i hpayload
      constructor
      · simp
      · rintro ⟨⟨⟩, hvalue⟩
        cases hpayload.symm.trans hvalue
    · rename_i other hpayload
      constructor
      · rintro ⟨⟩
        exact ⟨rfl, hpayload⟩
      · rintro ⟨⟨⟩, hvalue⟩
        cases hpayload.symm.trans hvalue
        rfl

end Payloads

/-! ### Elements -/

/-- The JSON form of an element's value. -/
def Element.toJson (document : Bytes) (element : Element) : Except DecodeError JsonValue :=
  bsonPayloadToJson document element.valueStart element.next element.elementType
    (fun nested _ asArray => bsonContainerToJson nested asArray)

section Elements

variable {document : Bytes} {array : Bool} {offset : ℕ} {object : List (String × JsonValue)}
  {values : List JsonValue} {result : JsonValue}

/-- The loop goes on behind an element that has a JSON form. -/
theorem bsonElementsToJson_eq_ok_iff (hoffset : offset < document.length - 1) :
    bsonElementsToJson document array offset object values = .ok result ↔
      ∃ element value, elementAt? document offset = some element ∧
        element.next ≤ document.length - 1 ∧ element.toJson document = .ok value ∧
        bsonElementsToJson document array element.next
          (if array then object else JsonValue.insertMember element.key value object)
          (if array then values ++ [value] else values) = .ok result := by
  have hinside : offset < document.length := by omega
  have hbyte : document[offset] = document.getD offset 0 := List.getElem_eq_getD 0
  rw [bsonElementsToJson, dif_pos hoffset]
  constructor
  · intro h
    split at h
    · cases h
    · rename_i key afterKey hkey
      split at h
      · cases h
      · rename_i value next hvalue
        split at h
        · cases h
        · rename_i hnext
          obtain ⟨hskip, hjson⟩ := (bsonValueToJson_eq_ok_iff bsonContainerToJson).mp hvalue
          rw [hbyte] at hskip hjson
          refine ⟨⟨document.getD offset 0, key, afterKey, next⟩, value,
            elementAt?_eq_some.mpr ⟨rfl, hkey, hskip⟩, Nat.le_of_not_lt hnext, hjson, ?_⟩
          cases array <;> exact h
  · rintro ⟨element, value, helement, hnext, hjson, h⟩
    obtain ⟨htype, hkey, hskip⟩ := elementAt?_eq_some.mp helement
    unfold Element.toJson at hjson
    rw [htype, ← hbyte] at hskip hjson
    have hvalue := (bsonValueToJson_eq_ok_iff bsonContainerToJson).mpr ⟨hskip, hjson⟩
    split
    · rename_i hkey'
      cases hkey.symm.trans hkey'
    · rename_i hkey'
      cases hkey.symm.trans hkey'
      split
      · rename_i hvalue'
        cases hvalue.symm.trans hvalue'
      · rename_i hvalue'
        cases hvalue.symm.trans hvalue'
        rw [if_neg (Nat.not_lt_of_le hnext)]
        cases array <;> exact h

/-- The loop succeeds when it goes over elements, up to the end, that all have a JSON form. -/
theorem bsonElementsToJson_isOk :
    (∃ result, bsonElementsToJson document array offset object values = .ok result) ↔
      Placed document offset (elementsFrom document offset) ∧
        ∀ element ∈ elementsFrom document offset, ∃ value, element.toJson document = .ok value := by
  have hstuck : ∀ offset object values, offset < document.length - 1 →
      (∀ element, elementAt? document offset = some element →
        document.length - 1 < element.next) →
      ((∃ result, bsonElementsToJson document array offset object values = .ok result) ↔
        Placed document offset (elementsFrom document offset) ∧
          ∀ element ∈ elementsFrom document offset,
            ∃ value, element.toJson document = .ok value) := by
    intro offset object values hoffset hlong
    refine iff_of_false ?_ ?_
    · rintro ⟨result, h⟩
      obtain ⟨element, -, helement, hnext, -⟩ := (bsonElementsToJson_eq_ok_iff hoffset).mp h
      exact Nat.not_lt_of_le hnext (hlong element helement)
    · rw [elementsFrom_nil hlong]
      rintro ⟨hend, -⟩
      exact Nat.not_lt_of_le hend hoffset
  induction offset using elementsFrom.induct document generalizing object values with
  | case1 offset hoffset hnone =>
    exact hstuck _ _ _ hoffset fun element h => by cases hnone.symm.trans h
  | case2 offset hoffset element helement hlong =>
    refine hstuck _ _ _ hoffset fun other hother => ?_
    cases helement.symm.trans hother
    exact hlong
  | case3 offset hoffset element helement hnext ih =>
    have hnext := Nat.le_of_not_lt hnext
    rw [elementsFrom_cons hoffset helement hnext, List.forall_mem_cons]
    constructor
    · rintro ⟨result, h⟩
      obtain ⟨other, value, hother, -, hjson, h⟩ := (bsonElementsToJson_eq_ok_iff hoffset).mp h
      cases helement.symm.trans hother
      obtain ⟨hplaced, hrest⟩ := ih.mp ⟨result, h⟩
      exact ⟨⟨hoffset, helement, hnext, hplaced⟩, ⟨value, hjson⟩, hrest⟩
    · rintro ⟨⟨-, -, -, hplaced⟩, ⟨value, hjson⟩, hrest⟩
      obtain ⟨result, h⟩ := ih.mpr ⟨hplaced, hrest⟩
      exact ⟨result, (bsonElementsToJson_eq_ok_iff hoffset).mpr
        ⟨element, value, helement, hnext, hjson, h⟩⟩
  | case4 offset hend =>
    rw [bsonElementsToJson, dif_neg hend, elementsFrom, if_neg hend]
    exact iff_of_true ⟨_, rfl⟩ ⟨Nat.le_of_not_lt hend, by simp⟩

end Elements

/-! ### Documents -/

/-- Every element stands somewhere in the document, and its value can be skipped. -/
private theorem Placed.elementAt {document : Bytes} {offset : ℕ} {elements : List Element}
    (h : Placed document offset elements) : ∀ element ∈ elements, ∃ start, offset ≤ start ∧
      elementAt? document start = some element ∧ element.next ≤ document.length - 1 := by
  induction elements generalizing offset with
  | nil => nofun
  | cons first rest ih =>
    obtain ⟨-, hfirst, hnext, hrest⟩ := h
    have hlt := elementAt?_lt hfirst
    intro element hmem
    rcases List.mem_cons.mp hmem with rfl | hmem
    · exact ⟨offset, Nat.le_refl _, hfirst, hnext⟩
    · obtain ⟨start, hstart, helement⟩ := ih hrest element hmem
      exact ⟨start, by omega, helement⟩

private theorem isOk_of_convertible {document : Bytes} (h : Convertible document)
    (array : Bool) : ∃ value, bsonContainerToJson document array = .ok value := by
  induction h generalizing array with
  | @intro document hcontainer hplaced hscope htext _ ih =>
    unfold bsonContainerToJson
    rw [if_pos hcontainer]
    refine bsonElementsToJson_isOk.mpr ⟨hplaced, fun element hmem => ?_⟩
    obtain ⟨start, -, helement, -⟩ := hplaced.elementAt element hmem
    obtain ⟨-, -, hskip⟩ := elementAt?_eq_some.mp helement
    exact (bsonPayloadToJson_isOk bsonContainerToJson hskip).mpr
      ⟨hscope element hmem, htext element hmem, fun htype => ih element hmem htype _⟩

/-- The embedded documents are shorter, which the recursion follows. -/
private theorem convertible_of_isOk {document : Bytes} {array : Bool}
    (h : ∃ value, bsonContainerToJson document array = .ok value) : Convertible document := by
  obtain ⟨value, h⟩ := h
  unfold bsonContainerToJson at h
  split at h
  · rename_i hcontainer
    obtain ⟨hplaced, hjson⟩ := bsonElementsToJson_isOk.mp ⟨value, h⟩
    have hvalue : ∀ element ∈ documentElements document, element.elementType ≠ 0x0f ∧
        (element.elementType ∈ textTypes →
          ∃ text, readBsonString document element.valueStart = .ok text) ∧
        (element.elementType ∈ embeddedTypes → Convertible (element.valueBytes document)) := by
      intro element hmem
      obtain ⟨start, hstart, helement, hnext⟩ := hplaced.elementAt element hmem
      obtain ⟨-, -, hskip⟩ := elementAt?_eq_some.mp helement
      obtain ⟨hscope, htext, hembedded⟩ :=
        (bsonPayloadToJson_isOk bsonContainerToJson hskip).mp (hjson element hmem)
      have hlt := elementAt?_lt helement
      have hshorter : (element.valueBytes document).length < document.length := by
        unfold Element.valueBytes
        rw [List.length_take, List.length_drop]
        omega
      exact ⟨hscope, htext, fun htype => convertible_of_isOk (hembedded htype)⟩
    exact .intro hcontainer hplaced (fun element hmem => (hvalue element hmem).1)
      (fun element hmem => (hvalue element hmem).2.1) fun element hmem => (hvalue element hmem).2.2
  · cases h
termination_by document.length

/-- The documents and arrays that have a JSON form. -/
theorem convertible_iff (document : Bytes) (array : Bool) :
    Convertible document ↔ ∃ value, bsonContainerToJson document array = .ok value :=
  ⟨fun h => isOk_of_convertible h array, convertible_of_isOk⟩

/-- The loop adds members under the keys of the elements. -/
private theorem bsonElementsToJson_keys {document : Bytes} {offset : ℕ}
    {object : List (String × JsonValue)}
    {values : List JsonValue} {members : List (String × JsonValue)}
    (h : bsonElementsToJson document false offset object values = .ok (.object members)) :
    ∀ member ∈ members, member ∈ object ∨
      member.1 ∈ (elementsFrom document offset).map Element.key := by
  induction offset using elementsFrom.induct document generalizing object values with
  | case1 offset hoffset hnone =>
    obtain ⟨element, -, helement, -⟩ := (bsonElementsToJson_eq_ok_iff hoffset).mp h
    cases hnone.symm.trans helement
  | case2 offset hoffset element helement hlong =>
    obtain ⟨other, -, hother, hnext, -⟩ := (bsonElementsToJson_eq_ok_iff hoffset).mp h
    cases helement.symm.trans hother
    exact absurd hlong (Nat.not_lt_of_le hnext)
  | case3 offset hoffset element helement hnext ih =>
    obtain ⟨other, value, hother, -, -, hrest⟩ := (bsonElementsToJson_eq_ok_iff hoffset).mp h
    cases helement.symm.trans hother
    rw [elementsFrom_cons hoffset helement (Nat.le_of_not_lt hnext), List.map_cons]
    intro member hmember
    rcases ih hrest member hmember with hobject | hkey
    · rcases JsonValue.mem_insertMember hobject with rfl | hobject
      · exact Or.inr (List.mem_cons_self ..)
      · exact Or.inl hobject
    · exact Or.inr (List.mem_cons_of_mem _ hkey)
  | case4 offset hend =>
    rw [bsonElementsToJson, dif_neg hend] at h
    cases h
    exact fun member hmember => Or.inl hmember

/-- The JSON form of a document has its keys. -/
theorem bsonDocumentToJson_keys {document : Bytes} {members : List (String × JsonValue)}
    (h : bsonDocumentToJson document = .ok (.object members)) :
    ∀ member ∈ members, member.1 ∈ (documentElements document).map Element.key := by
  unfold bsonDocumentToJson bsonContainerToJson at h
  split at h
  · intro member hmember
    exact (bsonElementsToJson_keys h member hmember).resolve_left List.not_mem_nil
  · cases h

end MongoDam.Protocol
