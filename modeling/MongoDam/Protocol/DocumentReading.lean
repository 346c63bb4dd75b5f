import MongoDam.Protocol.Documents
import MongoDam.Protocol.PrefixFields

/-!
# Reading encoded documents

A document is summarized from its bytes as it would be from its tree: the first key,
and each field by the value of the element with its key, as the reader of the field
converts it. The JSON form of the bytes is the JSON form of the tree.
-/

namespace MongoDam.Protocol

open Lib

/-! ### Numbers in two's complement -/

theorem signed32_toUInt32 (value : Int32) : signed32 value.toUInt32.toNat = value.toInt := by
  have hint : value.toInt = value.toBitVec.toInt := rfl
  have hnat : value.toUInt32.toNat = value.toBitVec.toNat := rfl
  rw [hint, hnat, BitVec.toInt_eq_toNat_cond]
  unfold signed32
  have hlt := value.toBitVec.isLt
  split
  · rw [if_pos (by omega)]
  · rw [if_neg (by omega)]
    omega

theorem signed64_toUInt64 (value : Int64) : signed64 value.toUInt64.toNat = value.toInt := by
  have hint : value.toInt = value.toBitVec.toInt := rfl
  have hnat : value.toUInt64.toNat = value.toBitVec.toNat := rfl
  rw [hint, hnat, BitVec.toInt_eq_toNat_cond]
  unfold signed64
  have hlt := value.toBitVec.isLt
  split
  · rw [if_pos (by omega)]
  · rw [if_neg (by omega)]
    omega

section Behind

variable (front rest : Bytes)

theorem readI32_int32 (value : Int32) :
    readI32 (front ++ (leBytes 4 value.toUInt32.toNat ++ rest)) front.length =
      .ok value.toInt := by
  unfold readI32
  rw [readWord_behind front rest (by have := value.toUInt32.toNat_lt; omega)]
  exact congrArg Except.ok (signed32_toUInt32 value)

theorem readI64_int64 (value : Int64) :
    readI64 (front ++ (leBytes 8 value.toUInt64.toNat ++ rest)) front.length =
      .ok value.toInt := by
  unfold readI64
  rw [readWord_behind front rest (by have := value.toUInt64.toNat_lt; omega)]
  exact congrArg Except.ok (signed64_toUInt64 value)

theorem readDouble?_double (bits : UInt64) :
    readDouble? (front ++ (leBytes 8 bits.toNat ++ rest)) front.length = some bits.toNat := by
  have hbits : bits.toNat < 256 ^ 8 := bits.toNat_lt
  have hslice := slice?_behind front rest (leBytes 8 bits.toNat)
  rw [leBytes_length] at hslice
  unfold readDouble?
  rw [hslice, Option.map_some, leNat_leBytes hbits]

theorem getElem?_behind (byte : UInt8) :
    (front ++ ([byte] ++ rest))[front.length]? = some byte := by
  rw [List.singleton_append, List.getElem?_append_right (Nat.le_refl _), Nat.sub_self,
    List.getElem?_cons_zero]

end Behind

namespace BsonValue

/-! ### What the readers of fields accept -/

/-- The text of a string. -/
def text? : BsonValue → Option String
  | string text => some text
  | _ => none

/-- The truth value of a boolean or a number. -/
def truth? : BsonValue → Option Bool
  | boolean value => some value
  | double bits => some (!Double.isZero bits.toNat)
  | int32 value => some (value.toInt ≠ 0)
  | int64 value => some (value.toInt ≠ 0)
  | _ => none

/-- A number in the range of 32-bit integers, toward zero. -/
def int32? : BsonValue → Option ℤ
  | int32 value => some value.toInt
  | int64 value => if -2 ^ 31 ≤ value.toInt ∧ value.toInt < 2 ^ 31 then some value.toInt else none
  | double bits => Double.toI32? bits.toNat
  | _ => none

/-- A number that is a natural number of 64 bits. -/
def count? : BsonValue → Option ℕ
  | int32 value => if 0 ≤ value.toInt then some value.toInt.toNat else none
  | int64 value => if 0 ≤ value.toInt then some value.toInt.toNat else none
  | double bits => Double.toU64? bits.toNat
  | _ => none

section Reading

variable (front rest : Bytes) {value : BsonValue}

theorem readText_encode (h : value.encode.length < 2 ^ 31) :
    readText (front ++ (value.encode ++ rest)) value.elementType front.length = value.text? := by
  cases value with
  | string text =>
    change (readBsonString _ _).toOption = _
    rw [encode, readBsonString_behind front rest h]
    rfl
  | _ => rfl

theorem readBoolish_encode :
    readBoolish (front ++ (value.encode ++ rest)) front.length value.elementType =
      value.truth? := by
  cases value with
  | double bits =>
    change (readDouble? _ _).map _ = _
    rw [encode, readDouble?_double]
    rfl
  | boolean value =>
    change ((_ : Bytes)[_]?).map _ = _
    rw [encode, getElem?_behind]
    cases value <;> rfl
  | int32 value =>
    change (readI32 _ _).toOption.map _ = _
    rw [encode, readI32_int32]
    rfl
  | int64 value =>
    change (readI64 _ _).toOption.map _ = _
    rw [encode, readI64_int64]
    rfl
  | _ => rfl

theorem readI32ish_encode :
    readI32ish (front ++ (value.encode ++ rest)) front.length value.elementType =
      value.int32? := by
  cases value with
  | double bits =>
    change (readDouble? _ _).bind _ = _
    rw [encode, readDouble?_double]
    rfl
  | int32 value =>
    change (readI32 _ _).toOption = _
    rw [encode, readI32_int32]
    rfl
  | int64 value =>
    change (readI64 _ _).toOption.filter _ = _
    rw [encode, readI64_int64]
    simp [Except.toOption, Option.filter, int32?]
  | _ => rfl

theorem readU64ish_encode :
    readU64ish (front ++ (value.encode ++ rest)) front.length value.elementType =
      value.count? := by
  cases value with
  | double bits =>
    change (readDouble? _ _).bind _ = _
    rw [encode, readDouble?_double]
    rfl
  | int32 value =>
    change ((readI32 _ _).toOption.filter _).map _ = _
    rw [encode, readI32_int32]
    by_cases hsign : 0 ≤ value.toInt <;> simp [Except.toOption, Option.filter, count?, hsign]
  | int64 value =>
    change ((readI64 _ _).toOption.filter _).map _ = _
    rw [encode, readI64_int64]
    by_cases hsign : 0 ≤ value.toInt <;> simp [Except.toOption, Option.filter, count?, hsign]
  | _ => rfl

end Reading

end BsonValue

/-! ### Summaries -/

/-- The loop records the elements that stand in a document. -/
theorem summarizeLoop_of_placed {document : Bytes} {offset ordinal : ℕ} {elements : List Element}
    {summary : BsonSummary} (h : Placed document offset elements) :
    summarizeLoop nestedSummary document offset ordinal summary =
      .ok (recordAll document ordinal elements summary) := by
  induction elements generalizing offset ordinal summary with
  | nil =>
    have hend : document.length - 1 ≤ offset := h
    rw [summarizeLoop_eq, if_neg (by omega)]
    rfl
  | cons element rest ih =>
    obtain ⟨hoffset, helement, hnext, hrest⟩ := h
    obtain ⟨htype, hkey, hskip⟩ := elementAt?_eq_some.mp helement
    rw [summarizeLoop_eq, if_pos hoffset, hkey]
    dsimp only
    rw [← htype, hskip]
    dsimp only
    rw [if_neg (by omega), ih hrest]
    rfl

/-- The value of the first element with a key. -/
def BsonElements.get? (elements : BsonElements) (key : String) : Option BsonValue :=
  (elements.find? (·.1.text = key)).map Prod.snd

/-- No key occurs twice. -/
def BsonElements.Unrepeated (elements : BsonElements) : Prop :=
  (elements.map (·.1.text)).Nodup

theorem placedAt_keys (offset : ℕ) (elements : BsonElements) :
    (placedAt offset elements).map Element.key = elements.map (·.1.text) := by
  induction elements generalizing offset with
  | nil => rfl
  | cons element rest ih => exact congrArg _ (ih _)

/-- The reader of a field gives what a value denotes to it, wherever the value stands. -/
def SummaryField.Reads (field : SummaryField α) (denote : BsonValue → Option α) : Prop :=
  ∀ (front rest : Bytes) (value : BsonValue), value.encode.length < 2 ^ 31 →
    field.read (front ++ (value.encode ++ rest)) value.elementType front.length
      (some (front.length + value.encode.length)) = denote value

/-- A field is read off the value with its key. -/
theorem SummaryField.valueIn_encode {field : SummaryField α} {denote : BsonValue → Option α}
    (hreads : field.Reads denote) (front rest : Bytes) {elements : BsonElements}
    (h : (BsonValue.encodeElements elements).length < 2 ^ 31) :
    field.valueIn (front ++ (BsonValue.encodeElements elements ++ rest))
        (placedAt front.length elements) =
      (elements.get? field.key).bind denote := by
  induction elements generalizing front with
  | nil => rfl
  | cons element tail ih =>
    obtain ⟨key, value⟩ := element
    have hsplit : front ++ (BsonValue.encodeElements ((key, value) :: tail) ++ rest) =
        (front ++ lead key value) ++ (value.encode ++ (BsonValue.encodeElements tail ++ rest)) := by
      simp only [encodeElements_cons, List.append_assoc]
    have hlength := h
    rw [encodeElements_cons, List.length_append, List.length_append] at hlength
    have hstart : (elementAt front.length key value).valueStart =
        (front ++ lead key value).length := by
      rw [List.length_append, lead_length]
      change front.length + 1 + (toUtf8 key.text).length + 1 = _
      omega
    have hnext : (elementAt front.length key value).next =
        (front ++ lead key value).length + value.encode.length := by
      rw [← hstart]
      rfl
    unfold SummaryField.valueIn BsonElements.get?
    by_cases hkey : key.text = field.key
    · rw [placedAt, List.find?_cons_of_pos (by exact decide_eq_true hkey),
        List.find?_cons_of_pos (by exact decide_eq_true hkey), Option.bind_some]
      have hread := hreads (front ++ lead key value) (BsonValue.encodeElements tail ++ rest) value
        (by omega)
      rw [← hsplit, ← hnext, ← hstart] at hread
      exact hread
    · have hother : ¬decide (key.text = field.key) = true := fun h => hkey (of_decide_eq_true h)
      rw [placedAt, List.find?_cons_of_neg (by exact hother),
        List.find?_cons_of_neg (by exact hother), hsplit, ← List.append_assoc, hnext,
        ← List.length_append]
      exact ih ((front ++ lead key value) ++ value.encode) (by omega)

/-- What the summary of a document holds, by the tree of the document. -/
structure BsonElements.SummarizedAs (elements : BsonElements) (summary : BsonSummary) : Prop where
  database : summary.database = (elements.get? "$db").bind BsonValue.text?
  collection : summary.collection = (elements.get? "collection").bind BsonValue.text?
  ok : summary.ok = (elements.get? "ok").bind BsonValue.truth?
  code : summary.code = (elements.get? "code").bind BsonValue.int32?
  codeName : summary.codeName = (elements.get? "codeName").bind BsonValue.text?
  affectedCount : summary.affectedCount = (elements.get? "n").bind BsonValue.count?

namespace SummaryField

theorem database_reads : database.Reads BsonValue.text? :=
  fun front rest _ h => BsonValue.readText_encode front rest h

theorem collection_reads : collection.Reads BsonValue.text? :=
  fun front rest _ h => BsonValue.readText_encode front rest h

theorem ok_reads : ok.Reads BsonValue.truth? :=
  fun front rest _ _ => BsonValue.readBoolish_encode front rest

theorem code_reads : code.Reads BsonValue.int32? :=
  fun front rest _ _ => BsonValue.readI32ish_encode front rest

theorem codeName_reads : codeName.Reads BsonValue.text? :=
  fun front rest _ h => BsonValue.readText_encode front rest h

theorem affectedCount_reads : affectedCount.Reads BsonValue.count? :=
  fun front rest _ _ => BsonValue.readU64ish_encode front rest

end SummaryField

/-- The query changes no field. -/
theorem SummaryField.get_attachQuery (field : SummaryField α) (document : Bytes)
    (summary : BsonSummary) : field.get (attachQuery document summary) = field.get summary := by
  unfold attachQuery
  split
  · exact field.get_query _ _
  · rfl

theorem firstKey_attachQuery (document : Bytes) (summary : BsonSummary) :
    (attachQuery document summary).firstKey = summary.firstKey := by
  unfold attachQuery
  split <;> rfl

/-- An encoded document is its length, its elements and a NUL. -/
theorem BsonElements.encode_eq (elements : BsonElements) :
    elements.encode = leBytes 4 ((BsonValue.encodeElements elements).length + 5) ++
      (BsonValue.encodeElements elements ++ [0]) := by
  rw [BsonElements.encode, encodeDocument, List.append_assoc]

theorem BsonElements.encode_length (elements : BsonElements) :
    elements.encode.length = (BsonValue.encodeElements elements).length + 5 :=
  encodeDocument_length _

/-- The summary of an encoded document. -/
theorem summarizeBson_encode {elements : BsonElements} (h : elements.encode.length < 2 ^ 31) :
    ∃ summary, summarizeBson elements.encode = .ok summary ∧
      summary.firstKey = elements.head?.map (·.1.text) ∧
      (elements.Unrepeated → elements.SummarizedAs summary) := by
  rw [BsonElements.encode_length] at h
  have hfront : (leBytes 4 ((BsonValue.encodeElements elements).length + 5)).length = 4 :=
    leBytes_length _ _
  have hfits : (BsonValue.encodeElements elements).length < 2 ^ 31 := by omega
  have hplaced := placed_encodeElements
    (leBytes 4 ((BsonValue.encodeElements elements).length + 5)) hfits
  rw [← elements.encode_eq, hfront] at hplaced
  have hsummary : summarizeBson elements.encode =
      .ok (attachQuery elements.encode
        (recordAll elements.encode 0 (placedAt 4 elements) {})) := by
    have hcontainer : isContainer elements.encode = true := isContainer_encodeDocument h
    change (if isContainer elements.encode then _ else _) = _
    rw [if_pos hcontainer]
    exact congrArg (Except.map _) (summarizeLoop_of_placed hplaced)
  refine ⟨_, hsummary, ?_, fun hkeys => ?_⟩
  · rw [firstKey_attachQuery, (recordAll_first ..).1]
    cases elements <;> rfl
  · have hnodup : ((placedAt 4 elements).map Element.key).Nodup := by
      rw [placedAt_keys]
      exact hkeys
    have hvalue : ∀ {β : Type} (field : SummaryField β) {denote : BsonValue → Option β},
        field.Reads denote →
        field.get (attachQuery elements.encode
          (recordAll elements.encode 0 (placedAt 4 elements) {})) =
            (elements.get? field.key).bind denote := by
      intro β field denote hreads
      have hread := field.valueIn_encode hreads
        (leBytes 4 ((BsonValue.encodeElements elements).length + 5)) [0] hfits
      rw [← elements.encode_eq, hfront] at hread
      rw [field.get_attachQuery, field.get_recordAll hnodup field.get_empty, hread]
    exact {
      database := hvalue .database SummaryField.database_reads
      collection := hvalue .collection SummaryField.collection_reads
      ok := hvalue .ok SummaryField.ok_reads
      code := hvalue .code SummaryField.code_reads
      codeName := hvalue .codeName SummaryField.codeName_reads
      affectedCount := hvalue .affectedCount SummaryField.affectedCount_reads }

end MongoDam.Protocol
