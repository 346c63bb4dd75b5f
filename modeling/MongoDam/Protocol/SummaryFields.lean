import MongoDam.Protocol.Elements

/-!
# Fields of a summary

Most fields of a summary are set by one top-level key and by nothing else, and a value
that is cut sets nothing. When no key is repeated, such a field is read off the element
with its key: after the loop over a whole document, and after the loop over a captured
beginning if that loop reaches the element.
-/

namespace MongoDam.Protocol

open Lib

/-! ### Values that are cut -/

section Cut

variable {bytes : Bytes} {offset : ℕ} {elementType : UInt8}

private theorem length_lt_of_cut {length : ℕ} (hfixed : fixedLength elementType = some length)
    (hskip : ∀ stop, skipValue bytes offset elementType ≠ .ok stop) :
    bytes.length < offset + length := by
  have hend := hskip (offset + length)
  unfold skipValue checkedEnd at hend
  rw [hfixed] at hend
  dsimp only at hend
  split at hend
  · exact absurd rfl hend
  · omega

private theorem readI32_of_cut (h : bytes.length < offset + 4) :
    (readI32 bytes offset).toOption = none := by
  cases hread : readI32 bytes offset with
  | error e => rfl
  | ok value =>
    have := readI32_eq_ok hread
    omega

private theorem readI64_of_cut (h : bytes.length < offset + 8) :
    (readI64 bytes offset).toOption = none := by
  unfold readI64
  cases hread : readWord 8 bytes offset with
  | error e => rfl
  | ok value =>
    have := readWord_eq_ok hread
    omega

private theorem readDouble?_of_cut (h : bytes.length < offset + 8) :
    readDouble? bytes offset = none := by
  unfold readDouble? slice?
  rw [if_neg (by omega), Option.map_none]

theorem readBoolish_of_cut (hskip : ∀ stop, skipValue bytes offset elementType ≠ .ok stop) :
    readBoolish bytes offset elementType = none := by
  unfold readBoolish
  split
  · rw [readDouble?_of_cut (length_lt_of_cut rfl hskip), Option.map_none]
  · have := length_lt_of_cut rfl hskip
    rw [List.getElem?_eq_none (by omega), Option.map_none]
  · rw [readI32_of_cut (length_lt_of_cut rfl hskip), Option.map_none]
  · rw [readI64_of_cut (length_lt_of_cut rfl hskip), Option.map_none]
  · rfl

theorem readI32ish_of_cut (hskip : ∀ stop, skipValue bytes offset elementType ≠ .ok stop) :
    readI32ish bytes offset elementType = none := by
  unfold readI32ish
  split
  · exact readI32_of_cut (length_lt_of_cut rfl hskip)
  · rw [readI64_of_cut (length_lt_of_cut rfl hskip), Option.filter_none]
  · rw [readDouble?_of_cut (length_lt_of_cut rfl hskip), Option.bind_none]
  · rfl

theorem readU64ish_of_cut (hskip : ∀ stop, skipValue bytes offset elementType ≠ .ok stop) :
    readU64ish bytes offset elementType = none := by
  unfold readU64ish
  split
  · rw [readI32_of_cut (length_lt_of_cut rfl hskip), Option.filter_none, Option.map_none]
  · rw [readI64_of_cut (length_lt_of_cut rfl hskip), Option.filter_none, Option.map_none]
  · rw [readDouble?_of_cut (length_lt_of_cut rfl hskip), Option.bind_none]
  · rfl

/-- A text that is read is captured whole. -/
theorem readBsonString_of_cut (hskip : ∀ stop, skipValue bytes offset 0x02 ≠ .ok stop) :
    (readBsonString bytes offset).toOption = none := by
  have hend := fun stop => hskip stop
  unfold skipValue at hend
  change ∀ stop, skipPrefixed bytes offset 1 4 ≠ .ok stop at hend
  unfold skipPrefixed at hend
  unfold readBsonString
  split
  · rfl
  · rename_i length hread
    rw [hread] at hend
    dsimp only at hend
    split
    · rfl
    · rename_i hleast
      rw [if_neg hleast] at hend
      unfold slice?
      split
      · rfl
      · rename_i value hslice
        split at hslice
        · rename_i hinside
          have hle : offset + (4 + length.toNat) ≤ bytes.length := by omega
          unfold checkedEnd at hend
          rw [if_pos hle] at hend
          exact absurd rfl (hend _)
        · cases hslice

end Cut

/-! ### Fields that one key sets -/

/-- A field of a summary that one key sets. Its value is read off the element with that key;
other keys leave it as it is, and nothing is read off a value that is cut. -/
structure SummaryField (α : Type) where
  key : String
  get : BsonSummary → Option α
  read : Bytes → UInt8 → ℕ → Option ℕ → Option α
  get_empty : get {} = none
  get_query : ∀ summary query, get { summary with query } = get summary
  get_first : ∀ document ordinal elementType name valueStart summary,
    get (recordFirst document ordinal elementType name valueStart summary) = get summary
  get_other : ∀ document elementType name valueStart next summary, name ≠ key →
    get (recordField nestedSummary document elementType name valueStart next summary) = get summary
  get_own : ∀ document elementType valueStart next summary, get summary = none →
    get (recordField nestedSummary document elementType key valueStart next summary) =
      read document elementType valueStart next
  read_cut : ∀ document elementType valueStart,
    (∀ stop, skipValue document valueStart elementType ≠ .ok stop) →
    read document elementType valueStart none = none

/-- The first element sets the first key and its text only. -/
private theorem recordFirst_fields (document : Bytes) (ordinal : ℕ) (elementType : UInt8)
    (name : String) (valueStart : ℕ) (summary : BsonSummary) :
    ∃ firstKey firstString, recordFirst document ordinal elementType name valueStart summary =
      { summary with firstKey, firstString } := by
  unfold recordFirst
  split
  · exact ⟨_, _, rfl⟩
  · exact ⟨summary.firstKey, summary.firstString, rfl⟩

/-- What an element sets is decided by its key. -/
private theorem recordField_other (document : Bytes) (elementType : UInt8) (name : String)
    (valueStart : ℕ) (next : Option ℕ) (summary : BsonSummary) :
    let recorded := recordField nestedSummary document elementType name valueStart next summary
    (name ≠ "$db" → recorded.database = summary.database) ∧
      (name ≠ "collection" → recorded.collection = summary.collection) ∧
      (name ≠ "ok" → recorded.ok = summary.ok) ∧
      (name ≠ "code" → recorded.code = summary.code) ∧
      (name ≠ "codeName" → recorded.codeName = summary.codeName) ∧
      (name ≠ "n" → recorded.affectedCount = summary.affectedCount) ∧
      (name ≠ "deletes" → recorded.deleteScope = summary.deleteScope ∧
        recorded.deleteStatements = summary.deleteStatements) := by
  unfold recordField
  dsimp only
  refine ⟨?_, ?_, ?_, ?_, ?_, ?_, ?_⟩
  all_goals
    intro hne
    repeat' split
    all_goals first | rfl | exact ⟨rfl, rfl⟩ | exact absurd rfl hne

/-- A text, where the value is one. -/
def readText (document : Bytes) (elementType : UInt8) (valueStart : ℕ) : Option String :=
  if elementType = 0x02 then (readBsonString document valueStart).toOption else none

/-- The statements of a complete `deletes` array. -/
def readDeletes (document : Bytes) (elementType : UInt8) (valueStart : ℕ) (next : Option ℕ) :
    Option (Option DeleteScope × ℕ) :=
  if elementType = 0x04 then
    (next.bind (slice? document valueStart)).bind fun value =>
      (summarizeDeleteStatements value).toOption
  else none

theorem readText_of_cut {document : Bytes} {elementType : UInt8} {valueStart : ℕ}
    (hskip : ∀ stop, skipValue document valueStart elementType ≠ .ok stop) :
    readText document elementType valueStart = none := by
  unfold readText
  split
  · rename_i htype
    exact readBsonString_of_cut (htype ▸ hskip)
  · rfl

private theorem readDeletes_of_cut {document : Bytes} {elementType : UInt8} {valueStart : ℕ} :
    readDeletes document elementType valueStart none = none := by
  unfold readDeletes
  split <;> rfl

theorem recordField_deletes (document : Bytes) (elementType : UInt8) (valueStart : ℕ)
    (next : Option ℕ) (summary : BsonSummary) :
    recordField nestedSummary document elementType "deletes" valueStart next summary =
      match readDeletes document elementType valueStart next with
      | some (scope, statements) =>
        { summary with deleteScope := scope, deleteStatements := some statements }
      | none => summary := by
  change (if elementType = 0x04 then _ else summary) = _
  unfold readDeletes
  split
  · cases next.bind (slice? document valueStart) with
    | none => rfl
    | some value =>
      dsimp only [Option.bind_some]
      cases summarizeDeleteStatements value with
      | error e => rfl
      | ok statements => rfl
  · rfl

namespace SummaryField

def database : SummaryField String where
  key := "$db"
  get := BsonSummary.database
  read document elementType valueStart _ := readText document elementType valueStart
  get_empty := rfl
  get_query _ _ := rfl
  get_first _ _ _ _ _ _ := by
    obtain ⟨_, _, h⟩ := recordFirst_fields ..
    rw [h]
  get_other _ _ _ _ _ _ hne := (recordField_other ..).1 hne
  get_own document elementType valueStart next summary hnone := by
    change (if elementType = 0x02 then _ else summary).database = _
    unfold readText
    split
    · rfl
    · exact hnone
  read_cut _ _ _ := readText_of_cut

def collection : SummaryField String where
  key := "collection"
  get := BsonSummary.collection
  read document elementType valueStart _ := readText document elementType valueStart
  get_empty := rfl
  get_query _ _ := rfl
  get_first _ _ _ _ _ _ := by
    obtain ⟨_, _, h⟩ := recordFirst_fields ..
    rw [h]
  get_other _ _ _ _ _ _ hne := (recordField_other ..).2.1 hne
  get_own document elementType valueStart next summary hnone := by
    change (if elementType = 0x02 then _ else summary).collection = _
    unfold readText
    split
    · rfl
    · exact hnone
  read_cut _ _ _ := readText_of_cut

def ok : SummaryField Bool where
  key := "ok"
  get := BsonSummary.ok
  read document elementType valueStart _ := readBoolish document valueStart elementType
  get_empty := rfl
  get_query _ _ := rfl
  get_first _ _ _ _ _ _ := by
    obtain ⟨_, _, h⟩ := recordFirst_fields ..
    rw [h]
  get_other _ _ _ _ _ _ hne := (recordField_other ..).2.2.1 hne
  get_own _ _ _ _ _ _ := rfl
  read_cut _ _ _ := readBoolish_of_cut

def code : SummaryField ℤ where
  key := "code"
  get := BsonSummary.code
  read document elementType valueStart _ := readI32ish document valueStart elementType
  get_empty := rfl
  get_query _ _ := rfl
  get_first _ _ _ _ _ _ := by
    obtain ⟨_, _, h⟩ := recordFirst_fields ..
    rw [h]
  get_other _ _ _ _ _ _ hne := (recordField_other ..).2.2.2.1 hne
  get_own _ _ _ _ _ _ := rfl
  read_cut _ _ _ := readI32ish_of_cut

def codeName : SummaryField String where
  key := "codeName"
  get := BsonSummary.codeName
  read document elementType valueStart _ := readText document elementType valueStart
  get_empty := rfl
  get_query _ _ := rfl
  get_first _ _ _ _ _ _ := by
    obtain ⟨_, _, h⟩ := recordFirst_fields ..
    rw [h]
  get_other _ _ _ _ _ _ hne := (recordField_other ..).2.2.2.2.1 hne
  get_own document elementType valueStart next summary hnone := by
    change (if elementType = 0x02 then _ else summary).codeName = _
    unfold readText
    split
    · rfl
    · exact hnone
  read_cut _ _ _ := readText_of_cut

def affectedCount : SummaryField ℕ where
  key := "n"
  get := BsonSummary.affectedCount
  read document elementType valueStart _ := readU64ish document valueStart elementType
  get_empty := rfl
  get_query _ _ := rfl
  get_first _ _ _ _ _ _ := by
    obtain ⟨_, _, h⟩ := recordFirst_fields ..
    rw [h]
  get_other _ _ _ _ _ _ hne := (recordField_other ..).2.2.2.2.2.1 hne
  get_own _ _ _ _ _ _ := rfl
  read_cut _ _ _ := readU64ish_of_cut

def deleteScope : SummaryField DeleteScope where
  key := "deletes"
  get := BsonSummary.deleteScope
  read document elementType valueStart next :=
    (readDeletes document elementType valueStart next).bind Prod.fst
  get_empty := rfl
  get_query _ _ := rfl
  get_first _ _ _ _ _ _ := by
    obtain ⟨_, _, h⟩ := recordFirst_fields ..
    rw [h]
  get_other _ _ _ _ _ _ hne := ((recordField_other ..).2.2.2.2.2.2 hne).1
  get_own document elementType valueStart next summary hnone := by
    rw [recordField_deletes]
    cases readDeletes document elementType valueStart next with
    | none => exact hnone
    | some deletes => rfl
  read_cut _ _ _ _ := by rw [readDeletes_of_cut, Option.bind_none]

def deleteStatements : SummaryField ℕ where
  key := "deletes"
  get := BsonSummary.deleteStatements
  read document elementType valueStart next :=
    (readDeletes document elementType valueStart next).map Prod.snd
  get_empty := rfl
  get_query _ _ := rfl
  get_first _ _ _ _ _ _ := by
    obtain ⟨_, _, h⟩ := recordFirst_fields ..
    rw [h]
  get_other _ _ _ _ _ _ hne := ((recordField_other ..).2.2.2.2.2.2 hne).2
  get_own document elementType valueStart next summary hnone := by
    rw [recordField_deletes]
    cases readDeletes document elementType valueStart next with
    | none => exact hnone
    | some deletes => rfl
  read_cut _ _ _ _ := by rw [readDeletes_of_cut, Option.map_none]

/-! ### Reading a field off its element -/

variable {α : Type} (field : SummaryField α)

/-- What a field reads off a complete element. -/
def value (document : Bytes) (element : Element) : Option α :=
  field.read document element.elementType element.valueStart (some element.next)

/-- What a field reads off the element with its key. -/
def valueIn (document : Bytes) (elements : List Element) : Option α :=
  (elements.find? (·.key = field.key)).bind (field.value document)

variable {field}

private theorem get_record_of_ne {document : Bytes} {ordinal : ℕ} {element : Element}
    {summary : BsonSummary} (hne : element.key ≠ field.key) :
    field.get (element.record document ordinal summary) = field.get summary := by
  unfold Element.record recordElement
  rw [field.get_other _ _ _ _ _ _ hne, field.get_first]

private theorem get_record_of_eq {document : Bytes} {ordinal : ℕ} {element : Element}
    {summary : BsonSummary} (hkey : element.key = field.key) (hnone : field.get summary = none) :
    field.get (element.record document ordinal summary) = field.value document element := by
  unfold Element.record recordElement
  rw [hkey, field.get_own _ _ _ _ _ (by rw [field.get_first, hnone])]
  rfl

private theorem get_recordAll_of_forall_ne {document : Bytes} {ordinal : ℕ}
    {elements : List Element} {summary : BsonSummary}
    (hne : ∀ element ∈ elements, element.key ≠ field.key) :
    field.get (recordAll document ordinal elements summary) = field.get summary := by
  induction elements generalizing ordinal summary with
  | nil => rfl
  | cons element rest ih =>
    obtain ⟨hfirst, hrest⟩ := List.forall_mem_cons.mp hne
    unfold recordAll
    rw [ih hrest, get_record_of_ne hfirst]

/-- When no key is repeated, a field is what is read off the element with its key. -/
theorem get_recordAll {document : Bytes} {ordinal : ℕ} {elements : List Element}
    {summary : BsonSummary} (hnodup : (elements.map Element.key).Nodup)
    (hnone : field.get summary = none) :
    field.get (recordAll document ordinal elements summary) = field.valueIn document elements := by
  induction elements generalizing ordinal summary with
  | nil => exact hnone
  | cons element rest ih =>
    obtain ⟨hfresh, hrest⟩ := List.nodup_cons.mp hnodup
    unfold recordAll valueIn
    by_cases hkey : element.key = field.key
    · rw [List.find?_cons_of_pos (by simpa using hkey), Option.bind_some,
        get_recordAll_of_forall_ne, get_record_of_eq hkey hnone]
      intro other hother heq
      exact hfresh (hkey.trans heq.symm ▸ List.mem_map_of_mem hother)
    · rw [List.find?_cons_of_neg (by simpa using hkey)]
      exact ih hrest ((get_record_of_ne hkey).trans hnone)

/-- A field of a captured beginning is what is read off the elements that the loop reaches. -/
theorem get_prefixEnd {document : Bytes} {m : ℕ} {elements : List Element}
    {result : BsonSummary} (hnodup : (elements.map Element.key).Nodup)
    (h : PrefixEnd document m 0 elements {} result) :
    field.get result = field.valueIn document (reached m elements) := by
  have hreached : ((reached m elements).map Element.key).Nodup :=
    hnodup.sublist ((reached_isPrefix m elements).sublist.map _)
  cases h with
  | reached => exact get_recordAll hreached field.get_empty
  | @cut element rest hrest hskip =>
    have hbase : field.get (recordAll document 0 (reached m elements) {}) =
        field.valueIn document (reached m elements) := get_recordAll hreached field.get_empty
    unfold recordElement
    by_cases hkey : element.key = field.key
    · -- the value is cut, and no element with its key was reached
      have hnone : field.valueIn document (reached m elements) = none := by
        rw [hrest, List.map_append, List.map_cons] at hnodup
        unfold valueIn
        rw [List.find?_eq_none.mpr, Option.bind_none]
        intro other hother heq
        have hmem : element.key ∈ (reached m elements).map Element.key := by
          rw [hkey, ← of_decide_eq_true heq]
          exact List.mem_map_of_mem hother
        exact (List.nodup_append.mp hnodup).2.2 _ hmem _ (List.mem_cons_self ..) rfl
      rw [hkey, field.get_own _ _ _ _ _ (by rw [field.get_first, hbase, hnone]), hnone]
      exact field.read_cut _ _ _ hskip
    · rw [field.get_other _ _ _ _ _ _ hkey, field.get_first, hbase]

end SummaryField

end MongoDam.Protocol
