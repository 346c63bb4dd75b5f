import MongoDam.Protocol.PrefixQuery
import MongoDam.Protocol.SummaryFields

/-!
# Fields of captured beginnings

What is decoded from the beginning of a document is compared, field by field, with
what is decoded from the whole document: the first key is the same, and a field that
the beginning reports is the document's. So the metadata of the beginning of a frame
that starts with its body is the metadata of the whole frame, as far as it goes.
-/

namespace MongoDam.Protocol

open Lib

/-! ### The first element -/

private theorem recordField_first (document : Bytes) (elementType : UInt8) (key : String)
    (valueStart : ℕ) (next : Option ℕ) (summary : BsonSummary) :
    (recordField nestedSummary document elementType key valueStart next summary).firstKey =
        summary.firstKey ∧
      (recordField nestedSummary document elementType key valueStart next summary).firstString =
        summary.firstString := by
  unfold recordField
  repeat' split
  all_goals exact ⟨rfl, rfl⟩

private theorem recordElement_first_of_pos {ordinal : ℕ} (hordinal : ordinal ≠ 0)
    (document : Bytes) (elementType : UInt8) (key : String) (valueStart : ℕ) (next : Option ℕ)
    (summary : BsonSummary) :
    let recorded :=
      recordElement nestedSummary document ordinal elementType key valueStart next summary
    recorded.firstKey = summary.firstKey ∧ recorded.firstString = summary.firstString := by
  unfold recordElement recordFirst
  rw [if_neg hordinal]
  exact recordField_first ..

private theorem recordElement_first_of_zero (document : Bytes) (elementType : UInt8)
    (key : String) (valueStart : ℕ) (next : Option ℕ) :
    let recorded := recordElement nestedSummary document 0 elementType key valueStart next {}
    recorded.firstKey = some key ∧
      recorded.firstString = readText document elementType valueStart := by
  unfold recordElement recordFirst
  rw [if_pos rfl]
  exact recordField_first ..

/-- Elements behind the first one leave the first key and its text alone. -/
private theorem recordAll_first_of_pos {document : Bytes} {ordinal : ℕ} (hordinal : ordinal ≠ 0)
    (elements : List Element) (summary : BsonSummary) :
    (recordAll document ordinal elements summary).firstKey = summary.firstKey ∧
      (recordAll document ordinal elements summary).firstString = summary.firstString := by
  induction elements generalizing ordinal summary with
  | nil => exact ⟨rfl, rfl⟩
  | cons element rest ih =>
    obtain ⟨hkey, htext⟩ := ih (Nat.succ_ne_zero _) (element.record document ordinal summary)
    obtain ⟨hkey', htext'⟩ := recordElement_first_of_pos hordinal document element.elementType
      element.key element.valueStart (some element.next) summary
    exact ⟨hkey.trans hkey', htext.trans htext'⟩

/-- The text of an element, where its value is one. -/
def Element.text (document : Bytes) (element : Element) : Option String :=
  readText document element.elementType element.valueStart

/-- The first key and its text come from the first element. -/
theorem recordAll_first (document : Bytes) (elements : List Element) :
    (recordAll document 0 elements {}).firstKey = elements.head?.map Element.key ∧
      (recordAll document 0 elements {}).firstString =
        elements.head?.bind (Element.text document) := by
  cases elements with
  | nil => exact ⟨rfl, rfl⟩
  | cons element rest =>
    obtain ⟨hkey, htext⟩ := @recordAll_first_of_pos document _ (Nat.succ_ne_zero 0) rest
      (element.record document 0 {})
    obtain ⟨hkey', htext'⟩ := recordElement_first_of_zero document element.elementType
      element.key element.valueStart (some element.next)
    exact ⟨hkey.trans hkey', htext.trans htext'⟩

/-- When anything is reached, the first element is. -/
theorem reached_head? {m : ℕ} {elements : List Element} (h : reached m elements ≠ []) :
    (reached m elements).head? = elements.head? := by
  obtain ⟨rest, hrest⟩ := reached_isPrefix m elements
  refine Eq.trans ?_ (congrArg List.head? hrest)
  cases hreached : reached m elements with
  | nil => exact absurd hreached h
  | cons first others => rfl

/-- The first key of a captured beginning is the first key, and its text is there when the
first element is reached. -/
theorem prefixEnd_first {document : Bytes} {m : ℕ} {elements : List Element}
    {result : BsonSummary} (h : PrefixEnd document m 0 elements {} result) :
    (∀ key, result.firstKey = some key → elements.head?.map Element.key = some key) ∧
      (reached m elements ≠ [] → result.firstKey = elements.head?.map Element.key) ∧
      result.firstString = (reached m elements).head?.bind (Element.text document) := by
  have hhead : reached m elements ≠ [] → _ := reached_head?
  cases h with
  | reached =>
    obtain ⟨hkey, htext⟩ := recordAll_first document (reached m elements)
    refine ⟨fun key hresult => ?_, fun hne => ?_, htext⟩
    · have hne : reached m elements ≠ [] := by
        intro hnil
        rw [hkey, hnil] at hresult
        cases hresult
      rw [← hhead hne, ← hkey, hresult]
    · rw [← hhead hne, hkey]
  | @cut element rest hrest hskip =>
    by_cases hnil : reached m elements = []
    · rw [hnil] at hrest ⊢
      obtain ⟨hkey, htext⟩ := recordElement_first_of_zero (document.take m) element.elementType
        element.key element.valueStart none
      have hfirst : elements.head? = some element := by
        rw [hrest]
        rfl
      rw [hfirst]
      refine ⟨fun key hresult => ?_, fun hne => absurd rfl hne, htext.trans ?_⟩
      · exact hkey.symm.trans hresult
      · exact readText_of_cut hskip
    · have hlength : 0 + (reached m elements).length ≠ 0 := by
        have := List.length_pos_iff.mpr hnil
        omega
      obtain ⟨hkey, htext⟩ := recordElement_first_of_pos hlength (document.take m)
        element.elementType element.key element.valueStart none
        (recordAll document 0 (reached m elements) {})
      obtain ⟨hkey', htext'⟩ := recordAll_first document (reached m elements)
      have hfirst := hkey.trans (hkey'.trans (congrArg _ (hhead hnil)))
      exact ⟨fun key hresult => hfirst.symm.trans hresult, fun _ => hfirst, htext.trans htext'⟩

/-! ### Documents and their beginnings -/

/-- A summarized document consists of its elements, and the summary is theirs but for the
query. -/
theorem summarizeBson_elements {document : Bytes} {summary : BsonSummary}
    (h : summarizeBson document = .ok summary) :
    Placed document 4 (documentElements document) ∧
      ∃ query, summary = { recordAll document 0 (documentElements document) {} with query } := by
  obtain ⟨-, result, hloop, rfl⟩ := summarizeWith_eq_ok h
  obtain ⟨hplaced, rfl⟩ := summarizeLoop_elements hloop
  refine ⟨hplaced, ?_⟩
  unfold attachQuery
  split
  · exact ⟨_, rfl⟩
  · exact ⟨_, rfl⟩

/-- The beginning of a document is summarized like the document when it is all of it, and by
the loop over the elements otherwise. -/
theorem summarizeBsonPrefix_take {bytes : Bytes} {size m : ℕ} {summary : BsonSummary}
    (hwhole : summarizeBson (bytes.take size) = .ok summary) (hsize : size ≤ bytes.length)
    (hm : 4 ≤ m) :
    summarizeBsonPrefix (bytes.take m) =
      if size ≤ m then .ok summary
      else if m < 5 then .error .truncated
      else
        let result := summarizePrefixLoop ((bytes.take size).take m) m 4 0 {}
        if result.firstKey = none then .error .truncated else .ok result := by
  obtain ⟨hcontainer, -⟩ := summarizeWith_eq_ok hwhole
  obtain ⟨hleast, hdeclared, -⟩ := of_decide_eq_true hcontainer
  have hlength : (bytes.take size).length = size := by
    rw [List.length_take]
    omega
  rw [hlength] at hleast hdeclared
  have hcut : (bytes.take m).length = min m bytes.length := List.length_take
  have hread : readI32 (bytes.take m) 0 = .ok (size : ℤ) := by
    rw [readI32_take (by omega), ← readI32_take (n := size) (by omega)]
    cases hsize : readI32 (bytes.take size) 0 with
    | error e =>
      rw [hsize] at hdeclared
      cases hdeclared
    | ok declared =>
      rw [hsize] at hdeclared
      rw [← Option.some.inj hdeclared]
  unfold summarizeBsonPrefix
  rw [hread]
  dsimp only
  rw [Int.toNat_natCast, if_neg (by omega : ¬(size : ℤ) < 5)]
  by_cases hcomplete : size ≤ m
  · rw [if_pos hcomplete, if_neg (by omega), if_pos (by omega), List.take_take,
      Nat.min_eq_left hcomplete]
    exact hwhole
  · rw [if_neg hcomplete]
    by_cases hshort : m < 5
    · rw [if_pos hshort, if_pos (by omega)]
    · rw [if_neg hshort, if_neg (by omega), if_neg (by omega), List.take_take,
        Nat.min_eq_left (by omega), hcut, Nat.min_eq_left (by omega), Nat.min_eq_left (by omega)]

/-- What was captured of a summarized document: all of it, or a beginning of which the first key
is known. -/
inductive CapturedSummary (document : Bytes) (m : ℕ) (summary : BsonSummary) :
    BsonSummary → Prop
  | whole : CapturedSummary document m summary summary
  | beginning {part : BsonSummary} (hcut : m < document.length)
      (hend : PrefixEnd document m 0 (documentElements document) {} part)
      (hfirst : part.firstKey ≠ none) : CapturedSummary document m summary part

theorem capturedSummary_of_prefix {bytes : Bytes} {size m : ℕ} {summary part : BsonSummary}
    (hwhole : summarizeBson (bytes.take size) = .ok summary) (hsize : size ≤ bytes.length)
    (hpart : summarizeBsonPrefix (bytes.take m) = .ok part) :
    CapturedSummary (bytes.take size) m summary part := by
  have hm : 4 ≤ m := by
    have hfour := (summarizeBsonPrefix_eq_ok hpart).1
    rw [List.length_take] at hfour
    omega
  rw [summarizeBsonPrefix_take hwhole hsize hm] at hpart
  split at hpart
  · cases hpart
    exact .whole
  · rename_i hcomplete
    split at hpart
    · cases hpart
    · dsimp only at hpart
      split at hpart
      · cases hpart
      · rename_i hfirst
        cases hpart
        obtain ⟨hplaced, -⟩ := summarizeBson_elements hwhole
        have hlength : (bytes.take size).length = size := by
          rw [List.length_take]
          omega
        exact .beginning (by omega) (summarizePrefixLoop_elements hplaced (by omega) 0 {}) hfirst

/-! ### Fields that are reported -/

/-- What is reported in part is reported of the whole. -/
def Within {α : Type} (part whole : Option α) : Prop :=
  ∀ value, part = some value → whole = some value

theorem Within.none {α : Type} {whole : Option α} : Within none whole := nofun

theorem Within.bind {α β : Type} {option : Option α} {f g : α → Option β}
    (h : ∀ value, Within (f value) (g value)) : Within (option.bind f) (option.bind g) := by
  cases option with
  | none => exact .none
  | some value => exact h value

theorem Within.ite {α : Type} {p : Prop} [Decidable p] {part whole : Option α}
    (h : Within part whole) :
    Within (if p then part else Option.none) (if p then whole else Option.none) := by
  split
  · exact h
  · exact .none

theorem Within.refl {α : Type} (value : Option α) : Within value value := fun _ => id

theorem SummaryField.valueIn_within {α : Type} (field : SummaryField α) (document : Bytes)
    {elements more : List Element} (h : elements <+: more) :
    Within (field.valueIn document elements) (field.valueIn document more) := by
  intro value hvalue
  obtain ⟨rest, rfl⟩ := h
  obtain ⟨element, helement, hread⟩ := Option.bind_eq_some_iff.mp hvalue
  unfold valueIn
  rw [List.find?_append, helement, Option.some_or, Option.bind_some]
  exact hread

section Captured

variable {document : Bytes} {m : ℕ} {summary part : BsonSummary}

/-- The keys of the document are pairwise distinct. -/
def DistinctKeys (document : Bytes) : Prop := ((documentElements document).map Element.key).Nodup

instance (document : Bytes) : Decidable (DistinctKeys document) :=
  inferInstanceAs (Decidable (List.Nodup _))

theorem SummaryField.get_summary {α : Type} (field : SummaryField α)
    (hwhole : summarizeBson document = .ok summary) (hkeys : DistinctKeys document) :
    field.get summary = field.valueIn document (documentElements document) := by
  obtain ⟨-, query, rfl⟩ := summarizeBson_elements hwhole
  rw [field.get_query]
  exact get_recordAll hkeys field.get_empty

/-- A field of a captured beginning is the document's. -/
theorem SummaryField.get_within {α : Type} (field : SummaryField α)
    (hwhole : summarizeBson document = .ok summary) (hkeys : DistinctKeys document)
    (h : CapturedSummary document m summary part) :
    Within (field.get part) (field.get summary) := by
  cases h with
  | whole => exact .refl _
  | beginning hcut hend hfirst =>
    rw [get_prefixEnd hkeys hend, field.get_summary hwhole hkeys]
    exact field.valueIn_within document (reached_isPrefix ..)

/-- The first key of a document and its text are those of the first element. -/
theorem summarizeBson_first (hwhole : summarizeBson document = .ok summary) :
    summary.firstKey = (documentElements document).head?.map Element.key ∧
      summary.firstString = (documentElements document).head?.bind (Element.text document) := by
  obtain ⟨-, query, rfl⟩ := summarizeBson_elements hwhole
  exact recordAll_first ..

/-- The first key of a captured beginning is the document's. -/
theorem CapturedSummary.firstKey (hwhole : summarizeBson document = .ok summary)
    (h : CapturedSummary document m summary part) : part.firstKey = summary.firstKey := by
  cases h with
  | whole => rfl
  | beginning hcut hend hfirst =>
    obtain ⟨key, hkey⟩ := Option.ne_none_iff_exists'.mp hfirst
    rw [hkey, (summarizeBson_first hwhole).1]
    exact ((prefixEnd_first hend).1 key hkey).symm

/-- The collection of a command: the text of the first element, or the key's. -/
def collectionOf (summary : BsonSummary) : Option String :=
  summary.firstString.or summary.collection

/-- The collection of a captured beginning is the document's. -/
theorem CapturedSummary.collection (hwhole : summarizeBson document = .ok summary)
    (hkeys : DistinctKeys document) (h : CapturedSummary document m summary part) :
    Within (collectionOf part) (collectionOf summary) := by
  have hcollection := SummaryField.collection.get_within hwhole hkeys h
  cases h with
  | whole => exact .refl _
  | beginning hcut hend hfirst =>
    unfold collectionOf
    rw [(prefixEnd_first hend).2.2, (summarizeBson_first hwhole).2]
    cases hreached : reached m (documentElements document) with
    | nil =>
      -- nothing was reached, so that there is no collection either
      have hnone := SummaryField.collection.get_prefixEnd hkeys hend
      rw [hreached] at hnone
      intro value hvalue
      exact absurd (hnone.symm.trans hvalue) nofun
    | cons first rest =>
      have hhead : (documentElements document).head? = some first := by
        rw [← reached_head? (by rw [hreached]; exact List.cons_ne_nil _ _), hreached]
        rfl
      rw [hhead]
      change Within ((first.text document).or _) ((first.text document).or _)
      cases first.text document with
      | none => exact hcollection
      | some text => exact .refl _

end Captured

/-! ### Commands -/

section Commands

variable (summary : BsonSummary)

theorem commandFromSummary_name :
    (commandFromSummary summary).map (·.name) = summary.firstKey := by
  unfold commandFromSummary
  cases summary.firstKey <;> rfl

theorem commandFromSummary_database :
    (commandFromSummary summary).bind (·.database) =
      summary.firstKey.bind fun _ => summary.database := by
  unfold commandFromSummary
  cases summary.firstKey <;> rfl

theorem commandFromSummary_collection :
    (commandFromSummary summary).bind (·.collection) = summary.firstKey.bind fun name =>
      if commandHasCollectionArgument (toAsciiLowercase name) then collectionOf summary
      else none := by
  unfold commandFromSummary
  cases summary.firstKey <;> rfl

theorem commandFromSummary_deleteScope :
    (commandFromSummary summary).bind (·.deleteScope) = summary.firstKey.bind fun name =>
      if toAsciiLowercase name = "delete" then summary.deleteScope else none := by
  unfold commandFromSummary
  cases summary.firstKey <;> rfl

theorem commandFromSummary_deleteStatements :
    (commandFromSummary summary).bind (·.deleteStatements) = summary.firstKey.bind fun name =>
      if toAsciiLowercase name = "delete" then summary.deleteStatements else none := by
  unfold commandFromSummary
  cases summary.firstKey <;> rfl

end Commands

/-! ### Messages that start with their body -/

/-- The summaries agree on everything but the query and what is known of deletes. -/
structure SameFields (summary merged : BsonSummary) : Prop where
  firstKey : merged.firstKey = summary.firstKey
  firstString : merged.firstString = summary.firstString
  database : merged.database = summary.database
  collection : merged.collection = summary.collection
  ok : merged.ok = summary.ok
  code : merged.code = summary.code
  codeName : merged.codeName = summary.codeName
  affectedCount : merged.affectedCount = summary.affectedCount

/-- Document sequences change the query and what is known of deletes. -/
private theorem mergeSequences_fields (sequences : List (String × List JsonValue))
    (deletes : Option (Option DeleteScope × ℕ)) (summary : BsonSummary) :
    let merged := mergeSequences sequences (overrideDeletes deletes summary)
    SameFields summary merged ∧ (deletes = none → merged.deleteScope = summary.deleteScope ∧
      merged.deleteStatements = summary.deleteStatements) := by
  obtain ⟨query, hquery⟩ : ∃ query, mergeSequences sequences (overrideDeletes deletes summary) =
      { overrideDeletes deletes summary with query } := by
    unfold mergeSequences
    split
    · split
      · exact ⟨_, rfl⟩
      · exact ⟨(overrideDeletes deletes summary).query, rfl⟩
    · exact ⟨(overrideDeletes deletes summary).query, rfl⟩
  rw [hquery]
  cases deletes with
  | none => exact ⟨⟨rfl, rfl, rfl, rfl, rfl, rfl, rfl, rfl⟩, fun _ => ⟨rfl, rfl⟩⟩
  | some deletes => exact ⟨⟨rfl, rfl, rfl, rfl, rfl, rfl, rfl, rfl⟩, nofun⟩

section Messages

variable {codecs : Decompressors} {frame : Bytes} {maxMessageBytes n : ℕ}
  {whole part : DecodedMessage}

/-- What a frame and its beginnings are decoded from when it starts with its body. -/
structure BodyFirst (codecs : Decompressors) (frame : Bytes) (maxMessageBytes : ℕ)
    (whole : DecodedMessage) (requestId responseTo : ℤ) (flags : ℕ) (summary : BsonSummary) :
    Prop where
  response : readI32 frame 8 = .ok responseTo
  bodyEnd : bodyEnd frame = 21 + (bodyDocument frame).length
  inside : Protocol.bodyEnd frame ≤ frame.length
  summarized : summarizeBson (bodyDocument frame) = .ok summary
  message : ∃ merged, SameFields summary merged ∧
    (¬HasDeletesSequence frame → merged.deleteScope = summary.deleteScope ∧
      merged.deleteStatements = summary.deleteStatements) ∧
    whole = opMsgMessage requestId responseTo frame.length flags false merged
  beginning : ∀ n, 22 ≤ n → n < frame.length →
    decodeFramePrefix codecs (frame.take n) maxMessageBytes =
      (summarizeBsonPrefix ((frame.drop 21).take (n - 21))).map
        (opMsgMessage requestId responseTo frame.length flags false)

/-- A decoded frame that starts with its body has its parts. -/
theorem exists_bodyFirst (hopcode : readI32 frame 12 = .ok OP_MSG)
    (hwhole : decodeFrame codecs frame maxMessageBytes = .ok whole) (hkind : frame[20]? = some 0) :
    ∃ requestId responseTo flags summary,
      BodyFirst codecs frame maxMessageBytes whole requestId responseTo flags summary := by
  obtain ⟨hlength, hdeclared, hlimit⟩ := decodeFrame_length hwhole
  obtain ⟨requestId, hrequest⟩ := exists_readI32 frame 4 (by omega)
  obtain ⟨responseTo, hresponse⟩ := exists_readI32 frame 8 (by omega)
  rw [decodeFrame_opMsg hlength hdeclared hrequest hresponse hopcode, if_neg (by omega)] at hwhole
  have hkind' : (frame.drop 16)[4]? = some 0 := by
    rw [List.getElem?_drop]
    exact hkind
  obtain ⟨size, flags, deletes, summary, hsize, hend, hinside, hsummarized, hflags, hdeletes,
    rfl⟩ := decodeOpMsg_body hwhole hkind'
  obtain ⟨hfields, hunchanged⟩ := mergeSequences_fields (frameSequences frame) deletes summary
  have hbody : (bodyDocument frame).length = size.toNat := by
    unfold bodyDocument
    rw [List.length_take, List.length_drop]
    omega
  refine ⟨requestId, responseTo, flags, summary, hresponse, by rw [hend, hbody], hinside,
    hsummarized, ⟨_, hfields, fun hnone => hunchanged (hdeletes.resolve_right hnone), rfl⟩,
    fun n hn hcut => ?_⟩
  have hheader : ∀ offset, offset + 4 ≤ 16 → readI32 (frame.take n) offset = readI32 frame offset :=
    fun offset hoffset => readI32_take (by rw [List.length_take]; omega)
  have htake : (frame.take n).length = n := by
    rw [List.length_take]
    omega
  rw [decodeFramePrefix_opMsg (by omega) ((hheader 0 (by omega)).trans hdeclared) (by omega)
    ((hheader 4 (by omega)).trans hrequest) ((hheader 8 (by omega)).trans hresponse)
    ((hheader 12 (by omega)).trans hopcode), if_neg (by omega), List.drop_take]
  unfold decodeOpMsgPrefix
  have hpayload : ((frame.drop 16).take (n - 16)).length = n - 16 := by
    rw [List.length_take, List.length_drop]
    omega
  have hflags' : readU32 ((frame.drop 16).take (n - 16)) 0 = .ok flags := by
    rw [readU32_take (by omega), hflags]
  have hkind'' : ((frame.drop 16).take (n - 16))[4]? = some 0 := by
    rw [List.getElem?_take, if_pos (by omega), hkind']
  rw [if_neg (by omega), hflags', hkind'']
  dsimp only
  rw [if_neg (fun h => h rfl), List.drop_take, List.drop_drop]
  have hrest : n - 16 - 5 = n - 21 := by omega
  rw [hrest]
  cases summarizeBsonPrefix ((frame.drop 21).take (n - 21)) with
  | error e => rfl
  | ok part => rfl

/-- A beginning of an `OP_MSG` frame that is decoded reaches into a body. -/
private theorem body_of_decoded (hopcode : readI32 frame 12 = .ok OP_MSG)
    (hwhole : decodeFrame codecs frame maxMessageBytes = .ok whole) (hcut : n < frame.length)
    (hpart : decodeFramePrefix codecs (frame.take n) maxMessageBytes = .ok part) :
    frame[20]? = some 0 ∧ 22 ≤ n := by
  obtain ⟨hn, requestId, responseTo, -, hpart⟩ := opMsg_decodings hopcode hwhole hcut hpart
  obtain ⟨hsix, hkind, -⟩ := decodeOpMsgPrefix_eq_ok hpart
  rw [List.length_take] at hsix
  rw [List.getElem?_take, if_pos (by omega), List.getElem?_drop] at hkind
  exact ⟨hkind, by omega⟩

/-- The summary of what was captured of the body. -/
theorem BodyFirst.captured {requestId responseTo : ℤ} {flags : ℕ} {summary : BsonSummary}
    (h : BodyFirst codecs frame maxMessageBytes whole requestId responseTo flags summary)
    (hn : 22 ≤ n) (hcut : n < frame.length)
    (hpart : decodeFramePrefix codecs (frame.take n) maxMessageBytes = .ok part) :
    ∃ summary', CapturedSummary (bodyDocument frame) (n - 21) summary summary' ∧
      part = opMsgMessage requestId responseTo frame.length flags false summary' := by
  rw [h.beginning n hn hcut] at hpart
  cases hsummary : summarizeBsonPrefix ((frame.drop 21).take (n - 21)) with
  | error e =>
    rw [hsummary] at hpart
    cases hpart
  | ok summary' =>
    rw [hsummary] at hpart
    refine ⟨summary', ?_, (Except.ok.inj hpart).symm⟩
    have hsize : Protocol.bodyEnd frame - 21 ≤ (frame.drop 21).length := by
      have := h.inside
      rw [List.length_drop]
      omega
    exact capturedSummary_of_prefix h.summarized hsize hsummary

/-- What a beginning of a frame reports, the whole frame reports too. -/
structure MetadataSound (frame : Bytes) (whole part : DecodedMessage) : Prop where
  requestId : part.requestId = whole.requestId
  responseTo : part.responseTo = whole.responseTo
  wireBytes : part.wireBytes = whole.wireBytes
  flags : part.flags = whole.flags
  moreToCome : part.moreToCome = whole.moreToCome
  name : part.command.map (·.name) = whole.command.map (·.name)
  database : Within (part.command.bind (·.database)) (whole.command.bind (·.database))
  collection : Within (part.command.bind (·.collection)) (whole.command.bind (·.collection))
  ok : Within (part.status.bind (·.ok)) (whole.status.bind (·.ok))
  code : Within (part.status.bind (·.code)) (whole.status.bind (·.code))
  codeName : Within (part.status.bind (·.codeName)) (whole.status.bind (·.codeName))
  affectedCount : Within (part.status.bind (·.affectedCount)) (whole.status.bind (·.affectedCount))
  deletes : ¬HasDeletesSequence frame →
    Within (part.command.bind (·.deleteScope)) (whole.command.bind (·.deleteScope)) ∧
      Within (part.command.bind (·.deleteStatements)) (whole.command.bind (·.deleteStatements))

/-- The metadata of a captured beginning is that of the whole frame. -/
theorem metadataSound_of_prefix (hopcode : readI32 frame 12 = .ok OP_MSG)
    (hwhole : decodeFrame codecs frame maxMessageBytes = .ok whole)
    (hkeys : DistinctKeys (bodyDocument frame)) (hcut : n < frame.length)
    (hpart : decodeFramePrefix codecs (frame.take n) maxMessageBytes = .ok part) :
    MetadataSound frame whole part := by
  obtain ⟨hkind, hn⟩ := body_of_decoded hopcode hwhole hcut hpart
  obtain ⟨requestId, responseTo, flags, summary, hbody⟩ := exists_bodyFirst hopcode hwhole hkind
  obtain ⟨summary', hcaptured, rfl⟩ := hbody.captured hn hcut hpart
  obtain ⟨merged, hfields, hdeletes, rfl⟩ := hbody.message
  have hsummarized := hbody.summarized
  have hfirst : summary'.firstKey = merged.firstKey :=
    (hcaptured.firstKey hsummarized).trans hfields.firstKey.symm
  by_cases hrequest : responseTo = 0
  · simp only [opMsgMessage, hrequest, ne_eq, not_true_eq_false, if_true, if_false]
    refine ⟨rfl, rfl, rfl, rfl, rfl, ?_, ?_, ?_, .none, .none, .none, .none, fun hnone => ?_⟩
    · rw [commandFromSummary_name, commandFromSummary_name]
      exact hfirst
    · rw [commandFromSummary_database, commandFromSummary_database, hfirst, hfields.database]
      exact .bind fun _ => SummaryField.database.get_within hsummarized hkeys hcaptured
    · rw [commandFromSummary_collection, commandFromSummary_collection, hfirst, collectionOf,
        collectionOf, hfields.firstString, hfields.collection]
      exact .bind fun _ => .ite (hcaptured.collection hsummarized hkeys)
    · obtain ⟨hscope, hstatements⟩ := hdeletes hnone
      rw [commandFromSummary_deleteScope, commandFromSummary_deleteScope,
        commandFromSummary_deleteStatements, commandFromSummary_deleteStatements, hfirst, hscope,
        hstatements]
      exact ⟨.bind fun _ => .ite (SummaryField.deleteScope.get_within hsummarized hkeys hcaptured),
        .bind fun _ => .ite (SummaryField.deleteStatements.get_within hsummarized hkeys hcaptured)⟩
  · simp only [opMsgMessage, hrequest, ne_eq, not_false_eq_true, if_true, if_false]
    refine ⟨rfl, rfl, rfl, rfl, rfl, rfl, .none, .none, ?_, ?_, ?_, ?_, fun _ => ⟨.none, .none⟩⟩
    · change Within summary'.ok merged.ok
      rw [hfields.ok]
      exact SummaryField.ok.get_within hsummarized hkeys hcaptured
    · change Within summary'.code merged.code
      rw [hfields.code]
      exact SummaryField.code.get_within hsummarized hkeys hcaptured
    · change Within summary'.codeName merged.codeName
      rw [hfields.codeName]
      exact SummaryField.codeName.get_within hsummarized hkeys hcaptured
    · change Within summary'.affectedCount merged.affectedCount
      rw [hfields.affectedCount]
      exact SummaryField.affectedCount.get_within hsummarized hkeys hcaptured

end Messages

/-- Cut inside its body, the insert reports its own metadata. -/
theorem insertFrame_cut_sound :
    decodeFramePrefix .rejecting (insertFrame.take 50) 1000 = .ok (insertMessage none) ∧
      MetadataSound insertFrame (insertMessage (some insertQuery)) (insertMessage none) := by
  have hpart : decodeFramePrefix .rejecting (insertFrame.take 50) 1000 =
      .ok (insertMessage none) := by
    decide +kernel
  have hopcode : readI32 insertFrame 12 = .ok OP_MSG := by decide +kernel
  have hwhole : decodeFrame .rejecting insertFrame 1000 =
      .ok (insertMessage (some insertQuery)) := by
    decide +kernel
  exact ⟨hpart,
    metadataSound_of_prefix hopcode hwhole (by decide +kernel) (by decide +kernel) hpart⟩

end MongoDam.Protocol
