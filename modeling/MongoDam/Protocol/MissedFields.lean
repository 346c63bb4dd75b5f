import MongoDam.Protocol.PrefixFields

/-!
# Fields that a captured beginning misses

A field is missed although its element is captured when a value before it takes no
bytes, since the loop over a cut document stops there. Whether that happens is decided
by the elements of the document and the place of the cut.
-/

namespace MongoDam.Protocol

open Lib

/-! ### Fields of a message -/

/-- The fields that a message takes from one top-level element. -/
inductive ReportedField where
  | database
  | collection
  | codeName
  | ok
  | code
  | affectedCount
  deriving DecidableEq, Repr

namespace ReportedField

def key : ReportedField → String
  | database => "$db"
  | collection => "collection"
  | codeName => "codeName"
  | ok => "ok"
  | code => "code"
  | affectedCount => "n"

/-- Both messages report the same value. -/
def Agrees (whole part : DecodedMessage) : ReportedField → Prop
  | database => part.command.bind (·.database) = whole.command.bind (·.database)
  | collection => part.command.bind (·.collection) = whole.command.bind (·.collection)
  | codeName => part.status.bind (·.codeName) = whole.status.bind (·.codeName)
  | ok => part.status.bind (·.ok) = whole.status.bind (·.ok)
  | code => part.status.bind (·.code) = whole.status.bind (·.code)
  | affectedCount => part.status.bind (·.affectedCount) = whole.status.bind (·.affectedCount)

/-- The element with the field's key tells a message something: a request or a response, according
to the field. A collection is only told to a command that takes one, and only when the first
element has no text. -/
def Tells (document : Bytes) (request : Bool) (element : Element) : ReportedField → Prop
  | database => request = true ∧ (SummaryField.database.value document element).isSome
  | collection =>
    request = true ∧ (SummaryField.collection.value document element).isSome ∧
      ∃ first ∈ (documentElements document).head?, first.text document = none ∧
        commandHasCollectionArgument (toAsciiLowercase first.key) = true
  | codeName => request = false ∧ (SummaryField.codeName.value document element).isSome
  | ok => request = false ∧ (SummaryField.ok.value document element).isSome
  | code => request = false ∧ (SummaryField.code.value document element).isSome
  | affectedCount => request = false ∧ (SummaryField.affectedCount.value document element).isSome

end ReportedField

/-- The frame responds to nothing. -/
def isRequest (frame : Bytes) : Bool := (readI32 frame 8).toOption = some 0

/-- Of every element that lies in the first `n` bytes, the field is reported as it is of the
whole frame. -/
def ReportsCaptured (codecs : Decompressors) (frame : Bytes) (maxMessageBytes n : ℕ)
    (whole : DecodedMessage) : Prop :=
  ∃ part, decodeFramePrefix codecs (frame.take n) maxMessageBytes = .ok part ∧
    ∀ field : ReportedField, ∀ element ∈ documentElements (bodyDocument frame),
      element.key = field.key → 21 + element.next ≤ n → field.Agrees whole part

/-- The body is captured whole, or no captured element that tells something has a value before
it that takes no bytes. -/
def NothingHidden (frame : Bytes) (n : ℕ) : Prop :=
  bodyEnd frame ≤ n ∨
    ∀ field : ReportedField, ∀ element ∈ documentElements (bodyDocument frame),
      element.key = field.key → 21 + element.next ≤ n →
      field.Tells (bodyDocument frame) (isRequest frame) element →
      ∀ earlier ∈ documentElements (bodyDocument frame), earlier.next < element.next →
        earlier.valueStart < earlier.next

/-! ### Elements that are reached -/

/-- Elements with distinct keys are found by their keys. -/
theorem find?_key {elements : List Element} {key : String}
    (hnodup : (elements.map Element.key).Nodup) {element : Element} (hmem : element ∈ elements)
    (hkey : element.key = key) : elements.find? (·.key = key) = some element := by
  induction elements with
  | nil => cases hmem
  | cons first rest ih =>
    obtain ⟨hfresh, hrest⟩ := List.nodup_cons.mp hnodup
    rcases List.mem_cons.mp hmem with rfl | hmem
    · exact List.find?_cons_of_pos (by simpa using hkey)
    · have hne : first.key ≠ key := fun heq =>
        hfresh (heq.trans hkey.symm ▸ List.mem_map_of_mem hmem)
      rw [List.find?_cons_of_neg (by simpa using hne)]
      exact ih hrest hmem

private theorem reached_ne_nil {elements : List Element} {first : Element} {m : ℕ}
    (hfirst : elements.head? = some first) (hm : first.next ≤ m) : reached m elements ≠ [] := by
  cases elements with
  | nil => cases hfirst
  | cons element rest =>
    obtain rfl := Option.some.inj hfirst
    rw [reached, if_neg (Nat.not_lt_of_le hm)]
    split <;> exact List.cons_ne_nil _ _

theorem ReportedField.agrees_refl (field : ReportedField) (message : DecodedMessage) :
    field.Agrees message message := by
  cases field <;> rfl

section Captured

variable {document : Bytes} {m : ℕ} {summary part : BsonSummary}

/-- Among distinct keys, a field reads the element with its key. -/
theorem SummaryField.valueIn_of_mem {α : Type} (field : SummaryField α) {elements : List Element}
    (hnodup : (elements.map Element.key).Nodup) {element : Element} (hmem : element ∈ elements)
    (hkey : element.key = field.key) :
    field.valueIn document elements = field.value document element := by
  unfold valueIn
  rw [find?_key hnodup hmem hkey, Option.bind_some]

theorem SummaryField.valueIn_of_forall_ne {α : Type} (field : SummaryField α)
    {elements : List Element} (hne : ∀ element ∈ elements, element.key ≠ field.key) :
    field.valueIn document elements = none := by
  unfold valueIn
  rw [List.find?_eq_none.mpr fun other hother heq => hne other hother (of_decide_eq_true heq),
    Option.bind_none]

/-- Of the elements that are reached, a field reads the one with its key, if it is among them. -/
theorem SummaryField.valueIn_reached {α : Type} (field : SummaryField α)
    (hkeys : DistinctKeys document) {element : Element}
    (hmem : element ∈ documentElements document) (hkey : element.key = field.key) :
    field.valueIn document (reached m (documentElements document)) =
      if element ∈ reached m (documentElements document) then field.value document element
      else none := by
  have hbegins := (reached_isPrefix m (documentElements document)).sublist
  split
  · rename_i hreached
    exact field.valueIn_of_mem (hkeys.sublist (hbegins.map _)) hreached hkey
  · rename_i hreached
    refine field.valueIn_of_forall_ne fun other hother heq => hreached ?_
    have hsame := find?_key hkeys (hbegins.subset hother) heq
    rw [find?_key hkeys hmem hkey] at hsame
    rw [Option.some.inj hsame]
    exact hother

/-- A field is reported of a cut document when its element tells nothing or is reached. -/
theorem SummaryField.get_eq_iff {α : Type} (field : SummaryField α)
    (hwhole : summarizeBson document = .ok summary) (hkeys : DistinctKeys document)
    (hend : PrefixEnd document m 0 (documentElements document) {} part) {element : Element}
    (hmem : element ∈ documentElements document) (hkey : element.key = field.key) :
    field.get part = field.get summary ↔
      ((field.value document element).isSome →
        element ∈ reached m (documentElements document)) := by
  rw [field.get_prefixEnd hkeys hend, field.get_summary hwhole hkeys,
    field.valueIn_of_mem hkeys hmem hkey, field.valueIn_reached hkeys hmem hkey]
  by_cases hreached : element ∈ reached m (documentElements document)
  · rw [if_pos hreached]
    exact iff_of_true rfl fun _ => hreached
  · rw [if_neg hreached]
    cases field.value document element with
    | none => exact iff_of_true rfl nofun
    | some value => exact iff_of_false nofun fun h => hreached (h rfl)

/-- A message agrees on a field with a cut one when the field's element tells nothing or is
reached. -/
theorem ReportedField.agrees_iff (field : ReportedField) {merged : BsonSummary}
    (hwhole : summarizeBson document = .ok summary) (hfields : SameFields summary merged)
    (hkeys : DistinctKeys document)
    (hend : PrefixEnd document m 0 (documentElements document) {} part)
    (hsome : reached m (documentElements document) ≠ []) {element : Element}
    (hmem : element ∈ documentElements document) (hkey : element.key = field.key)
    (requestId responseTo : ℤ) (wireBytes flags : ℕ) :
    field.Agrees (opMsgMessage requestId responseTo wireBytes flags false merged)
        (opMsgMessage requestId responseTo wireBytes flags false part) ↔
      (field.Tells document (responseTo = 0) element →
        element ∈ reached m (documentElements document)) := by
  obtain ⟨first, hfirst⟩ : ∃ first, (documentElements document).head? = some first := by
    cases helements : documentElements document with
    | nil =>
      rw [helements] at hsome
      exact absurd rfl hsome
    | cons first rest => exact ⟨first, rfl⟩
  have hpartKey : part.firstKey = some first.key := by
    rw [(prefixEnd_first hend).2.1 hsome, hfirst, Option.map_some]
  have hmergedKey : merged.firstKey = some first.key := by
    rw [hfields.firstKey, (summarizeBson_first hwhole).1, hfirst, Option.map_some]
  by_cases hrequest : responseTo = 0
  · cases field with
    | database =>
      simp only [Agrees, Tells, opMsgMessage, hrequest, if_true, commandFromSummary_database,
        hpartKey, hmergedKey, hfields.database, Option.bind_some, decide_true, true_and]
      exact SummaryField.database.get_eq_iff hwhole hkeys hend hmem hkey
    | collection =>
      have hpartText : part.firstString = first.text document := by
        rw [(prefixEnd_first hend).2.2, reached_head? hsome, hfirst, Option.bind_some]
      have hmergedText : merged.firstString = first.text document := by
        rw [hfields.firstString, (summarizeBson_first hwhole).2, hfirst, Option.bind_some]
      have hiff := SummaryField.collection.get_eq_iff hwhole hkeys hend hmem hkey
      change part.collection = summary.collection ↔ _ at hiff
      simp only [Agrees, Tells, opMsgMessage, hrequest, if_true, commandFromSummary_collection,
        hpartKey, hmergedKey, Option.bind_some, decide_true, true_and, hfirst, collectionOf,
        hpartText, hmergedText, hfields.collection]
      by_cases htakes : commandHasCollectionArgument (toAsciiLowercase first.key) = true
      · cases htext : first.text document with
        | some text => simp [htext]
        | none => simpa [htext, htakes] using hiff
      · simp [htakes]
    | _ => simp [Agrees, Tells, opMsgMessage, hrequest]
  · cases field with
    | database => simp [Agrees, Tells, opMsgMessage, hrequest]
    | collection => simp [Agrees, Tells, opMsgMessage, hrequest]
    | codeName =>
      simp only [Agrees, Tells, opMsgMessage, hrequest, ne_eq, not_false_eq_true, if_true,
        Option.bind_some, decide_false, true_and, statusFromSummary, hfields.codeName]
      exact SummaryField.codeName.get_eq_iff hwhole hkeys hend hmem hkey
    | ok =>
      simp only [Agrees, Tells, opMsgMessage, hrequest, ne_eq, not_false_eq_true, if_true,
        Option.bind_some, decide_false, true_and, statusFromSummary, hfields.ok]
      exact SummaryField.ok.get_eq_iff hwhole hkeys hend hmem hkey
    | code =>
      simp only [Agrees, Tells, opMsgMessage, hrequest, ne_eq, not_false_eq_true, if_true,
        Option.bind_some, decide_false, true_and, statusFromSummary, hfields.code]
      exact SummaryField.code.get_eq_iff hwhole hkeys hend hmem hkey
    | affectedCount =>
      simp only [Agrees, Tells, opMsgMessage, hrequest, ne_eq, not_false_eq_true, if_true,
        Option.bind_some, decide_false, true_and, statusFromSummary, hfields.affectedCount]
      exact SummaryField.affectedCount.get_eq_iff hwhole hkeys hend hmem hkey

/-- Messages of summaries with the same fields agree on every field. -/
theorem ReportedField.agrees_of_same (field : ReportedField) {merged : BsonSummary}
    (hfields : SameFields summary merged) (requestId responseTo : ℤ) (wireBytes flags : ℕ) :
    field.Agrees (opMsgMessage requestId responseTo wireBytes flags false merged)
      (opMsgMessage requestId responseTo wireBytes flags false summary) := by
  by_cases hrequest : responseTo = 0
  · cases field with
    | database =>
      simp only [Agrees, opMsgMessage, hrequest, if_true, commandFromSummary_database,
        hfields.firstKey, hfields.database]
    | collection =>
      simp only [Agrees, opMsgMessage, hrequest, if_true, commandFromSummary_collection,
        collectionOf, hfields.firstKey, hfields.firstString, hfields.collection]
    | _ => simp [Agrees, opMsgMessage, hrequest]
  · cases field with
    | database => simp [Agrees, opMsgMessage, hrequest]
    | collection => simp [Agrees, opMsgMessage, hrequest]
    | codeName => simp [Agrees, opMsgMessage, hrequest, statusFromSummary, hfields.codeName]
    | ok => simp [Agrees, opMsgMessage, hrequest, statusFromSummary, hfields.ok]
    | code => simp [Agrees, opMsgMessage, hrequest, statusFromSummary, hfields.code]
    | affectedCount =>
      simp [Agrees, opMsgMessage, hrequest, statusFromSummary, hfields.affectedCount]

end Captured

/-! ### Frames that start with their body -/

section Frames

variable {codecs : Decompressors} {frame : Bytes} {maxMessageBytes n : ℕ}
  {whole : DecodedMessage}

/-- A beginning that contains the first element reports the other captured fields exactly when
no value that takes no bytes hides one of them. -/
theorem reportsCaptured_iff (hopcode : readI32 frame 12 = .ok OP_MSG)
    (hwhole : decodeFrame codecs frame maxMessageBytes = .ok whole) (hkind : frame[20]? = some 0)
    (hkeys : DistinctKeys (bodyDocument frame)) {first : Element}
    (hfirst : (documentElements (bodyDocument frame)).head? = some first)
    (hn : 21 + first.next ≤ n) :
    ReportsCaptured codecs frame maxMessageBytes n whole ↔ NothingHidden frame n := by
  obtain ⟨requestId, responseTo, flags, summary, hbody⟩ := exists_bodyFirst hopcode hwhole hkind
  obtain ⟨hplaced, -⟩ := summarizeBson_elements hbody.summarized
  have hend := hbody.bodyEnd
  have hinside := hbody.inside
  have hmem : first ∈ documentElements (bodyDocument frame) := List.mem_of_head? hfirst
  have hfour := hplaced.lt first hmem
  by_cases hcut : n < frame.length
  · obtain ⟨merged, hfields, -, rfl⟩ := hbody.message
    have hsize : bodyEnd frame - 21 ≤ (frame.drop 21).length := by
      rw [List.length_drop]
      omega
    have hbegins := summarizeBsonPrefix_take (m := n - 21) hbody.summarized hsize (by omega)
    have hpart := hbody.beginning n (by omega) hcut
    rw [hbegins] at hpart
    unfold ReportsCaptured NothingHidden
    by_cases hcomplete : bodyEnd frame ≤ n
    · rw [if_pos (by omega)] at hpart
      refine iff_of_true ⟨_, hpart, fun field element _ _ _ => ?_⟩ (Or.inl hcomplete)
      exact field.agrees_of_same hfields ..
    · have hcaptured := summarizePrefixLoop_elements hplaced (m := n - 21) (by omega) 0 {}
      generalize hresult :
        summarizePrefixLoop ((bodyDocument frame).take (n - 21)) (n - 21) 4 0 {} =
        result at hcaptured
      have hsome : reached (n - 21) (documentElements (bodyDocument frame)) ≠ [] :=
        reached_ne_nil hfirst (by omega)
      have hkey : result.firstKey = some first.key := by
        rw [(prefixEnd_first hcaptured).2.1 hsome, hfirst, Option.map_some]
      have hpart' : decodeFramePrefix codecs (frame.take n) maxMessageBytes =
          .ok (opMsgMessage requestId responseTo frame.length flags false result) := by
        rw [hpart, if_neg (by omega), if_neg (by omega)]
        dsimp only
        rw [← bodyDocument, hresult, hkey, if_neg nofun]
        rfl
      have hrequest : isRequest frame = decide (responseTo = 0) := by
        unfold isRequest
        rw [hbody.response]
        simp [Except.toOption]
      rw [or_iff_right hcomplete]
      have hreport : ∀ field : ReportedField, ∀ element ∈ documentElements (bodyDocument frame),
          element.key = field.key →
          (field.Agrees (opMsgMessage requestId responseTo frame.length flags false merged)
              (opMsgMessage requestId responseTo frame.length flags false result) ↔
            (field.Tells (bodyDocument frame) (isRequest frame) element →
              element ∈ reached (n - 21) (documentElements (bodyDocument frame)))) := by
        intro field element helement hfield
        rw [hrequest]
        exact field.agrees_iff hbody.summarized hfields hkeys hcaptured hsome helement hfield ..
      constructor
      · rintro ⟨part, hok, hagrees⟩ field element helement hfield hin htells
        obtain rfl := Except.ok.inj (hpart'.symm.trans hok)
        have hreached := (hreport field element helement hfield).mp
          (hagrees field element helement hfield hin) htells
        exact ((mem_reached_iff hplaced helement).mp hreached).2
      · intro hnothing
        refine ⟨_, hpart', fun field element helement hfield hin => ?_⟩
        refine (hreport field element helement hfield).mpr fun htells => ?_
        exact (mem_reached_iff hplaced helement).mpr
          ⟨by omega, hnothing field element helement hfield hin htells⟩
  · obtain ⟨hlength, hdeclared, -⟩ := decodeFrame_length hwhole
    have htake : frame.take n = frame := List.take_of_length_le (by omega)
    refine iff_of_true ⟨whole, ?_, fun field _ _ _ _ => field.agrees_refl whole⟩
      (Or.inl (by omega))
    rw [htake, decodeFramePrefix_whole hlength hdeclared, hwhole]

end Frames

/-- Cut behind its database, the insert reports it. -/
theorem insertFrame_cut_reports :
    ReportsCaptured .rejecting insertFrame 1000 50 (insertMessage (some insertQuery)) := by
  have hopcode : readI32 insertFrame 12 = .ok OP_MSG := by decide +kernel
  have hwhole : decodeFrame .rejecting insertFrame 1000 =
      .ok (insertMessage (some insertQuery)) := by
    decide +kernel
  have hfirst : (documentElements (bodyDocument insertFrame)).head? =
      some ⟨0x02, "insert", 12, 18⟩ := by
    decide +kernel
  have hbytes : ∀ element ∈ documentElements (bodyDocument insertFrame),
      element.valueStart < element.next := by
    decide +kernel
  refine (reportsCaptured_iff hopcode hwhole (by decide +kernel) (by decide +kernel) hfirst
    (by decide)).mpr (Or.inr ?_)
  exact fun _ _ _ _ _ _ earlier hearlier _ => hbytes earlier hearlier

/-- An insert whose comment is null, before the name of the database. -/
def commentFrame : Bytes :=
  encodeOpMsg 1 0 0 (encodeBody (encodeString "insert" "t" ++ encodeElement 0x0a "comment" [] ++
    encodeString "$db" "d" ++ encodeBoolean "ordered" true))

/-- The command of `commentFrame` with a given database and query. -/
def commentMessage (database : Option String) (query : Option JsonValue) : DecodedMessage where
  requestId := 1
  responseTo := 0
  wireBytes := 70
  flags := 0
  moreToCome := false
  compressed := false
  command := some { name := "insert", database, collection := some "t", query }
  status := none

/-- Cut behind its database, the insert with a null comment does not report it. -/
theorem commentFrame_cut_misses :
    ∃ whole part, readI32 commentFrame 12 = .ok OP_MSG ∧ commentFrame[20]? = some 0 ∧
      decodeFrame .rejecting commentFrame 1000 = .ok whole ∧
      DistinctKeys (bodyDocument commentFrame) ∧
      ⟨0x02, "$db", 32, 38⟩ ∈ documentElements (bodyDocument commentFrame) ∧
      decodeFramePrefix .rejecting (commentFrame.take 64) 1000 = .ok part ∧
      whole.command.bind (·.database) = some "d" ∧ part.command.bind (·.database) = none ∧
      ¬ReportsCaptured .rejecting commentFrame 1000 64 whole := by
  have hmem : ⟨0x02, "$db", 32, 38⟩ ∈ documentElements (bodyDocument commentFrame) := by
    decide +kernel
  have hpart : decodeFramePrefix .rejecting (commentFrame.take 64) 1000 =
      .ok (commentMessage none none) := by
    decide +kernel
  have hwhole : decodeFrame .rejecting commentFrame 1000 =
      .ok (commentMessage (some "d") (some (.object [("$db", .string "d"), ("comment", .null),
        ("insert", .string "t"), ("ordered", .bool true)]))) := by
    decide +kernel
  refine ⟨_, _, by decide +kernel, by decide +kernel, hwhole, by decide +kernel, hmem, hpart, rfl,
    rfl, ?_⟩
  rintro ⟨part, hok, hagrees⟩
  obtain rfl := Except.ok.inj (hpart.symm.trans hok)
  cases hagrees .database _ hmem rfl (by decide)

end MongoDam.Protocol
