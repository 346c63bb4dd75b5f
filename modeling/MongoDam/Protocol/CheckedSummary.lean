import MongoDam.Protocol.CheckedJson
import MongoDam.Protocol.Elements

/-!
# Summaries that may panic

The summaries of documents with their index, slice and overflow checks. All element
loops begin a round by reading the element at their offset, and count what they have
read.
-/

namespace MongoDam.Protocol

open Lib Outcome

namespace Checked

/-! ### Delete statements -/

/-- The element at an offset. -/
def readElement (document : Bytes) (offset : ℕ) : Outcome DecodeError Element := do
  let elementType ← index document offset
  let (key, valueStart) ← readCstring document (← add offset 1)
  let next ← skipValue document valueStart elementType
  return { elementType, key, valueStart, next }

/-- A round of the element loop of `deleteStatementLimit`. -/
def deleteStatementLimitRound (statement : Bytes) (offset : ℕ) :
    Outcome DecodeError (ℕ ⊕ Option ℤ) := do
  if offset < (← sub statement.length 1) then
    let element ← readElement statement offset
    if element.key = "limit" then
      return .inr (← readI32ish statement element.valueStart element.elementType)
    else return .inl element.next
  else return .inr none

def deleteStatementLimit (fuel : ℕ) (statement : Bytes) : Outcome DecodeError (Option ℤ) := do
  requireContainer statement
  loop (deleteStatementLimitRound statement) fuel 4

/-- A round of the element loop of `summarizeDeleteStatements`. -/
def deleteStatementsRound (fuel : ℕ) (array : Bytes) (state : ℕ × DeleteTally) :
    Outcome DecodeError ((ℕ × DeleteTally) ⊕ DeleteTally) := do
  let (offset, tally) := state
  if offset < (← sub array.length 1) then
    let element ← readElement array offset
    if element.elementType ≠ 0x03 then return .inl (element.next, tally)
    else
      let statement ← getRange array element.valueStart element.next
      let limit ← deleteStatementLimit fuel statement
      return .inl (element.next, tally.count limit)
  else return .inr tally

def summarizeDeleteStatements (fuel : ℕ) (array : Bytes) :
    Outcome DecodeError (Option DeleteScope × ℕ) := do
  requireContainer array
  let tally ← loop (deleteStatementsRound fuel array) fuel (4, {})
  return (tally.scope, tally.statements)

/-- A round of the loop of `summarizeDeleteDocumentSequence`. -/
def deleteSequenceRound (fuel : ℕ) (documents : Bytes) (state : ℕ × DeleteTally) :
    Outcome DecodeError ((ℕ × DeleteTally) ⊕ DeleteTally) := do
  let (offset, tally) := state
  if offset < documents.length then
    let (document, stop) ← nextDocument documents offset
    let limit ← deleteStatementLimit fuel document
    return .inl (stop, tally.count limit)
  else return .inr tally

def summarizeDeleteDocumentSequence (fuel : ℕ) (documents : Bytes) :
    Outcome DecodeError (Option DeleteScope × ℕ) := do
  let tally ← loop (deleteSequenceRound fuel documents) fuel (0, {})
  return (tally.scope, tally.statements)

/-! ### Fields -/

def recordFirst (document : Bytes) (ordinal : ℕ) (elementType : UInt8) (key : String)
    (valueStart : ℕ) (summary : BsonSummary) : Outcome DecodeError BsonSummary := do
  if ordinal = 0 then
    if elementType = 0x02 then
      let firstString ← ok (readBsonString document valueStart)
      return { summary with firstKey := some key, firstString }
    else return { summary with firstKey := some key }
  else return summary

/-- A string field. -/
def recordString (document : Bytes) (elementType : UInt8) (valueStart : ℕ)
    (update : Option String → BsonSummary) (summary : BsonSummary) :
    Outcome DecodeError BsonSummary := do
  if elementType = 0x02 then return update (← ok (readBsonString document valueStart))
  else return summary

/-- The field `speculativeAuthenticate`, when its value is complete. -/
def recordSpeculative (nested : Option (Bytes → Outcome DecodeError BsonSummary))
    (value : Option Bytes) (summary : BsonSummary) : Outcome DecodeError BsonSummary := do
  match nested, value with
  | some summarize, some value =>
    match ← ok (summarize value) with
    | some inner => return mergeSpeculative inner summary
    | none => return summary
  | _, _ => return summary

/-- The field `deletes`, when its value is complete. -/
def recordDeletes (fuel : ℕ) (value : Option Bytes) (summary : BsonSummary) :
    Outcome DecodeError BsonSummary := do
  match value with
  | some value =>
    match ← ok (summarizeDeleteStatements fuel value) with
    | some (scope, statements) =>
      return { summary with deleteScope := scope, deleteStatements := some statements }
    | none => return summary
  | none => return summary

def recordField (fuel : ℕ) (nested : Option (Bytes → Outcome DecodeError BsonSummary))
    (document : Bytes) (elementType : UInt8) (key : String) (valueStart : ℕ) (next : Option ℕ)
    (summary : BsonSummary) : Outcome DecodeError BsonSummary :=
  match key with
  | "$db" =>
    recordString document elementType valueStart (fun text => { summary with database := text })
      summary
  | "collection" =>
    recordString document elementType valueStart (fun text => { summary with collection := text })
      summary
  | "ok" => do return { summary with ok := ← readBoolish document valueStart elementType }
  | "code" => do return { summary with code := ← readI32ish document valueStart elementType }
  | "n" => do return { summary with affectedCount := ← readU64ish document valueStart elementType }
  | "done" => do return { summary with authDone := ← readBoolish document valueStart elementType }
  | "codeName" =>
    recordString document elementType valueStart (fun text => { summary with codeName := text })
      summary
  | "mechanism" =>
    recordString document elementType valueStart
      (fun text => { summary with authMechanism := text }) summary
  | "user" =>
    recordString document elementType valueStart (fun text => { summary with principal := text })
      summary
  | "payload" => do
    if elementType = 0x05 then
      let payload ← ok (readBsonBinary document valueStart)
      return { summary with principal := (payload.bind parseScramPrincipal).or summary.principal }
    else return summary
  | "speculativeAuthenticate" =>
    if elementType = 0x03 then
      recordSpeculative nested (next.bind (slice? document valueStart)) summary
    else return summary
  | "deletes" =>
    if elementType = 0x04 then
      recordDeletes fuel (next.bind (slice? document valueStart)) summary
    else return summary
  | _ => return summary

def recordElement (fuel : ℕ) (nested : Option (Bytes → Outcome DecodeError BsonSummary))
    (document : Bytes) (ordinal : ℕ) (elementType : UInt8) (key : String) (valueStart : ℕ)
    (next : Option ℕ) (summary : BsonSummary) : Outcome DecodeError BsonSummary := do
  let summary ← recordFirst document ordinal elementType key valueStart summary
  recordField fuel nested document elementType key valueStart next summary

/-! ### Documents -/

/-- A round of the element loop of `summarizeBsonInner`. -/
def summarizeRound (fuel : ℕ) (nested : Option (Bytes → Outcome DecodeError BsonSummary))
    (document : Bytes) (state : ℕ × ℕ × BsonSummary) :
    Outcome DecodeError ((ℕ × ℕ × BsonSummary) ⊕ BsonSummary) := do
  let (offset, ordinal, summary) := state
  if offset < (← sub document.length 1) then
    let element ← readElement document offset
    if (← sub document.length 1) < element.next then fail .invalidBson
    else
      let summary ← recordElement fuel nested document ordinal element.elementType element.key
        element.valueStart (some element.next) summary
      return .inl (element.next, ← add ordinal 1, summary)
  else return .inr summary

def attachQuery (fuel : ℕ) (document : Bytes) (summary : BsonSummary) :
    Outcome DecodeError BsonSummary := do
  if capturesQuery summary then
    return { summary with query := ← ok (bsonDocumentToJson fuel document) }
  else return summary

def summarizeWith (fuel : ℕ) (nested : Option (Bytes → Outcome DecodeError BsonSummary))
    (document : Bytes) : Outcome DecodeError BsonSummary := do
  requireContainer document
  let summary ← loop (summarizeRound fuel nested document) fuel (4, 0, {})
  attachQuery fuel document summary

def summarizeBsonInner (fuel : ℕ) (document : Bytes) (allowSpeculativeAuth : Bool) :
    Outcome DecodeError BsonSummary :=
  summarizeWith fuel (if allowSpeculativeAuth then some (summarizeWith fuel none) else none)
    document

def summarizeBson (fuel : ℕ) (document : Bytes) : Outcome DecodeError BsonSummary :=
  summarizeBsonInner fuel document true

/-- A round of the element loop of `summarizeBsonPrefix`. -/
def summarizePrefixRound (fuel : ℕ) (document : Bytes) (availableEnd : ℕ)
    (state : ℕ × ℕ × BsonSummary) :
    Outcome DecodeError ((ℕ × ℕ × BsonSummary) ⊕ BsonSummary) := do
  let (offset, ordinal, summary) := state
  if offset < availableEnd then
    match document[offset]? with
    | none => return .inr summary
    | some elementType =>
      match ← ok (readCstring document (← add offset 1)) with
      | none => return .inr summary
      | some (key, afterKey) =>
        let next ← ok (skipValue document afterKey elementType)
        let summary ← recordElement fuel (some (summarizeWith fuel none)) document ordinal
          elementType key afterKey next summary
        let ordinal ← add ordinal 1
        match next with
        | none => return .inr summary
        | some next =>
          if afterKey < next ∧ next ≤ availableEnd then return .inl (next, ordinal, summary)
          else return .inr summary
  else return .inr summary

def summarizeBsonPrefix (fuel : ℕ) (document : Bytes) : Outcome DecodeError BsonSummary := do
  if document.length < 5 then fail .truncated
  else
    let declared ← readI32 document 0
    if declared < 5 then fail .invalidBson
    else if asUsize declared ≤ document.length then
      summarizeBsonInner fuel (← slice document 0 (asUsize declared)) true
    else
      let availableEnd := min document.length (asUsize declared - 1)
      let summary ← loop (summarizePrefixRound fuel document availableEnd) fuel (4, 0, {})
      if summary.firstKey = none then fail .truncated else return summary

end Checked

/-! ### Delete statements -/

section Elements

variable {document : Bytes} {offset : ℕ}

/-- The element at an offset, or the reason why there is none. -/
def readElement (document : Bytes) (offset : ℕ) : Except DecodeError Element := do
  let (key, valueStart) ← readCstring document (offset + 1)
  let next ← skipValue document valueStart (document.getD offset 0)
  return { elementType := document.getD offset 0, key, valueStart, next }

theorem readElement_returned (hdocument : document.length < 2 ^ 31)
    (hoffset : offset < document.length) :
    Checked.readElement document offset = returned (readElement document offset) := by
  unfold Checked.readElement
  rw [index_eq hoffset, returned_ok_bind, add_eq (by omega), returned_ok_bind,
    List.getElem_eq_getD 0]
  refine bind_returned (readCstring_returned hdocument) ?_
  rintro ⟨key, valueStart⟩ hkey
  have hstart := readCstring_lt hkey
  refine bind_returned (skipValue_returned hdocument (by omega) _) fun next _ => rfl

/-- An element takes bytes, and its value lies behind its key and inside the document. -/
theorem readElement_lt {element : Element} (h : readElement document offset = .ok element) :
    offset < element.valueStart ∧ element.valueStart ≤ element.next ∧
      element.next ≤ document.length := by
  unfold readElement at h
  cases hkey : readCstring document (offset + 1) with
  | error e =>
    rw [hkey] at h
    cases h
  | ok found =>
    obtain ⟨key, valueStart⟩ := found
    rw [hkey] at h
    dsimp only [bind, Except.bind] at h
    have hstart := readCstring_lt hkey
    cases hskip : skipValue document valueStart (document.getD offset 0) with
    | error e =>
      rw [hskip] at h
      cases h
    | ok next =>
      rw [hskip] at h
      cases h
      have hnext := skipValue_le hskip
      exact ⟨by dsimp only; omega, hnext⟩

theorem deleteStatementLimitLoop_step (hoffset : offset < document.length - 1) :
    deleteStatementLimitLoop document offset = (do
      let element ← readElement document offset
      if element.key = "limit" then
        .ok (readI32ish document element.valueStart element.elementType)
      else deleteStatementLimitLoop document element.next) := by
  have hbyte : document.getD offset 0 = document[offset] := (List.getElem_eq_getD 0).symm
  rw [deleteStatementLimitLoop, dif_pos hoffset, readElement, hbyte]
  split
  · rename_i hkey
    rw [hkey]
    rfl
  · rename_i hkey
    rw [hkey]
    split
    · rename_i hskip
      simp only [bind, Except.bind, hskip]
    · rename_i hskip
      simp only [bind, Except.bind, hskip, pure, Except.pure]

theorem deleteStatementLimitRound_follows (hdocument : document.length < 2 ^ 31)
    (hpos : 1 ≤ document.length) (offset : ℕ) (hle : offset ≤ document.length) :
    Follows (deleteStatementLimitLoop document)
      (fun next => next ≤ document.length ∧
        document.length - next < document.length - offset)
      (deleteStatementLimitLoop document offset)
      (Checked.deleteStatementLimitRound document offset) := by
  unfold Checked.deleteStatementLimitRound
  rw [sub_eq hpos, returned_ok_bind]
  by_cases hoffset : offset < document.length - 1
  · rw [if_pos hoffset, deleteStatementLimitLoop_step hoffset]
    refine Follows.bind (readElement_returned hdocument (by omega)) fun element helement => ?_
    have hlt := readElement_lt helement
    split
    · rw [readI32ish_returned (by omega)]
      rfl
    · exact ⟨⟨by omega, by omega⟩, rfl⟩
  · rw [if_neg hoffset, deleteStatementLimitLoop, dif_neg hoffset]
    rfl

theorem deleteStatementLimit_returned {fuel : ℕ} (hdocument : document.length < 2 ^ 31)
    (hfuel : document.length < fuel) :
    Checked.deleteStatementLimit fuel document = returned (deleteStatementLimit document) := by
  refine requireContainer_bind hdocument fun hfive => ?_
  exact loop_returned (deleteStatementLimitRound_follows hdocument (by omega)) (by omega)
    (by omega)

theorem deleteStatementsLoop_step {tally : DeleteTally} (hoffset : offset < document.length - 1) :
    deleteStatementsLoop document offset tally = (do
      let element ← readElement document offset
      if element.elementType ≠ 0x03 then deleteStatementsLoop document element.next tally
      else
        let statement ← sliceBson document element.valueStart element.next
        let limit ← deleteStatementLimit statement
        deleteStatementsLoop document element.next (tally.count limit)) := by
  have hbyte : document.getD offset 0 = document[offset] := (List.getElem_eq_getD 0).symm
  rw [deleteStatementsLoop, dif_pos hoffset, readElement, hbyte]
  split
  · rename_i hkey
    rw [hkey]
    rfl
  · rename_i hkey
    rw [hkey]
    split
    · rename_i hskip
      simp only [bind, Except.bind, hskip]
    · rename_i _ valueStart next hskip
      simp only [bind, Except.bind, hskip, pure, Except.pure]
      split
      · rfl
      · cases hslice : sliceBson document valueStart next with
        | error e => rfl
        | ok statement =>
          cases hlimit : deleteStatementLimit statement with
          | error e => simp only [hlimit]
          | ok limit => simp only [hlimit]

theorem deleteStatementsRound_follows {fuel : ℕ} (hdocument : document.length < 2 ^ 31)
    (hpos : 1 ≤ document.length) (hfuel : document.length < fuel) (state : ℕ × DeleteTally)
    (hstate : state.1 ≤ document.length) :
    Follows (fun state => deleteStatementsLoop document state.1 state.2)
      (fun next => next.1 ≤ document.length ∧
        document.length - next.1 < document.length - state.1)
      (deleteStatementsLoop document state.1 state.2)
      (Checked.deleteStatementsRound fuel document state) := by
  obtain ⟨offset, tally⟩ := state
  unfold Checked.deleteStatementsRound
  dsimp only at hstate ⊢
  rw [sub_eq hpos, returned_ok_bind]
  by_cases hoffset : offset < document.length - 1
  · rw [if_pos hoffset, deleteStatementsLoop_step hoffset]
    refine Follows.bind (readElement_returned hdocument (by omega)) fun element helement => ?_
    have hlt := readElement_lt helement
    by_cases hstatement : element.elementType ≠ 0x03
    · rw [if_pos hstatement, if_pos hstatement]
      exact Follows.advance _ (Nat.lt_of_lt_of_le hlt.1 hlt.2.1) (by omega) hlt.2.2
    · rw [if_neg hstatement, if_neg hstatement]
      refine Follows.bind getRange_returned fun statement hslice => ?_
      have hlength := sliceBson_length_le hslice
      refine Follows.bind (deleteStatementLimit_returned (by omega) (by omega)) fun limit _ => ?_
      exact Follows.advance _ (Nat.lt_of_lt_of_le hlt.1 hlt.2.1) (by omega) hlt.2.2
  · rw [if_neg hoffset, deleteStatementsLoop, dif_neg hoffset]
    rfl

theorem summarizeDeleteStatements_returned {fuel : ℕ} (hdocument : document.length < 2 ^ 31)
    (hfuel : document.length < fuel) :
    Checked.summarizeDeleteStatements fuel document =
      returned (summarizeDeleteStatements document) := by
  refine requireContainer_bind hdocument fun hfive => ?_
  rw [loop_returned (deleteStatementsRound_follows hdocument (by omega) hfuel)
    (by dsimp only; omega) (by dsimp only; omega)]
  dsimp only
  cases deleteStatementsLoop document 4 {} with
  | error e => rfl
  | ok tally => rfl

end Elements

theorem deleteSequenceLoop_step {documents : Bytes} {offset : ℕ} {tally : DeleteTally}
    (hoffset : offset < documents.length) :
    deleteSequenceLoop documents offset tally = (do
      let (document, stop) ← nextDocument documents offset
      let limit ← deleteStatementLimit document
      deleteSequenceLoop documents stop (tally.count limit)) := by
  rw [deleteSequenceLoop, if_pos hoffset]
  refine Eq.trans ?_ (nextDocument_bind documents offset deleteStatementLimit fun limit stop =>
    deleteSequenceLoop documents stop (tally.count limit)).symm
  cases readI32 documents offset with
  | error e => rfl
  | ok length =>
    dsimp only
    cases (sliceBson documents offset (offset + length.toNat) >>= deleteStatementLimit) with
    | error e => rfl
    | ok value => rfl

theorem deleteSequenceRound_follows {fuel : ℕ} {documents : Bytes}
    (hdocuments : documents.length < 2 ^ 31) (hfuel : documents.length < fuel)
    (state : ℕ × DeleteTally) (hstate : state.1 ≤ documents.length) :
    Follows (fun state => deleteSequenceLoop documents state.1 state.2)
      (fun next => next.1 ≤ documents.length ∧
        documents.length - next.1 < documents.length - state.1)
      (deleteSequenceLoop documents state.1 state.2)
      (Checked.deleteSequenceRound fuel documents state) := by
  obtain ⟨offset, tally⟩ := state
  unfold Checked.deleteSequenceRound
  dsimp only at hstate ⊢
  by_cases hoffset : offset < documents.length
  · rw [if_pos hoffset, deleteSequenceLoop_step hoffset]
    refine Follows.bind (nextDocument_returned hdocuments hstate) ?_
    rintro ⟨document, stop⟩ hnext
    obtain ⟨hlt, hstop, hlength⟩ := nextDocument_lt hnext
    dsimp only
    refine Follows.bind (deleteStatementLimit_returned (by omega) (by omega)) fun limit _ => ?_
    exact Follows.advance _ hlt hoffset hstop
  · rw [if_neg hoffset, deleteSequenceLoop, if_neg hoffset]
    rfl

theorem summarizeDeleteDocumentSequence_returned {fuel : ℕ} {documents : Bytes}
    (hdocuments : documents.length < 2 ^ 31) (hfuel : documents.length < fuel) :
    Checked.summarizeDeleteDocumentSequence fuel documents =
      returned (summarizeDeleteDocumentSequence documents) := by
  unfold Checked.summarizeDeleteDocumentSequence summarizeDeleteDocumentSequence
  rw [loop_returned (deleteSequenceRound_follows hdocuments hfuel) (Nat.zero_le _) hfuel]
  dsimp only
  cases deleteSequenceLoop documents 0 {} with
  | error e => rfl
  | ok tally => rfl

/-! ### Fields -/

section Fields

variable {document : Bytes} {fuel : ℕ} {elementType : UInt8} {valueStart : ℕ}
  {nested : Option (Bytes → Outcome DecodeError BsonSummary)}
  {summarize : Option (Bytes → Except DecodeError BsonSummary)}

theorem recordFirst_returned (hstart : valueStart < 2 ^ 32) (ordinal : ℕ) (key : String)
    (summary : BsonSummary) :
    Checked.recordFirst document ordinal elementType key valueStart summary =
      returned (.ok (recordFirst document ordinal elementType key valueStart summary)) := by
  unfold Checked.recordFirst recordFirst
  rw [readBsonString_returned hstart]
  split
  · split
    · rfl
    · rfl
  · rfl

theorem recordString_returned (hstart : valueStart < 2 ^ 32)
    (update : Option String → BsonSummary) (summary : BsonSummary) :
    Checked.recordString document elementType valueStart update summary =
      returned (.ok (if elementType = 0x02 then
        update (readBsonString document valueStart).toOption else summary)) := by
  unfold Checked.recordString
  rw [readBsonString_returned hstart]
  split
  · rfl
  · rfl

/-- A complete value is no longer than the document. -/
theorem length_le_of_complete {next : Option ℕ} {value : Bytes}
    (h : next.bind (slice? document valueStart) = some value) :
    value.length ≤ document.length := by
  obtain ⟨stop, -, hslice⟩ := Option.bind_eq_some_iff.mp h
  have hstop : ¬document.length < stop := fun h => nomatch (slice?_eq_none h).symm.trans hslice
  rw [slice?_length hslice]
  omega

/-- A field is recorded without a panic, when embedded documents are summarized without one. -/
theorem recordField_returned (hdocument : document.length < 2 ^ 31)
    (hfuel : document.length < fuel) (hstart : valueStart < 2 ^ 32)
    (hnested : ∀ value, value.length ≤ document.length →
      nested.map (· value) = summarize.map fun f => returned (f value))
    (key : String) (next : Option ℕ) (summary : BsonSummary) :
    Checked.recordField fuel nested document elementType key valueStart next summary =
      returned (.ok (recordField summarize document elementType key valueStart next summary)) := by
  unfold recordField
  split
  · exact recordString_returned hstart _ summary
  · exact recordString_returned hstart _ summary
  · exact bind_ok (readBoolish_returned hstart elementType) rfl
  · exact bind_ok (readI32ish_returned hstart elementType) rfl
  · exact bind_ok (readU64ish_returned hstart elementType) rfl
  · exact bind_ok (readBoolish_returned hstart elementType) rfl
  · exact recordString_returned hstart _ summary
  · exact recordString_returned hstart _ summary
  · exact recordString_returned hstart _ summary
  · change (if elementType = 0x05 then _ else pure summary) = _
    split
    · rw [readBsonBinary_returned hstart]
      rfl
    · rfl
  · change (if elementType = 0x03 then
      Checked.recordSpeculative nested (next.bind (slice? document valueStart)) summary
      else pure summary) = _
    split
    · cases hvalue : next.bind (slice? document valueStart) with
      | none => cases nested <;> cases summarize <;> rfl
      | some value =>
        have hsummary := hnested value (length_le_of_complete hvalue)
        cases nested with
        | none =>
          cases summarize with
          | none => rfl
          | some f => cases hsummary
        | some g =>
          cases summarize with
          | none => cases hsummary
          | some f =>
            have hg : g value = returned (f value) := Option.some.inj hsummary
            unfold Checked.recordSpeculative
            dsimp only
            rw [hg]
            cases f value with
            | error e => rfl
            | ok inner => rfl
    · rfl
  · change (if elementType = 0x04 then
      Checked.recordDeletes fuel (next.bind (slice? document valueStart)) summary
      else pure summary) = _
    split
    · cases hvalue : next.bind (slice? document valueStart) with
      | none => rfl
      | some value =>
        have hlength := length_le_of_complete hvalue
        unfold Checked.recordDeletes
        dsimp only
        rw [summarizeDeleteStatements_returned (by omega) (by omega)]
        cases summarizeDeleteStatements value with
        | error e => rfl
        | ok deletes => rfl
    · rfl
  · unfold Checked.recordField
    split
    all_goals first | rfl | contradiction

theorem recordElement_returned (hdocument : document.length < 2 ^ 31)
    (hfuel : document.length < fuel) (hstart : valueStart < 2 ^ 32)
    (hnested : ∀ value, value.length ≤ document.length →
      nested.map (· value) = summarize.map fun f => returned (f value))
    (ordinal : ℕ) (key : String) (next : Option ℕ) (summary : BsonSummary) :
    Checked.recordElement fuel nested document ordinal elementType key valueStart next summary =
      returned (.ok
        (recordElement summarize document ordinal elementType key valueStart next summary)) :=
  bind_ok (recordFirst_returned hstart ordinal key summary)
    (recordField_returned hdocument hfuel hstart hnested key next _)

end Fields

/-! ### Documents -/

section Documents

variable {document : Bytes} {fuel : ℕ}
  {nested : Option (Bytes → Outcome DecodeError BsonSummary)}
  {summarize : Option (Bytes → Except DecodeError BsonSummary)}

theorem summarizeLoop_step {offset ordinal : ℕ} {summary : BsonSummary}
    (hoffset : offset < document.length - 1) :
    summarizeLoop summarize document offset ordinal summary = (do
      let element ← readElement document offset
      if document.length - 1 < element.next then .error .invalidBson
      else
        summarizeLoop summarize document element.next (ordinal + 1)
          (recordElement summarize document ordinal element.elementType element.key
            element.valueStart (some element.next) summary)) := by
  rw [summarizeLoop_eq, if_pos hoffset, readElement]
  cases readCstring document (offset + 1) with
  | error e => rfl
  | ok found =>
    obtain ⟨key, valueStart⟩ := found
    dsimp only [bind, Except.bind]
    cases skipValue document valueStart (document.getD offset 0) with
    | error e => rfl
    | ok next => rfl

theorem summarizeRound_follows (hdocument : document.length < 2 ^ 31) (hpos : 1 ≤ document.length)
    (hfuel : document.length < fuel)
    (hnested : ∀ value, value.length ≤ document.length →
      nested.map (· value) = summarize.map fun f => returned (f value))
    (state : ℕ × ℕ × BsonSummary) (hstate : state.2.1 ≤ state.1 ∧ state.1 ≤ document.length) :
    Follows (fun state => summarizeLoop summarize document state.1 state.2.1 state.2.2)
      (fun next => (next.2.1 ≤ next.1 ∧ next.1 ≤ document.length) ∧
        document.length - next.1 < document.length - state.1)
      (summarizeLoop summarize document state.1 state.2.1 state.2.2)
      (Checked.summarizeRound fuel nested document state) := by
  obtain ⟨offset, ordinal, summary⟩ := state
  unfold Checked.summarizeRound
  dsimp only at hstate ⊢
  rw [sub_eq hpos, returned_ok_bind]
  by_cases hoffset : offset < document.length - 1
  · rw [if_pos hoffset, summarizeLoop_step hoffset]
    refine Follows.bind (readElement_returned hdocument (by omega)) fun element helement => ?_
    have hlt := readElement_lt helement
    rw [returned_ok_bind]
    by_cases hnext : document.length - 1 < element.next
    · rw [if_pos hnext, if_pos hnext]
      rfl
    · rw [if_neg hnext, if_neg hnext, recordElement_returned hdocument hfuel (by omega) hnested,
        returned_ok_bind, add_eq (by omega), returned_ok_bind]
      exact ⟨⟨⟨by dsimp only; omega, by dsimp only; omega⟩, by dsimp only; omega⟩, rfl⟩
  · rw [if_neg hoffset, summarizeLoop, dif_neg hoffset]
    rfl

theorem attachQuery_returned (hdocument : document.length < 2 ^ 31)
    (hfuel : document.length < fuel) (summary : BsonSummary) :
    Checked.attachQuery fuel document summary = returned (.ok (attachQuery document summary)) := by
  unfold Checked.attachQuery attachQuery
  rw [bsonDocumentToJson_returned hdocument hfuel]
  split
  · rfl
  · rfl

theorem summarizeWith_returned (hdocument : document.length < 2 ^ 31)
    (hfuel : document.length < fuel)
    (hnested : ∀ value, value.length ≤ document.length →
      nested.map (· value) = summarize.map fun f => returned (f value)) :
    Checked.summarizeWith fuel nested document = returned (summarizeWith summarize document) := by
  refine requireContainer_bind hdocument fun hfive => ?_
  rw [loop_returned (summarizeRound_follows hdocument (by omega) hfuel hnested)
    ⟨by dsimp only; omega, by dsimp only; omega⟩ (by dsimp only; omega)]
  dsimp only
  cases summarizeLoop summarize document 4 0 {} with
  | error e => rfl
  | ok summary => exact attachQuery_returned hdocument hfuel summary

theorem summarizeBsonInner_returned (hdocument : document.length < 2 ^ 31)
    (hfuel : document.length < fuel) (allowSpeculativeAuth : Bool) :
    Checked.summarizeBsonInner fuel document allowSpeculativeAuth =
      returned (summarizeBsonInner document allowSpeculativeAuth) := by
  refine summarizeWith_returned hdocument hfuel fun value hvalue => ?_
  cases allowSpeculativeAuth with
  | false => rfl
  | true =>
    exact congrArg some (summarizeWith_returned (by omega) (by omega) fun _ _ => rfl)

theorem summarizeBson_returned (hdocument : document.length < 2 ^ 31)
    (hfuel : document.length < fuel) :
    Checked.summarizeBson fuel document = returned (summarizeBson document) :=
  summarizeBsonInner_returned hdocument hfuel true

theorem summarizePrefixRound_follows (hdocument : document.length < 2 ^ 31)
    (hfuel : document.length < fuel) {availableEnd : ℕ} (hend : availableEnd ≤ document.length)
    (state : ℕ × ℕ × BsonSummary) (hstate : state.2.1 ≤ state.1 ∧ state.1 < 2 ^ 32) :
    Follows (fun state =>
        .ok (summarizePrefixLoop document availableEnd state.1 state.2.1 state.2.2))
      (fun next => (next.2.1 ≤ next.1 ∧ next.1 < 2 ^ 32) ∧
        availableEnd - next.1 < availableEnd - state.1)
      (.ok (summarizePrefixLoop document availableEnd state.1 state.2.1 state.2.2))
      (Checked.summarizePrefixRound fuel document availableEnd state) := by
  have hnested : ∀ value, value.length ≤ document.length →
      (some (Checked.summarizeWith fuel none)).map (· value) =
        (some (summarizeWith none)).map fun f => returned (f value) := fun value hvalue =>
    congrArg some (summarizeWith_returned (by omega) (by omega) fun _ _ => rfl)
  obtain ⟨offset, ordinal, summary⟩ := state
  unfold Checked.summarizePrefixRound
  dsimp only at hstate ⊢
  rw [summarizePrefixLoop_eq]
  by_cases hoffset : offset < availableEnd
  · rw [if_pos hoffset, if_pos hoffset]
    cases document[offset]? with
    | none => rfl
    | some elementType =>
      dsimp only
      rw [add_eq (by omega), returned_ok_bind, readCstring_returned hdocument, ok_returned,
        returned_ok_bind]
      cases hkey : readCstring document (offset + 1) with
      | error e => rfl
      | ok found =>
        obtain ⟨key, afterKey⟩ := found
        have hstart := readCstring_lt hkey
        dsimp only [Except.toOption]
        rw [skipValue_returned hdocument (by omega), ok_returned, returned_ok_bind,
          recordElement_returned hdocument hfuel (by omega) hnested, returned_ok_bind,
          add_eq (by omega), returned_ok_bind]
        cases hskip : skipValue document afterKey elementType with
        | error e => rfl
        | ok next =>
          dsimp only [Except.toOption]
          split
          · exact ⟨⟨⟨by dsimp only; omega, by dsimp only; omega⟩, by dsimp only; omega⟩, rfl⟩
          · rfl
  · rw [if_neg hoffset, if_neg hoffset]
    rfl

theorem summarizeBsonPrefix_returned (hdocument : document.length < 2 ^ 31)
    (hfuel : document.length < fuel) :
    Checked.summarizeBsonPrefix fuel document = returned (summarizeBsonPrefix document) := by
  unfold Checked.summarizeBsonPrefix summarizeBsonPrefix
  by_cases hlength : document.length < 5
  · rw [if_pos hlength, if_pos hlength]
    rfl
  rw [if_neg hlength, if_neg hlength]
  refine bind_eq_returned (readI32_returned (by decide)) (fun e h => by rw [h]) fun declared h => ?_
  have hrange := readI32_range h
  rw [h]
  dsimp only
  by_cases hleast : declared < 5
  · rw [if_pos hleast, if_pos hleast]
    rfl
  rw [if_neg hleast, if_neg hleast, asUsize_of_nonneg (by omega) (by omega)]
  by_cases hwhole : declared.toNat ≤ document.length
  · rw [if_pos hwhole, if_pos hwhole, slice_zero_eq hwhole, returned_ok_bind]
    have htake : (document.take declared.toNat).length ≤ document.length := by
      rw [List.length_take]
      omega
    exact summarizeBsonInner_returned (by omega) (by omega) true
  · rw [if_neg hwhole, if_neg hwhole,
      loop_returned (summarizePrefixRound_follows hdocument hfuel (Nat.min_le_left ..))
        ⟨by decide, by decide⟩ (by dsimp only; omega), returned_ok_bind]
    dsimp only
    split
    · rfl
    · rfl

end Documents

end MongoDam.Protocol
