import MongoDam.Protocol.Compression
import MongoDam.Protocol.DocumentReading
import MongoDam.Protocol.NonInterference

/-!
# The two encodings of a delete

The statements of a delete are the elements of a `deletes` array in the body, or the
documents of a `deletes` sequence beside it. The loops that go over them count the same
limits, so the two frames give the same scope and number of statements.
-/

namespace MongoDam.Protocol

open Lib

/-- A delete statement whose limit is determined. -/
structure DeleteStatement where
  bytes : Bytes
  limit : Option ℤ
  determined : deleteStatementLimit bytes = .ok limit

/-- The scope of statements with the given limits. -/
def limitsScope (limits : List (Option ℤ)) : Option DeleteScope :=
  if some 1 ∈ limits then (if some 0 ∈ limits then some .mixed else some .single)
  else if some 0 ∈ limits then some .multi
  else none

/-! ### The limit of a statement -/

/-- An element is the limit, or the loop goes on behind it. -/
private theorem deleteStatementLimitLoop_element {statement : Bytes} {offset : ℕ}
    {element : Element} (hoffset : offset < statement.length - 1)
    (h : elementAt? statement offset = some element) :
    deleteStatementLimitLoop statement offset =
      if element.key = "limit" then
        .ok (readI32ish statement element.valueStart element.elementType)
      else deleteStatementLimitLoop statement element.next := by
  obtain ⟨htype, hkey, hskip⟩ := elementAt?_eq_some.mp h
  have hbyte : statement.getD offset 0 = statement[offset] := (List.getElem_eq_getD 0).symm
  rw [hbyte] at htype
  rw [deleteStatementLimitLoop, dif_pos hoffset, ← htype]
  split
  · next hkey' => cases hkey.symm.trans hkey'
  · next hkey' =>
    cases hkey.symm.trans hkey'
    split
    · next hskip' => cases hskip.symm.trans hskip'
    · next hskip' =>
      cases hskip.symm.trans hskip'
      rfl

private theorem deleteStatementLimitLoop_encode (front : Bytes) {elements : BsonElements}
    (h : (BsonValue.encodeElements elements).length < 2 ^ 31) :
    deleteStatementLimitLoop (front ++ (BsonValue.encodeElements elements ++ [0])) front.length =
      .ok ((elements.get? "limit").bind BsonValue.int32?) := by
  induction elements generalizing front with
  | nil =>
    have hend : ¬front.length < (front ++ ([] ++ [0]) : Bytes).length - 1 := by
      rw [List.length_append, List.nil_append, List.length_singleton]
      omega
    rw [BsonValue.encodeElements, deleteStatementLimitLoop, dif_neg hend]
    rfl
  | cons element tail ih =>
    obtain ⟨key, value⟩ := element
    obtain ⟨hoffset, helement, -, -⟩ := placed_encodeElements front h
    rw [encodeElements_cons, List.length_append, List.length_append] at h
    have hsplit : front ++ (BsonValue.encodeElements ((key, value) :: tail) ++ [0]) =
        (front ++ lead key value) ++ (value.encode ++ (BsonValue.encodeElements tail ++ [0])) := by
      simp only [encodeElements_cons, List.append_assoc]
    have hstart : (elementAt front.length key value).valueStart =
        (front ++ lead key value).length := by
      rw [List.length_append, lead_length]
      change front.length + 1 + (toUtf8 key.text).length + 1 = _
      omega
    have hnext : (elementAt front.length key value).next =
        ((front ++ lead key value) ++ value.encode).length := by
      rw [List.length_append, ← hstart]
      rfl
    rw [deleteStatementLimitLoop_element hoffset helement]
    unfold BsonElements.get?
    by_cases hkey : key.text = "limit"
    · rw [if_pos (by exact hkey), List.find?_cons_of_pos (by exact decide_eq_true hkey), hsplit,
        hstart]
      exact congrArg Except.ok (BsonValue.readI32ish_encode _ _)
    · have hother : ¬decide (key.text = "limit") = true := fun h => hkey (of_decide_eq_true h)
      rw [if_neg (by exact hkey), List.find?_cons_of_neg (by exact hother), hsplit, hnext,
        ← List.append_assoc]
      exact ih _ (by omega)

/-- The limit of a statement is its first `limit` element, where that is a number in the range of
32-bit integers. -/
theorem deleteStatementLimit_encode {elements : BsonElements}
    (h : elements.encode.length < 2 ^ 31) :
    deleteStatementLimit elements.encode =
      .ok ((elements.get? "limit").bind BsonValue.int32?) := by
  rw [BsonElements.encode_length] at h
  have hloop := deleteStatementLimitLoop_encode
    (leBytes 4 ((BsonValue.encodeElements elements).length + 5))
    (by omega : (BsonValue.encodeElements elements).length < 2 ^ 31)
  rw [leBytes_length, ← BsonElements.encode_eq] at hloop
  have hcontainer : isContainer elements.encode = true := isContainer_encodeDocument h
  rw [deleteStatementLimit, if_pos hcontainer, hloop]

/-! ### Tallies -/

theorem foldl_count {limits : List (Option ℤ)} {tally : DeleteTally}
    (h : tally.statements + limits.length < 2 ^ 32) :
    limits.foldl DeleteTally.count tally =
      { statements := tally.statements + limits.length
        hasSingle := tally.hasSingle || decide (some 1 ∈ limits)
        hasMulti := tally.hasMulti || decide (some 0 ∈ limits) } := by
  induction limits generalizing tally with
  | nil => simp
  | cons limit rest ih =>
    rw [List.length_cons] at h
    have hcount : (tally.count limit).statements = tally.statements + 1 := by
      change saturateU32 (tally.statements + 1) = _
      unfold saturateU32
      omega
    have hmem : ∀ scope : ℤ, decide (some scope ∈ limit :: rest) =
        (decide (limit = some scope) || decide (some scope ∈ rest)) := by
      intro scope
      rw [decide_eq_decide.mpr List.mem_cons, Bool.decide_or, decide_eq_decide.mpr eq_comm]
    rw [List.foldl_cons, ih (by omega), hcount, List.length_cons, hmem, hmem, ← Bool.or_assoc,
      ← Bool.or_assoc, Nat.add_assoc, Nat.add_comm 1]
    rfl

/-- The tally of statements holds their number and their scope. -/
theorem scope_foldl_count {limits : List (Option ℤ)} (h : limits.length < 2 ^ 32) :
    (limits.foldl DeleteTally.count {}).scope = limitsScope limits ∧
      (limits.foldl DeleteTally.count {}).statements = limits.length := by
  rw [foldl_count (by rw [Nat.zero_add]; exact h)]
  refine ⟨?_, Nat.zero_add _⟩
  unfold DeleteTally.scope limitsScope
  by_cases hsingle : some 1 ∈ limits <;> by_cases hmulti : some 0 ∈ limits <;>
    simp [hsingle, hmulti]

/-! ### Statements in an array -/

/-- A statement is a document. -/
theorem DeleteStatement.document (statement : DeleteStatement) :
    5 ≤ statement.bytes.length ∧
      readI32 statement.bytes 0 = .ok (statement.bytes.length : ℤ) := by
  have hdetermined := statement.determined
  unfold deleteStatementLimit at hdetermined
  split at hdetermined
  · next hcontainer =>
    obtain ⟨hlength, hdeclared, -⟩ := of_decide_eq_true hcontainer
    refine ⟨hlength, ?_⟩
    cases hread : readI32 statement.bytes 0 with
    | error e =>
      rw [hread] at hdeclared
      cases hdeclared
    | ok declared =>
      rw [hread] at hdeclared
      rw [Option.some.inj hdeclared]
  · cases hdetermined

/-- A statement is a value of an array. -/
theorem DeleteStatement.isValue (statement : DeleteStatement) :
    IsValue 0x03 statement.bytes := by
  obtain ⟨hlength, hdeclared⟩ := statement.document
  change skipPrefixed statement.bytes 0 5 0 = _
  unfold skipPrefixed checkedEnd
  rw [hdeclared]
  dsimp only
  rw [if_neg (by omega), Int.toNat_natCast, if_pos (by omega), Nat.zero_add, Nat.zero_add]

/-- The elements of an array of statements. -/
def encodeStatements (statements : List (Cstring × DeleteStatement)) : Bytes :=
  statements.flatMap fun statement => encodeElement 0x03 statement.1.text statement.2.bytes

/-- The limits of statements. -/
def statementLimits (statements : List (Cstring × DeleteStatement)) : List (Option ℤ) :=
  statements.map (·.2.limit)

/-- The loop counts a statement. -/
theorem deleteStatementsLoop_element (front rest : Bytes) (key : Cstring)
    (statement : DeleteStatement) (tally : DeleteTally) :
    deleteStatementsLoop (front ++ (encodeElement 0x03 key.text statement.bytes ++ rest))
        front.length tally =
      deleteStatementsLoop (front ++ (encodeElement 0x03 key.text statement.bytes ++ rest))
        (front ++ encodeElement 0x03 key.text statement.bytes).length
        (tally.count statement.limit) := by
  obtain ⟨hlength, -⟩ := statement.document
  have hsplit : front ++ (encodeElement 0x03 key.text statement.bytes ++ rest) =
      (front ++ [0x03]) ++ (toUtf8 key.text ++ 0 :: (statement.bytes ++ rest)) := by
    simp only [encodeElement, List.append_assoc, List.cons_append, List.nil_append]
  have hvalue : front ++ (encodeElement 0x03 key.text statement.bytes ++ rest) =
      (front ++ (0x03 :: (toUtf8 key.text ++ [0]))) ++ (statement.bytes ++ rest) := by
    simp only [encodeElement, List.append_assoc, List.cons_append, List.nil_append]
  have hstart : (front ++ (0x03 :: (toUtf8 key.text ++ [0]))).length =
      front.length + 1 + (toUtf8 key.text).length + 1 := by
    simp only [List.length_append, List.length_cons, List.length_nil]
    omega
  have hstop : (front ++ encodeElement 0x03 key.text statement.bytes).length =
      (front ++ (0x03 :: (toUtf8 key.text ++ [0]))).length + statement.bytes.length := by
    simp only [encodeElement, List.length_append, List.length_cons, List.length_nil]
    omega
  have hoffset : front.length <
      (front ++ (encodeElement 0x03 key.text statement.bytes ++ rest)).length - 1 := by
    rw [← List.append_assoc, List.length_append, hstop, hstart]
    omega
  have hkey := readCstring_behind (front ++ [0x03]) (statement.bytes ++ rest) key.noNul
  rw [← hsplit, List.length_append, List.length_singleton, ← hstart] at hkey
  have hskip := skipValue_append_left (front ++ (0x03 :: (toUtf8 key.text ++ [0])))
    (statement.bytes ++ rest) 0 0x03
  rw [← hvalue, skipValue_append rest statement.isValue, Nat.add_zero] at hskip
  have hslice := sliceBson_behind (front ++ (0x03 :: (toUtf8 key.text ++ [0]))) rest
    statement.bytes
  rw [← hvalue] at hslice
  have hbyte : (front ++ (encodeElement 0x03 key.text statement.bytes ++ rest))[front.length] =
      0x03 := by
    simp [encodeElement]
  rw [hstop]
  conv_lhs => rw [deleteStatementsLoop, dif_pos hoffset]
  split
  · next hkey' => cases hkey.symm.trans hkey'
  · next hkey' =>
    cases hkey.symm.trans hkey'
    rw [hbyte]
    split
    · next hskip' => cases hskip.symm.trans hskip'
    · next hskip' =>
      cases hskip.symm.trans hskip'
      rw [if_neg (fun h => h rfl), hslice]
      rw [show ((.ok statement.bytes : Except DecodeError Bytes) >>= deleteStatementLimit) =
        deleteStatementLimit statement.bytes from rfl]
      rw [statement.determined]

theorem deleteStatementsLoop_statements (front : Bytes)
    (statements : List (Cstring × DeleteStatement)) (tally : DeleteTally) :
    deleteStatementsLoop (front ++ (encodeStatements statements ++ [0])) front.length tally =
      .ok ((statementLimits statements).foldl DeleteTally.count tally) := by
  induction statements generalizing front tally with
  | nil =>
    have hend : ¬front.length < (front ++ ([] ++ [0]) : Bytes).length - 1 := by
      rw [List.length_append, List.nil_append, List.length_singleton]
      omega
    rw [encodeStatements, List.flatMap_nil, deleteStatementsLoop, dif_neg hend]
    rfl
  | cons statement rest ih =>
    have hsplit : encodeStatements (statement :: rest) ++ [0] =
        encodeElement 0x03 statement.1.text statement.2.bytes ++
          (encodeStatements rest ++ [0]) := by
      rw [encodeStatements, List.flatMap_cons, List.append_assoc]
      rfl
    rw [hsplit, deleteStatementsLoop_element, ← List.append_assoc, ih]
    rfl

theorem length_le_encodeStatements (statements : List (Cstring × DeleteStatement)) :
    statements.length ≤ (encodeStatements statements).length := by
  induction statements with
  | nil => exact Nat.zero_le _
  | cons statement rest ih =>
    rw [encodeStatements, List.flatMap_cons, List.length_append, List.length_cons]
    change _ ≤ _ + (encodeStatements rest).length
    have hpos : 0 < (encodeElement 0x03 statement.1.text statement.2.bytes).length :=
      Nat.succ_pos _
    omega

/-- The statements of an array. -/
theorem summarizeDeleteStatements_encode {statements : List (Cstring × DeleteStatement)}
    (h : (encodeStatements statements).length + 5 < 2 ^ 31) :
    summarizeDeleteStatements (encodeDocument (encodeStatements statements)) =
      .ok (limitsScope (statementLimits statements), statements.length) := by
  have hloop := deleteStatementsLoop_statements
    (leBytes 4 ((encodeStatements statements).length + 5)) statements {}
  rw [leBytes_length, ← List.append_assoc] at hloop
  have hcount : (statementLimits statements).length = statements.length := List.length_map ..
  have hle := length_le_encodeStatements statements
  obtain ⟨hscope, hstatements⟩ :=
    scope_foldl_count (by omega : (statementLimits statements).length < 2 ^ 32)
  unfold summarizeDeleteStatements
  rw [if_pos (isContainer_encodeDocument h), encodeDocument, hloop]
  exact congrArg Except.ok (Prod.ext hscope (hstatements.trans hcount))

/-! ### Statements in a sequence -/

/-- The loop counts a statement. -/
theorem deleteSequenceLoop_document (front rest : Bytes) (statement : DeleteStatement)
    (tally : DeleteTally) :
    deleteSequenceLoop (front ++ (statement.bytes ++ rest)) front.length tally =
      deleteSequenceLoop (front ++ (statement.bytes ++ rest)) (front ++ statement.bytes).length
        (tally.count statement.limit) := by
  obtain ⟨hlength, hdeclared⟩ := statement.document
  have hread := readI32_append_left front (statement.bytes ++ rest) 0
  rw [readI32_append rest (by omega), hdeclared, Nat.add_zero] at hread
  have htotal : (front ++ (statement.bytes ++ rest)).length =
      front.length + (statement.bytes.length + rest.length) := by
    rw [List.length_append, List.length_append]
  conv_lhs => rw [deleteSequenceLoop]
  rw [if_pos (by omega), hread]
  dsimp only
  rw [if_neg (by omega), Int.toNat_natCast, if_neg (by omega), sliceBson_behind,
    List.length_append]
  rw [show ((.ok statement.bytes : Except DecodeError Bytes) >>= deleteStatementLimit) =
    deleteStatementLimit statement.bytes from rfl]
  rw [statement.determined]

theorem deleteSequenceLoop_statements (front : Bytes) (statements : List DeleteStatement)
    (tally : DeleteTally) :
    deleteSequenceLoop (front ++ (statements.map DeleteStatement.bytes).flatten) front.length
        tally =
      .ok ((statements.map DeleteStatement.limit).foldl DeleteTally.count tally) := by
  induction statements generalizing front tally with
  | nil =>
    rw [List.map_nil, List.flatten_nil, List.append_nil, deleteSequenceLoop,
      if_neg (Nat.lt_irrefl _)]
    rfl
  | cons statement rest ih =>
    rw [List.map_cons, List.flatten_cons, deleteSequenceLoop_document, ← List.append_assoc, ih]
    rfl

/-- The statements of a sequence. -/
theorem summarizeDeleteDocumentSequence_statements {statements : List DeleteStatement}
    (h : statements.length < 2 ^ 32) :
    summarizeDeleteDocumentSequence (statements.map DeleteStatement.bytes).flatten =
      .ok (limitsScope (statements.map DeleteStatement.limit), statements.length) := by
  have hloop := deleteSequenceLoop_statements [] statements {}
  have hcount : (statements.map DeleteStatement.limit).length = statements.length :=
    List.length_map ..
  obtain ⟨hscope, hstatements⟩ := scope_foldl_count (hcount ▸ h)
  rw [List.nil_append, List.length_nil] at hloop
  unfold summarizeDeleteDocumentSequence
  rw [hloop]
  exact congrArg Except.ok (Prod.ext hscope (hstatements.trans hcount))

/-! ### Bodies -/

/-- Elements with other keys leave the fields of deletes as they are. -/
theorem summarizeLoop_others {elements : BsonElements} (rest : Bytes) (hrest : rest ≠ [])
    (hfits : (BsonValue.encodeElements elements).length < 2 ^ 31)
    (hother : ∀ element ∈ elements, element.1.text ≠ "deletes") (ordinal : ℕ)
    (summary : BsonSummary) :
    ∃ summary', summarizeLoop nestedSummary (BsonValue.encodeElements elements ++ rest) 0 ordinal
        summary = summarizeLoop nestedSummary rest 0 (ordinal + elements.length) summary' ∧
      summary'.deleteScope = summary.deleteScope ∧
      summary'.deleteStatements = summary.deleteStatements ∧
      summary'.firstKey = if ordinal = 0 then (elements.head?.map (·.1.text)).or summary.firstKey
        else summary.firstKey := by
  induction elements generalizing ordinal summary with
  | nil => exact ⟨summary, rfl, rfl, rfl, (ite_self _).symm⟩
  | cons element tail ih =>
    obtain ⟨key, value⟩ := element
    obtain ⟨hfirst, htail⟩ := List.forall_mem_cons.mp hother
    rw [encodeElements_cons, List.length_append, List.length_append] at hfits
    have hvalue := isValue_encode (by omega : value.encode.length < 2 ^ 31)
    have hstep := summarizeLoop_element nestedSummary (isKey_toUtf8 key) hvalue
      (BsonValue.encodeElements tail ++ rest) ordinal summary
    have hne : ¬(BsonValue.encodeElements tail ++ rest).length = 0 := by
      rw [List.length_append]
      have := List.length_pos_iff.mpr hrest
      omega
    rw [if_neg hne] at hstep
    obtain ⟨summary', hloop, hscope, hstatements, hkey⟩ := ih (by omega) htail (ordinal + 1)
      (recordElement nestedSummary value.encode ordinal value.elementType key.text 0
        (some value.encode.length) summary)
    refine ⟨summary', ?_, hscope.trans ?_, hstatements.trans ?_, hkey.trans ?_⟩
    · rw [encodeElements_cons, List.append_assoc, List.append_assoc]
      rw [List.length_cons, Nat.add_comm tail.length, ← Nat.add_assoc, ← hloop]
      exact hstep
    · exact (SummaryField.deleteScope.get_other _ _ _ _ _ _ hfirst).trans
        (SummaryField.deleteScope.get_first ..)
    · exact (SummaryField.deleteStatements.get_other _ _ _ _ _ _ hfirst).trans
        (SummaryField.deleteStatements.get_first ..)
    · rw [if_neg (Nat.succ_ne_zero _), recordElement_firstKey]
      rfl

/-- The elements of a body with its statements in an array. -/
def elementsWithDeletes (before after : BsonElements)
    (statements : List (Cstring × DeleteStatement)) : Bytes :=
  BsonValue.encodeElements before ++
    (encodeElement 0x04 "deletes" (encodeDocument (encodeStatements statements)) ++
      BsonValue.encodeElements after)

/-- A complete array of statements sets both fields. -/
theorem recordElement_deletes {statements : List (Cstring × DeleteStatement)}
    (h : (encodeStatements statements).length + 5 < 2 ^ 31) {ordinal : ℕ} (hordinal : ordinal ≠ 0)
    (summary : BsonSummary) :
    recordElement nestedSummary (encodeDocument (encodeStatements statements)) ordinal 0x04
        "deletes" 0 (some (encodeDocument (encodeStatements statements)).length) summary =
      { summary with
        deleteScope := limitsScope (statementLimits statements)
        deleteStatements := some statements.length } := by
  have hread : readDeletes (encodeDocument (encodeStatements statements)) 0x04 0
      (some (encodeDocument (encodeStatements statements)).length) =
      some (limitsScope (statementLimits statements), statements.length) := by
    unfold readDeletes
    rw [if_pos rfl, Option.bind_some, slice?_eq_some (Nat.zero_le _) (Nat.le_refl _),
      Option.bind_some, List.drop_zero, Nat.sub_zero, List.take_length,
      summarizeDeleteStatements_encode h]
    rfl
  unfold recordElement recordFirst
  rw [if_neg hordinal, recordField_deletes, hread]

/-- The summary of a body with its statements in an array. -/
theorem summarizeBson_elementsWithDeletes {before after : BsonElements}
    (statements : List (Cstring × DeleteStatement))
    (hfits : (elementsWithDeletes before after statements).length + 5 < 2 ^ 31)
    (hbefore : before ≠ []) (hother : ∀ element ∈ before ++ after, element.1.text ≠ "deletes") :
    ∃ summary, summarizeBson (encodeDocument (elementsWithDeletes before after statements)) =
        .ok summary ∧
      summary.firstKey = before.head?.map (·.1.text) ∧
      summary.deleteScope = limitsScope (statementLimits statements) ∧
      summary.deleteStatements = some statements.length := by
  have hlengths := hfits
  unfold elementsWithDeletes at hlengths
  rw [List.length_append, List.length_append, encodeElement, List.length_append, List.length_cons,
    List.length_cons, encodeDocument_length] at hlengths
  have hstatements : (encodeStatements statements).length + 5 < 2 ^ 31 := by omega
  obtain ⟨first, hfirst, -, -, hfirstKey⟩ := summarizeLoop_others
    (encodeElement 0x04 "deletes" (encodeDocument (encodeStatements statements)) ++
      (BsonValue.encodeElements after ++ [0])) (List.cons_ne_nil _ _) (by omega)
    (fun element hmem => hother element (List.mem_append_left _ hmem)) 0 {}
  rw [if_pos rfl, Option.or_none] at hfirstKey
  rw [Nat.zero_add] at hfirst
  have hordinal : before.length ≠ 0 := fun h => hbefore (List.eq_nil_of_length_eq_zero h)
  have hdeletes : summarizeLoop nestedSummary
      (encodeElement 0x04 "deletes" (encodeDocument (encodeStatements statements)) ++
        (BsonValue.encodeElements after ++ [0])) 0 before.length first =
      summarizeLoop nestedSummary (BsonValue.encodeElements after ++ [0]) 0 (before.length + 1)
        { first with
          deleteScope := limitsScope (statementLimits statements)
          deleteStatements := some statements.length } := by
    have hvalue : IsValue 0x04 (encodeDocument (encodeStatements statements)) :=
      skipPrefixed_encodeDocument hstatements
    have hkey := isKey_toUtf8 ⟨"deletes", by decide⟩
    have hstep := summarizeLoop_element nestedSummary hkey hvalue
      (BsonValue.encodeElements after ++ [0]) before.length first
    rw [if_neg (by rw [List.length_append, List.length_singleton]; omega),
      recordElement_deletes hstatements hordinal] at hstep
    rw [← hstep]
    simp only [encodeElement, List.append_assoc, List.cons_append, List.nil_append]
  obtain ⟨last, hlast, hscope, hcount, hlastKey⟩ := summarizeLoop_others [0]
    (List.cons_ne_nil _ _) (by omega : (BsonValue.encodeElements after).length < 2 ^ 31)
    (fun element hmem => hother element (List.mem_append_right _ hmem)) (before.length + 1)
    { first with
      deleteScope := limitsScope (statementLimits statements)
      deleteStatements := some statements.length }
  rw [if_neg (Nat.succ_ne_zero _)] at hlastKey
  have hend : ∀ ordinal, summarizeLoop nestedSummary [0] 0 ordinal last = .ok last := by
    intro ordinal
    rw [summarizeLoop_eq, if_neg (by decide)]
  have hloop : summarizeLoop nestedSummary
      (encodeDocument (elementsWithDeletes before after statements)) 4 0 {} = .ok last := by
    have hshift := summarizeLoop_append_left nestedSummary
      (leBytes 4 ((elementsWithDeletes before after statements).length + 5))
      (elementsWithDeletes before after statements ++ [0]) 0 0 {}
    rw [leBytes_length, Nat.add_zero, ← List.append_assoc] at hshift
    rw [encodeDocument, hshift, elementsWithDeletes, List.append_assoc, List.append_assoc, hfirst,
      hdeletes, hlast, hend]
  refine ⟨attachQuery (encodeDocument (elementsWithDeletes before after statements)) last, ?_,
    (firstKey_attachQuery ..).trans (hlastKey.trans hfirstKey),
    (SummaryField.deleteScope.get_attachQuery ..).trans hscope,
    (SummaryField.deleteStatements.get_attachQuery ..).trans hcount⟩
  change (if isContainer _ then _ else _) = _
  rw [if_pos (isContainer_encodeDocument hfits)]
  exact congrArg (Except.map _) hloop

/-! ### Sections -/

section Sections

variable (front rest : Bytes) {stop : ℕ} {sections : OpMsgSections}

/-- The loop takes the first body. -/
theorem opMsgSectionsLoop_encodeBody {elements : Bytes} {summary : BsonSummary}
    (hfits : elements.length + 5 < 2 ^ 31) (hstop : (front ++ encodeBody elements).length ≤ stop)
    (hnone : sections.summary = none)
    (hsummary : summarizeBson (encodeDocument elements) = .ok summary) :
    opMsgSectionsLoop (front ++ (encodeBody elements ++ rest)) stop front.length sections =
      opMsgSectionsLoop (front ++ (encodeBody elements ++ rest)) stop
        (front ++ encodeBody elements).length { sections with summary := some summary } := by
  have hlength : (front ++ encodeBody elements).length =
      front.length + 1 + (elements.length + 5) := by
    rw [List.length_append, encodeBody, List.length_cons, encodeDocument_length]
    omega
  have hsplit : front ++ (encodeBody elements ++ rest) =
      (front ++ [0]) ++ (encodeDocument elements ++ rest) := by
    rw [encodeBody, List.append_assoc, List.cons_append, List.singleton_append]
  have hkind : (front ++ (encodeBody elements ++ rest))[front.length]? = some (0 : UInt8) := by
    rw [hsplit, List.append_assoc]
    exact getElem?_behind front (encodeDocument elements ++ rest) 0
  have hread : readI32 (front ++ (encodeBody elements ++ rest)) (front.length + 1) =
      .ok ((elements.length + 5 : ℕ) : ℤ) := by
    have hbehind := readI32_behind (front ++ [0]) (elements ++ ([0] ++ rest)) hfits
    rw [List.length_append, List.length_singleton] at hbehind
    rw [hsplit, encodeDocument]
    simp only [List.append_assoc] at hbehind ⊢
    exact hbehind
  have hslice := sliceBson_behind (front ++ [0]) rest (encodeDocument elements)
  rw [← hsplit, List.length_append, List.length_singleton, encodeDocument_length] at hslice
  have hleast : ¬((elements.length + 5 : ℕ) : ℤ) < 5 := by omega
  have hinside : ¬stop < front.length + 1 + (elements.length + 5) := by omega
  conv_lhs => rw [opMsgSectionsLoop]
  rw [if_pos (by omega), hlength]
  simp only [hkind, hread, if_neg hleast, Int.toNat_natCast, if_neg hinside, hnone, hslice, bind,
    Except.bind, hsummary]

theorem encodeSequence_length (identifier : String) (documents : List Bytes) :
    (encodeSequence identifier documents).length =
      1 + ((toUtf8 identifier).length + 1 + documents.flatten.length + 4) := by
  simp only [encodeSequence, List.length_append, List.length_cons, leBytes_length]
  omega

/-- The kind, the size, the identifier and the documents of a sequence section. -/
theorem encodeSequence_parts {identifier : String} {documents : List Bytes} {size : ℕ}
    (hsize : (toUtf8 identifier).length + 1 + documents.flatten.length + 4 = size)
    (hfits : size < 2 ^ 31) (hidentifier : Char.ofNat 0 ∉ identifier.toList) :
    (front ++ (encodeSequence identifier documents ++ rest))[front.length]? = some (1 : UInt8) ∧
      readI32 (front ++ (encodeSequence identifier documents ++ rest)) (front.length + 1) =
        .ok (size : ℤ) ∧
      readCstring (front ++ (encodeSequence identifier documents ++ rest)) (front.length + 1 + 4) =
        .ok (identifier, front.length + 1 + 4 + (toUtf8 identifier).length + 1) ∧
      sliceBson (front ++ (encodeSequence identifier documents ++ rest))
          (front.length + 1 + 4 + (toUtf8 identifier).length + 1) (front.length + 1 + size) =
        .ok documents.flatten := by
  have hsplit : front ++ (encodeSequence identifier documents ++ rest) =
      (front ++ [1]) ++ (leBytes 4 size ++
        (toUtf8 identifier ++ 0 :: (documents.flatten ++ rest))) := by
    have hcontent : (toUtf8 identifier ++ 0 :: documents.flatten).length + 4 = size := by
      rw [List.length_append, List.length_cons]
      omega
    rw [encodeSequence, hcontent]
    simp only [List.append_assoc, List.cons_append, List.nil_append]
  have hread := readI32_behind (front ++ [1])
    (toUtf8 identifier ++ 0 :: (documents.flatten ++ rest)) hfits
  have hkey := readCstring_behind (front ++ [1] ++ leBytes 4 size) (documents.flatten ++ rest)
    hidentifier
  have hslice := sliceBson_behind (front ++ [1] ++ leBytes 4 size ++ (toUtf8 identifier ++ [0]))
    rest documents.flatten
  have hbehind : front ++ (encodeSequence identifier documents ++ rest) =
      front ++ [1] ++ leBytes 4 size ++ (toUtf8 identifier ++ [0]) ++
        (documents.flatten ++ rest) := by
    simp only [hsplit, List.append_assoc, List.cons_append, List.nil_append]
  have hend : front.length + 1 + 4 + ((toUtf8 identifier).length + 1) + documents.flatten.length =
      front.length + 1 + size := by
    omega
  rw [← hsplit, List.length_append, List.length_singleton] at hread
  rw [List.append_assoc _ (leBytes _ _), ← hsplit] at hkey
  rw [← hbehind] at hslice
  simp only [List.length_append, List.length_singleton, leBytes_length] at hkey hslice
  rw [hend, ← Nat.add_assoc] at hslice
  refine ⟨?_, hread, hkey, hslice⟩
  rw [hsplit, List.append_assoc]
  exact getElem?_behind front _ 1

/-- The loop takes a sequence of statements. -/
theorem opMsgSectionsLoop_encodeSequence {documents : List Bytes}
    {deletes : Option DeleteScope × ℕ}
    (hfits : (encodeSequence "deletes" documents).length < 2 ^ 31)
    (hstop : (front ++ encodeSequence "deletes" documents).length ≤ stop)
    (hdeletes : summarizeDeleteDocumentSequence documents.flatten = .ok deletes) :
    opMsgSectionsLoop (front ++ (encodeSequence "deletes" documents ++ rest)) stop front.length
        sections =
      opMsgSectionsLoop (front ++ (encodeSequence "deletes" documents ++ rest)) stop
        (front ++ encodeSequence "deletes" documents).length
        { sections with
          deleteSequence := some deletes
          documentSequences :=
            pushSequence "deletes" documents.flatten sections.documentSequences } := by
  obtain ⟨size, hsize⟩ :
      ∃ size, (toUtf8 "deletes").length + 1 + documents.flatten.length + 4 = size := ⟨_, rfl⟩
  have hlength := encodeSequence_length "deletes" documents
  obtain ⟨hkind, hread, hkey, hslice⟩ := encodeSequence_parts front rest hsize (by omega)
    (by decide : Char.ofNat 0 ∉ "deletes".toList)
  have hnext : (front ++ encodeSequence "deletes" documents).length = front.length + 1 + size := by
    rw [List.length_append]
    omega
  have hleast : ¬(size : ℤ) < 5 := by omega
  have hinside : ¬stop < front.length + 1 + size := by omega
  have hkeyInside :
      ¬front.length + 1 + size < front.length + 1 + 4 + (toUtf8 "deletes").length + 1 := by
    omega
  conv_lhs => rw [opMsgSectionsLoop]
  rw [if_pos (by omega), hnext]
  simp only [hkind, hread, if_neg hleast, Int.toNat_natCast, if_neg hinside, hkey,
    if_neg hkeyInside, hslice, hdeletes, if_true]

end Sections

/-! ### Frames -/

/-- A delete request without its statements: the elements around a `deletes` array, or all
elements beside a sequence, and the checksum that the flags announce. -/
structure DeleteRequest where
  requestId : UInt32
  flags : UInt32
  before : BsonElements
  after : BsonElements
  checksum : Bytes
  named : (before.head?.map fun element => toAsciiLowercase element.1.text) = some "delete"
  others : ∀ element ∈ before ++ after, element.1.text ≠ "deletes"
  checksum_length : checksum.length = if flags.toNat % 2 = 1 then 4 else 0

namespace DeleteRequest

variable (request : DeleteRequest) (statements : List (Cstring × DeleteStatement))

/-- The frame of the sections of a request. -/
def frame (sections : Bytes) : Bytes :=
  encodeOpMsg request.requestId.toNat 0 request.flags.toNat (sections ++ request.checksum)

/-- The frame with the statements in an array. -/
def arrayFrame : Bytes :=
  request.frame (encodeBody (elementsWithDeletes request.before request.after statements))

/-- The body of the frame with the statements in a sequence. -/
def body : Bytes := encodeBody (BsonValue.encodeElements (request.before ++ request.after))

/-- The statements in a sequence. -/
def deletes : Bytes := encodeSequence "deletes" (statements.map (·.2.bytes))

/-- The body and the statements in a sequence, behind it or in front of it. -/
def sequenceSections (bodyFirst : Bool) : Bytes :=
  if bodyFirst then request.body ++ deletes statements else deletes statements ++ request.body

/-- The frame with the statements in a sequence. -/
def sequenceFrame (bodyFirst : Bool) : Bytes :=
  request.frame (request.sequenceSections statements bodyFirst)

end DeleteRequest

theorem encodeOpMsg_length (requestId responseTo flags : ℕ) (sections : Bytes) :
    (encodeOpMsg requestId responseTo flags sections).length = sections.length + 20 := by
  simp only [encodeOpMsg, List.length_append, leBytes_length]
  omega

/-- An encoded request is decoded from its sections. -/
theorem decodeFrame_encodeOpMsg {codecs : Decompressors} {requestId flags maxMessageBytes : ℕ}
    {sections : Bytes} (hfits : sections.length + 20 < 2 ^ 31)
    (hlimit : sections.length + 20 ≤ maxMessageBytes) :
    ∃ id, decodeFrame codecs (encodeOpMsg requestId 0 flags sections) maxMessageBytes =
      decodeOpMsg id 0 (sections.length + 20) (leBytes 4 flags ++ sections) false := by
  have hlength := encodeOpMsg_length requestId 0 flags sections
  obtain ⟨id, hid⟩ := exists_readI32 (encodeOpMsg requestId 0 flags sections) 4 (by omega)
  have hdeclared : readI32 (encodeOpMsg requestId 0 flags sections) 0 =
      .ok ((encodeOpMsg requestId 0 flags sections).length : ℤ) := by
    rw [hlength, encodeOpMsg]
    simp only [List.append_assoc]
    exact readI32_leBytes hfits _
  have hresponse : readI32 (encodeOpMsg requestId 0 flags sections) 8 = .ok 0 := by
    have hbehind := readI32_behind (leBytes 4 (sections.length + 20) ++ leBytes 4 requestId)
      (leBytes 4 OP_MSG.toNat ++ leBytes 4 flags ++ sections) (by decide : 0 < 2 ^ 31)
    simp only [List.length_append, leBytes_length, List.append_assoc] at hbehind
    rw [encodeOpMsg]
    simp only [List.append_assoc]
    exact hbehind
  have hopcode : readI32 (encodeOpMsg requestId 0 flags sections) 12 = .ok OP_MSG := by
    have hbehind := readI32_behind
      (leBytes 4 (sections.length + 20) ++ leBytes 4 requestId ++ leBytes 4 0)
      (leBytes 4 flags ++ sections) (by decide : OP_MSG.toNat < 2 ^ 31)
    simp only [List.length_append, leBytes_length, List.append_assoc] at hbehind
    rw [encodeOpMsg]
    simp only [List.append_assoc]
    exact hbehind
  have hpayload : (encodeOpMsg requestId 0 flags sections).drop 16 =
      leBytes 4 flags ++ sections := by
    rw [encodeOpMsg, List.append_assoc]
    exact List.drop_left' (by simp only [List.length_append, leBytes_length])
  refine ⟨id, ?_⟩
  rw [decodeFrame_opMsg (by omega) hdeclared hid hresponse hopcode, if_neg (by omega), hpayload,
    hlength]

/-- Sections that are gone through make the message. -/
theorem decodeOpMsg_of_sections {flags wireBytes : ℕ} {id : ℤ} {content checksum : Bytes}
    {sections : OpMsgSections} (hflags : flags < 2 ^ 32) (hcontent : content ≠ [])
    (hchecksum : checksum.length = if flags % 2 = 1 then 4 else 0)
    (hloop : opMsgSectionsLoop (leBytes 4 flags ++ (content ++ checksum)) (4 + content.length) 4
      {} = .ok sections) :
    decodeOpMsg id 0 wireBytes (leBytes 4 flags ++ (content ++ checksum)) false =
      sections.message id 0 wireBytes flags false := by
  have hlength : (leBytes 4 flags ++ (content ++ checksum)).length =
      4 + (content.length + checksum.length) := by
    rw [List.length_append, List.length_append, leBytes_length]
  have hpos := List.length_pos_iff.mpr hcontent
  have hread : readU32 (leBytes 4 flags ++ (content ++ checksum)) 0 = .ok flags :=
    readWord_leBytes hflags _
  have hend : sectionsEnd flags (leBytes 4 flags ++ (content ++ checksum)).length =
      4 + content.length := by
    unfold sectionsEnd
    omega
  unfold decodeOpMsg
  rw [if_neg (by omega), hread]
  dsimp only
  rw [if_neg (by omega), hend, hloop]

theorem opMsgSectionsLoop_end (payload : Bytes) (stop : ℕ) (sections : OpMsgSections) :
    opMsgSectionsLoop payload stop stop sections = .ok sections := by
  rw [opMsgSectionsLoop, if_neg (Nat.lt_irrefl _)]

/-- The sequences that are merged change the query only. -/
theorem mergeSequences_deletes (sequences : List (String × List JsonValue))
    (summary : BsonSummary) :
    (mergeSequences sequences summary).deleteScope = summary.deleteScope ∧
      (mergeSequences sequences summary).deleteStatements = summary.deleteStatements := by
  unfold mergeSequences
  repeat' split
  all_goals exact ⟨rfl, rfl⟩

/-- The command of a delete has the fields of its body, or those of the sequence. -/
theorem message_command {sections : OpMsgSections} {summary : BsonSummary} {name : String}
    {flags wireBytes : ℕ} {id : ℤ} (hsummary : sections.summary = some summary)
    (hname : summary.firstKey = some name) (hdelete : toAsciiLowercase name = "delete") :
    ∃ command, (sections.message id 0 wireBytes flags false).map (·.command) = .ok (some command) ∧
      command.deleteScope = (overrideDeletes sections.deleteSequence summary).deleteScope ∧
      command.deleteStatements =
        (overrideDeletes sections.deleteSequence summary).deleteStatements := by
  obtain ⟨hscope, hstatements⟩ := mergeSequences_deletes sections.documentSequences
    (overrideDeletes sections.deleteSequence summary)
  have hfirst := mergeSequences_firstKey sections.documentSequences sections.deleteSequence summary
  rw [hname] at hfirst
  unfold OpMsgSections.message opMsgMessage commandFromSummary
  rw [hsummary]
  simp only [Except.map, hfirst, if_true, Option.map_some, hdelete]
  exact ⟨_, rfl, hscope, hstatements⟩

theorem encodeElements_append (front rest : BsonElements) :
    BsonValue.encodeElements (front ++ rest) =
      BsonValue.encodeElements front ++ BsonValue.encodeElements rest := by
  induction front with
  | nil => rfl
  | cons element tail ih =>
    rw [List.cons_append, encodeElements_cons, encodeElements_cons, ih, List.append_assoc,
      List.append_assoc]

/-- An array holds the bytes of its statements. -/
theorem flatten_length_le (statements : List (Cstring × DeleteStatement)) :
    (statements.map (·.2.bytes)).flatten.length ≤ (encodeStatements statements).length := by
  induction statements with
  | nil => exact Nat.le_refl _
  | cons statement rest ih =>
    rw [List.map_cons, List.flatten_cons, List.length_append, encodeStatements, List.flatMap_cons,
      List.length_append, encodeElement, List.length_append, List.length_cons, List.length_cons]
    change _ ≤ _ + (encodeStatements rest).length
    omega

namespace DeleteRequest

variable {request : DeleteRequest} {statements : List (Cstring × DeleteStatement)}

/-- The first key of a request. -/
theorem exists_name (request : DeleteRequest) :
    ∃ name, request.before.head?.map (·.1.text) = some name ∧ toAsciiLowercase name = "delete" := by
  have hnamed := request.named
  cases hbefore : request.before.head? with
  | none =>
    rw [hbefore] at hnamed
    cases hnamed
  | some element =>
    rw [hbefore] at hnamed
    exact ⟨element.1.text, rfl, Option.some.inj hnamed⟩

theorem before_ne_nil (request : DeleteRequest) : request.before ≠ [] := by
  intro hbefore
  have hnamed := request.named
  rw [hbefore] at hnamed
  cases hnamed

/-- A sequence takes fewer bytes than an array. -/
theorem sequence_length (request : DeleteRequest)
    (statements : List (Cstring × DeleteStatement)) :
    request.body.length + (deletes statements).length ≤
      (encodeBody (elementsWithDeletes request.before request.after statements)).length := by
  have hflatten := flatten_length_le statements
  unfold body deletes encodeBody elementsWithDeletes
  rw [encodeElements_append]
  simp only [encodeSequence, encodeElement, encodeDocument_length, List.length_append,
    List.length_cons, leBytes_length]
  omega

theorem frame_length (request : DeleteRequest) (sections : Bytes) :
    (request.frame sections).length = sections.length + request.checksum.length + 20 := by
  unfold frame
  rw [encodeOpMsg_length, List.length_append]

/-- The command of a frame whose sections are gone through. -/
theorem decodeFrame_command {codecs : Decompressors} {maxMessageBytes : ℕ} {content : Bytes}
    {sections : OpMsgSections} {summary : BsonSummary} {name : String}
    (hfits : (request.frame content).length < 2 ^ 31)
    (hlimit : (request.frame content).length ≤ maxMessageBytes) (hcontent : content ≠ [])
    (hloop : opMsgSectionsLoop (leBytes 4 request.flags.toNat ++ (content ++ request.checksum))
      (4 + content.length) 4 {} = .ok sections)
    (hsummary : sections.summary = some summary) (hname : summary.firstKey = some name)
    (hdelete : toAsciiLowercase name = "delete") :
    ∃ command, (decodeFrame codecs (request.frame content) maxMessageBytes).map (·.command) =
        .ok (some command) ∧
      command.deleteScope = (overrideDeletes sections.deleteSequence summary).deleteScope ∧
      command.deleteStatements =
        (overrideDeletes sections.deleteSequence summary).deleteStatements := by
  unfold frame at hfits hlimit ⊢
  rw [encodeOpMsg_length] at hfits hlimit
  obtain ⟨id, hframe⟩ := decodeFrame_encodeOpMsg hfits hlimit
  rw [hframe, decodeOpMsg_of_sections request.flags.toNat_lt hcontent request.checksum_length hloop]
  exact message_command hsummary hname hdelete

/-- The command of the frame with an array. -/
theorem decodeFrame_arrayFrame {codecs : Decompressors} {maxMessageBytes : ℕ}
    (hfits : (request.arrayFrame statements).length < 2 ^ 31)
    (hlimit : (request.arrayFrame statements).length ≤ maxMessageBytes) :
    ∃ command, (decodeFrame codecs (request.arrayFrame statements) maxMessageBytes).map
        (·.command) = .ok (some command) ∧
      command.deleteScope = limitsScope (statementLimits statements) ∧
      command.deleteStatements = some statements.length := by
  obtain ⟨name, hname, hdelete⟩ := request.exists_name
  have hlength := hfits
  rw [arrayFrame, frame_length, encodeBody, List.length_cons, encodeDocument_length] at hlength
  obtain ⟨summary, hsummary, hfirst, hscope, hcount⟩ := summarizeBson_elementsWithDeletes
    statements (by omega) request.before_ne_nil request.others
  have hloop := opMsgSectionsLoop_encodeBody (leBytes 4 request.flags.toNat) request.checksum
    (by omega) (Nat.le_refl _) (rfl : ({} : OpMsgSections).summary = none) hsummary
  rw [leBytes_length, opMsgSectionsLoop_end, List.length_append, leBytes_length] at hloop
  obtain ⟨command, hcommand, hcommandScope, hcommandCount⟩ := decodeFrame_command hfits hlimit
    (List.cons_ne_nil _ _) hloop rfl (hfirst.trans hname) hdelete
  exact ⟨command, hcommand, hcommandScope.trans hscope, hcommandCount.trans hcount⟩

/-- Two sections are gone through one behind the other. -/
theorem opMsgSectionsLoop_two {front first second rest : Bytes} {stop : ℕ}
    {sections sections' sections'' : OpMsgSections}
    (hstop : stop = (front ++ first ++ second).length)
    (hfirst : opMsgSectionsLoop (front ++ (first ++ (second ++ rest))) stop front.length sections =
      opMsgSectionsLoop (front ++ (first ++ (second ++ rest))) stop (front ++ first).length
        sections')
    (hsecond : opMsgSectionsLoop (front ++ first ++ (second ++ rest)) stop (front ++ first).length
        sections' =
      opMsgSectionsLoop (front ++ first ++ (second ++ rest)) stop
        (front ++ first ++ second).length sections'') :
    opMsgSectionsLoop (front ++ (first ++ second ++ rest)) stop front.length sections =
      .ok sections'' := by
  rw [List.append_assoc front] at hsecond
  rw [List.append_assoc first, hfirst, hsecond, ← hstop, opMsgSectionsLoop_end]

/-- The sections of the frame with a sequence, in both orders. -/
theorem opMsgSectionsLoop_sequence {summary : BsonSummary} (bodyFirst : Bool)
    (hbody : (BsonValue.encodeElements (request.before ++ request.after)).length + 5 < 2 ^ 31)
    (hfits : (deletes statements).length < 2 ^ 31)
    (hsummary : summarizeBson (encodeDocument
      (BsonValue.encodeElements (request.before ++ request.after))) = .ok summary)
    (hdeletes : summarizeDeleteDocumentSequence (statements.map (·.2.bytes)).flatten =
      .ok (limitsScope (statementLimits statements), statements.length)) :
    ∃ sections, opMsgSectionsLoop
        (leBytes 4 request.flags.toNat ++
          (sequenceSections request statements bodyFirst ++ request.checksum))
        (4 + (sequenceSections request statements bodyFirst).length) 4 {} = .ok sections ∧
      sections.summary = some summary ∧
      sections.deleteSequence =
        some (limitsScope (statementLimits statements), statements.length) := by
  have hflags : (leBytes 4 request.flags.toNat).length = 4 := leBytes_length _ _
  have hstop : ∀ first second : Bytes,
      4 + (first ++ second).length = (leBytes 4 request.flags.toNat ++ first ++ second).length := by
    intro first second
    simp only [List.length_append, hflags]
    omega
  have hinside : ∀ first second : Bytes,
      (leBytes 4 request.flags.toNat ++ first).length ≤ 4 + (first ++ second).length := by
    intro first second
    rw [List.length_append, List.length_append, hflags]
    omega
  cases bodyFirst with
  | true =>
    have hloop := opMsgSectionsLoop_two (hstop ..)
      (opMsgSectionsLoop_encodeBody _ _ hbody (hinside ..)
        (rfl : ({} : OpMsgSections).summary = none) hsummary)
      (opMsgSectionsLoop_encodeSequence _ request.checksum hfits (Nat.le_of_eq (hstop ..).symm)
        hdeletes)
    rw [hflags] at hloop
    exact ⟨_, hloop, rfl, rfl⟩
  | false =>
    have hnone : ∀ scopes sequences,
        (OpMsgSections.mk ({} : OpMsgSections).summary scopes sequences).summary = none :=
      fun _ _ => rfl
    have hloop := opMsgSectionsLoop_two (hstop ..)
      (opMsgSectionsLoop_encodeSequence _ _ hfits (hinside ..) hdeletes)
      (opMsgSectionsLoop_encodeBody _ request.checksum hbody (Nat.le_of_eq (hstop ..).symm)
        (hnone ..) hsummary)
    rw [hflags] at hloop
    exact ⟨_, hloop, rfl, rfl⟩

/-- The frame with a sequence is shorter than that with an array. -/
theorem sequenceFrame_length (request : DeleteRequest)
    (statements : List (Cstring × DeleteStatement)) (bodyFirst : Bool) :
    (request.sequenceFrame statements bodyFirst).length ≤
      (request.arrayFrame statements).length := by
  have hlength := request.sequence_length statements
  have hsections : (request.sequenceSections statements bodyFirst).length =
      request.body.length + (deletes statements).length := by
    cases bodyFirst with
    | true => exact List.length_append
    | false => exact List.length_append.trans (Nat.add_comm _ _)
  unfold sequenceFrame arrayFrame
  rw [frame_length, frame_length, hsections]
  omega

/-- The parts of a frame with an array are shorter than it. -/
theorem sizes_lt (h : (request.arrayFrame statements).length < 2 ^ 31) :
    (BsonValue.encodeElements (request.before ++ request.after)).length + 5 < 2 ^ 31 ∧
      (deletes statements).length < 2 ^ 31 ∧ statements.length < 2 ^ 31 := by
  have hsequence := request.sequence_length statements
  have hcount := length_le_encodeStatements statements
  have hbody : request.body.length =
      (BsonValue.encodeElements (request.before ++ request.after)).length + 6 := by
    rw [body, encodeBody, List.length_cons, encodeDocument_length]
  have hstatements : (encodeStatements statements).length ≤
      (encodeBody (elementsWithDeletes request.before request.after statements)).length := by
    simp only [encodeBody, elementsWithDeletes, encodeElement, encodeDocument_length,
      List.length_append, List.length_cons]
    omega
  rw [arrayFrame, frame_length] at h
  exact ⟨by omega, by omega, by omega⟩

/-- The command of the frame with a sequence. -/
theorem decodeFrame_sequenceFrame {codecs : Decompressors} {maxMessageBytes : ℕ} (bodyFirst : Bool)
    (hfits : (request.arrayFrame statements).length < 2 ^ 31)
    (hlimit : (request.arrayFrame statements).length ≤ maxMessageBytes) :
    ∃ command, (decodeFrame codecs (request.sequenceFrame statements bodyFirst)
        maxMessageBytes).map (·.command) = .ok (some command) ∧
      command.deleteScope = limitsScope (statementLimits statements) ∧
      command.deleteStatements = some statements.length := by
  obtain ⟨name, hname, hdelete⟩ := request.exists_name
  obtain ⟨hbody, hsequence, hcount⟩ := sizes_lt hfits
  have hshorter := request.sequenceFrame_length statements bodyFirst
  have hdeletes : summarizeDeleteDocumentSequence (statements.map (·.2.bytes)).flatten =
      .ok (limitsScope (statementLimits statements), statements.length) := by
    have hstatements : (statements.map Prod.snd).length < 2 ^ 32 := by
      rw [List.length_map]
      omega
    have hsummary := summarizeDeleteDocumentSequence_statements hstatements
    rw [List.map_map, List.map_map, List.length_map] at hsummary
    exact hsummary
  have helements : (BsonElements.encode (request.before ++ request.after)).length < 2 ^ 31 := by
    rw [BsonElements.encode_length]
    exact hbody
  obtain ⟨summary, hsummary, hfirst, -⟩ := summarizeBson_encode helements
  rw [List.head?_append_of_ne_nil _ request.before_ne_nil] at hfirst
  obtain ⟨sections, hloop, hsections, hsequence⟩ :=
    opMsgSectionsLoop_sequence bodyFirst hbody hsequence hsummary hdeletes
  have hcontent : request.sequenceSections statements bodyFirst ≠ [] := by
    cases bodyFirst <;> exact List.cons_ne_nil _ _
  obtain ⟨command, hcommand, hscope, hstatements⟩ :=
    decodeFrame_command (Nat.lt_of_le_of_lt hshorter hfits) (Nat.le_trans hshorter hlimit) hcontent
      hloop hsections (hfirst.trans hname) hdelete
  rw [hsequence] at hscope hstatements
  exact ⟨command, hcommand, hscope, hstatements⟩

end DeleteRequest

/-- A statement that is a document with these elements. -/
def DeleteStatement.ofElements (elements : { elements : BsonElements //
    elements.encode.length < 2 ^ 31 }) : DeleteStatement where
  bytes := elements.val.encode
  limit := (elements.val.get? "limit").bind BsonValue.int32?
  determined := deleteStatementLimit_encode elements.property

/-- The scope is that of the `limit` elements of the statements. -/
theorem DeleteRequest.decodeFrame_documents {request : DeleteRequest} {maxMessageBytes : ℕ}
    (documents : List (Cstring × { elements : BsonElements // elements.encode.length < 2 ^ 31 }))
    (hfits : (request.arrayFrame
      (documents.map (Prod.map id DeleteStatement.ofElements))).length < 2 ^ 31)
    (hlimit : (request.arrayFrame
      (documents.map (Prod.map id DeleteStatement.ofElements))).length ≤ maxMessageBytes)
    (codecs : Decompressors) (bodyFirst : Bool) :
    let statements := documents.map (Prod.map id DeleteStatement.ofElements)
    ∀ frame ∈ [request.arrayFrame statements, request.sequenceFrame statements bodyFirst],
      ∃ command, (decodeFrame codecs frame maxMessageBytes).map (·.command) = .ok (some command) ∧
        command.deleteScope = limitsScope (documents.map fun document =>
          (document.2.val.get? "limit").bind BsonValue.int32?) ∧
        command.deleteStatements = some documents.length := by
  intro statements frame hframe
  have hlimits : statementLimits statements = documents.map fun document =>
      (document.2.val.get? "limit").bind BsonValue.int32? := by
    rw [statementLimits, List.map_map]
    rfl
  have hcount : statements.length = documents.length := List.length_map _
  rw [← hlimits, ← hcount]
  rcases List.mem_cons.mp hframe with rfl | hframe
  · exact DeleteRequest.decodeFrame_arrayFrame hfits hlimit
  · rw [List.mem_singleton.mp hframe]
    exact DeleteRequest.decodeFrame_sequenceFrame bodyFirst hfits hlimit

/-- Both encodings of a delete give the scope and the number of its statements. -/
theorem delete_encodings_agree {request : DeleteRequest}
    {statements : List (Cstring × DeleteStatement)} {maxMessageBytes : ℕ}
    (hfits : (request.arrayFrame statements).length < 2 ^ 31)
    (hlimit : (request.arrayFrame statements).length ≤ maxMessageBytes) (codecs : Decompressors)
    (bodyFirst : Bool) :
    ∃ arrayCommand sequenceCommand,
      (decodeFrame codecs (request.arrayFrame statements) maxMessageBytes).map (·.command) =
        .ok (some arrayCommand) ∧
      (decodeFrame codecs (request.sequenceFrame statements bodyFirst) maxMessageBytes).map
        (·.command) = .ok (some sequenceCommand) ∧
      arrayCommand.deleteScope = sequenceCommand.deleteScope ∧
      arrayCommand.deleteStatements = sequenceCommand.deleteStatements ∧
      arrayCommand.deleteScope = limitsScope (statementLimits statements) ∧
      arrayCommand.deleteStatements = some statements.length := by
  obtain ⟨arrayCommand, harray, harrayScope, harrayCount⟩ :=
    DeleteRequest.decodeFrame_arrayFrame hfits hlimit
  obtain ⟨sequenceCommand, hsequence, hsequenceScope, hsequenceCount⟩ :=
    DeleteRequest.decodeFrame_sequenceFrame bodyFirst hfits hlimit
  exact ⟨arrayCommand, sequenceCommand, harray, hsequence, harrayScope.trans hsequenceScope.symm,
    harrayCount.trans hsequenceCount.symm, harrayScope, harrayCount⟩

/-- The statement `{"q": {}, "limit": limit}`. -/
private def emptyQuery (limit : Int32) : Bytes :=
  BsonElements.encode [(⟨"q", by decide⟩, .document []), (⟨"limit", by decide⟩, .int32 limit)]

/-- The request `{"delete": "orders", "$db": "shop"}` with a checksum. -/
private def deleteOrders : DeleteRequest where
  requestId := 7
  flags := 1
  before := [(⟨"delete", by decide⟩, .string "orders")]
  after := [(⟨"$db", by decide⟩, .string "shop")]
  checksum := [0, 0, 0, 0]
  named := by decide +kernel
  others := by decide +kernel
  checksum_length := rfl

/-- Statements that delete one document and many. -/
private def oneAndMany : List (Cstring × DeleteStatement) :=
  [(.zero, ⟨emptyQuery 1, some 1, by decide +kernel⟩),
    (⟨"1", by decide⟩, ⟨emptyQuery 0, some 0, by decide +kernel⟩)]

theorem deleteOrders_agree :
    ∃ arrayCommand sequenceCommand,
      (decodeFrame .rejecting (deleteOrders.arrayFrame oneAndMany) 48000000).map (·.command) =
        .ok (some arrayCommand) ∧
      (decodeFrame .rejecting (deleteOrders.sequenceFrame oneAndMany true) 48000000).map
        (·.command) = .ok (some sequenceCommand) ∧
      arrayCommand.deleteScope = sequenceCommand.deleteScope ∧
      arrayCommand.deleteStatements = sequenceCommand.deleteStatements ∧
      arrayCommand.deleteScope = some .mixed ∧ arrayCommand.deleteStatements = some 2 :=
  delete_encodings_agree (by decide +kernel) (by decide +kernel) .rejecting true

end MongoDam.Protocol
