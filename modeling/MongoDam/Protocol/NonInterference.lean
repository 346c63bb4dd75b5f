import MongoDam.Protocol.Frame
import MongoDam.Protocol.Locality

/-!
# Values that do not reach the metadata

Two frames are similar when they differ only inside the values of body elements that
no summary reads, or inside the documents of sequences other than `deletes`, without
moving anything. Decoding similar frames, or equally long beginnings of them, gives
the same result up to the query of the command.
-/

namespace MongoDam.Protocol

open Lib

/-- A command without its query. -/
def eraseQuery (command : MongoCommand) : MongoCommand := { command with query := none }

/-- A message without the query of its command. -/
def eraseMessageQuery (message : DecodedMessage) : DecodedMessage :=
  { message with command := message.command.map eraseQuery }

/-- The keys of the top-level fields that a summary reads. -/
def summaryKeys : List String :=
  ["$db", "collection", "ok", "code", "n", "done", "codeName", "mechanism", "user", "payload",
    "speculativeAuthenticate", "deletes"]

/-- Elements that differ only inside values that no summary reads. `first` says that
the first element of the document comes next; its value is read whatever its key. -/
inductive ElementsSimilar : Bool → Bytes → Bytes → Prop
  | same (first : Bool) (rest : Bytes) : ElementsSimilar first rest rest
  | element {first : Bool} {elementType : UInt8} {keyBytes value value' rest rest' : Bytes}
      {key : String} : IsKey keyBytes key → IsValue elementType value →
      IsValue elementType value' → value.length = value'.length →
      (value = value' ∨ first = false ∧ key ∉ summaryKeys) → ElementsSimilar false rest rest' →
      ElementsSimilar first (elementType :: keyBytes ++ (value ++ rest))
        (elementType :: keyBytes ++ (value' ++ rest'))

/-- Documents with similar elements between the same length prefix and last byte. -/
inductive DocumentSimilar : Bytes → Bytes → Prop
  | intro {size elements elements' : Bytes} {last : UInt8} : size.length = 4 →
      readI32 size 0 = .ok ((elements.length + 5 : ℕ) : ℤ) →
      ElementsSimilar true elements elements' →
      DocumentSimilar (size ++ (elements ++ [last])) (size ++ (elements' ++ [last]))

/-- Sections that differ only inside similar bodies, or inside the documents of
sequences other than `deletes`. -/
inductive SectionsSimilar : Bytes → Bytes → Prop
  | same (rest : Bytes) : SectionsSimilar rest rest
  | body {document document' rest rest' : Bytes} : DocumentSimilar document document' →
      SectionsSimilar rest rest' →
      SectionsSimilar (0 :: document ++ rest) (0 :: document' ++ rest')
  | sequence {size identifierBytes documents documents' rest rest' : Bytes} {identifier : String} :
      size.length = 4 →
      readI32 size 0 = .ok ((4 + identifierBytes.length + documents.length : ℕ) : ℤ) →
      IsKey identifierBytes identifier → identifier ≠ "deletes" →
      documents.length = documents'.length → SectionsSimilar rest rest' →
      SectionsSimilar (1 :: (size ++ identifierBytes ++ documents) ++ rest)
        (1 :: (size ++ identifierBytes ++ documents') ++ rest')

/-- `OP_MSG` frames with the same header and flags and similar sections. -/
inductive FrameSimilar : Bytes → Bytes → Prop
  | intro {header flags sections sections' : Bytes} : header.length = 16 → flags.length = 4 →
      readI32 header 0 = .ok ((20 + sections.length : ℕ) : ℤ) → readI32 header 12 = .ok OP_MSG →
      SectionsSimilar sections sections' →
      FrameSimilar (header ++ (flags ++ sections)) (header ++ (flags ++ sections'))

/-! ### Lengths -/

theorem ElementsSimilar.length_eq {first : Bool} {elements elements' : Bytes}
    (h : ElementsSimilar first elements elements') : elements.length = elements'.length := by
  induction h with
  | same => rfl
  | element _ _ _ hlength _ _ ih => simp [hlength, ih]

theorem ElementsSimilar.append {first : Bool} {elements elements' : Bytes}
    (h : ElementsSimilar first elements elements') (rest : Bytes) :
    ElementsSimilar first (elements ++ rest) (elements' ++ rest) := by
  induction h with
  | same => exact .same _ _
  | element hkey hvalue hvalue' hlength hread _ ih =>
    simp only [List.append_assoc]
    exact .element hkey hvalue hvalue' hlength hread ih

theorem DocumentSimilar.length_eq {document document' : Bytes}
    (h : DocumentSimilar document document') : document.length = document'.length := by
  cases h with
  | intro hsize hlength helements => simp [helements.length_eq]

theorem SectionsSimilar.length_eq {sections sections' : Bytes}
    (h : SectionsSimilar sections sections') : sections.length = sections'.length := by
  induction h with
  | same => rfl
  | body hdocument _ ih => simp [hdocument.length_eq, ih]
  | sequence _ _ _ _ hlength _ ih => simp [hlength, ih]

/-! ### One element -/

/-- An element behind the first with another key adds nothing to a summary. -/
theorem recordElement_of_not_mem (nested : Option (Bytes → Except DecodeError BsonSummary))
    (document : Bytes) {ordinal : ℕ} (elementType : UInt8) {key : String} (valueStart : ℕ)
    (next : Option ℕ) (summary : BsonSummary) (hordinal : ordinal ≠ 0) (hkey : key ∉ summaryKeys) :
    recordElement nested document ordinal elementType key valueStart next summary = summary := by
  unfold recordElement recordFirst
  rw [if_neg hordinal]
  unfold recordField
  split
  all_goals first | rfl | exact absurd (by decide) hkey

section

variable {elementType : UInt8} {keyBytes value : Bytes} {key : String}

private theorem readCstring_element (hkey : IsKey keyBytes key) (rest : Bytes) :
    readCstring (elementType :: keyBytes ++ rest) (0 + 1) =
      .ok (key, (elementType :: keyBytes).length + 0) := by
  have hread := readCstring_append_left [elementType] (keyBytes ++ rest) 0
  rw [readCstring_append rest hkey] at hread
  have hstop : [elementType].length + keyBytes.length = (elementType :: keyBytes).length + 0 := by
    simp only [List.length_cons, List.length_nil]
    omega
  exact hread.trans (congrArg (fun stop => Except.ok (key, stop)) hstop)

private theorem skipValue_element (hvalue : IsValue elementType value) (rest : Bytes) :
    skipValue (elementType :: keyBytes ++ (value ++ rest)) ((elementType :: keyBytes).length + 0)
      elementType = .ok ((elementType :: keyBytes).length + value.length) := by
  rw [skipValue_append_left, skipValue_append rest hvalue]
  rfl

private theorem keyBytes_pos (hkey : IsKey keyBytes key) : 0 < keyBytes.length :=
  (readCstring_lt hkey).1

/-- The loop passes one complete element and continues on the remaining bytes. -/
theorem summarizeLoop_element (nested : Option (Bytes → Except DecodeError BsonSummary))
    (hkey : IsKey keyBytes key) (hvalue : IsValue elementType value) (rest : Bytes) (ordinal : ℕ)
    (summary : BsonSummary) :
    summarizeLoop nested (elementType :: keyBytes ++ (value ++ rest)) 0 ordinal summary =
      if rest.length = 0 then .error .invalidBson
      else summarizeLoop nested rest 0 (ordinal + 1)
        (recordElement nested value ordinal elementType key 0 (some value.length) summary) := by
  have hpos := keyBytes_pos hkey
  have hlength : (elementType :: keyBytes ++ (value ++ rest)).length =
      (elementType :: keyBytes).length + (value.length + rest.length) := by
    simp only [List.length_append]
  have hhead : (elementType :: keyBytes).length = keyBytes.length + 1 := rfl
  rw [summarizeLoop_eq, if_pos (by omega), readCstring_element hkey]
  dsimp only
  have helement : (elementType :: keyBytes ++ (value ++ rest)).getD 0 0 = elementType := rfl
  rw [helement, skipValue_element hvalue]
  dsimp only
  by_cases hrest : rest.length = 0
  · rw [if_pos hrest, if_pos (by omega)]
  · rw [if_neg hrest, if_neg (by omega)]
    have hloop := summarizeLoop_append_left nested (elementType :: keyBytes ++ value) rest 0
      (ordinal + 1)
      (recordElement nested value ordinal elementType key 0 (some value.length) summary)
    rw [List.length_append, Nat.add_zero, List.append_assoc] at hloop
    rw [← hloop, ← recordElement_value nested rest hvalue]
    exact congrArg _ (recordElement_append_left nested (elementType :: keyBytes) (value ++ rest)
      ordinal elementType key 0 (some value.length) summary)

/-- The prefix loop passes one complete element. It ends there when the value takes no
bytes. -/
theorem summarizePrefixLoop_element (hkey : IsKey keyBytes key)
    (hvalue : IsValue elementType value) (rest : Bytes) (ordinal : ℕ) (summary : BsonSummary) :
    summarizePrefixLoop (elementType :: keyBytes ++ (value ++ rest))
        (elementType :: keyBytes ++ (value ++ rest)).length 0 ordinal summary =
      if 0 < value.length then
        summarizePrefixLoop rest rest.length 0 (ordinal + 1)
          (recordElement (some (summarizeWith none)) value ordinal elementType key 0
            (some value.length) summary)
      else
        recordElement (some (summarizeWith none)) value ordinal elementType key 0
          (some value.length) summary := by
  have hlength : (elementType :: keyBytes ++ (value ++ rest)).length =
      (elementType :: keyBytes).length + (value.length + rest.length) := by
    simp only [List.length_append]
  have hhead : (elementType :: keyBytes).length = keyBytes.length + 1 := rfl
  have hrecord : recordElement (some (summarizeWith none))
      (elementType :: keyBytes ++ (value ++ rest)) ordinal elementType key
      ((elementType :: keyBytes).length + 0)
      (some ((elementType :: keyBytes).length + value.length))
      summary = recordElement (some (summarizeWith none)) value ordinal elementType key 0
        (some value.length) summary := by
    rw [← recordElement_value _ rest hvalue]
    exact recordElement_append_left _ (elementType :: keyBytes) (value ++ rest) ordinal elementType
      key 0 (some value.length) summary
  rw [summarizePrefixLoop_eq, if_pos (by omega)]
  have helement : (elementType :: keyBytes ++ (value ++ rest))[0]? = some elementType := rfl
  rw [helement]
  dsimp only
  rw [readCstring_element hkey]
  dsimp only
  rw [skipValue_element hvalue]
  dsimp only
  rw [hrecord]
  by_cases hvalueLength : 0 < value.length
  · rw [if_pos hvalueLength, if_pos (by omega)]
    have hloop := summarizePrefixLoop_append_left (elementType :: keyBytes ++ value) rest
      rest.length 0 (ordinal + 1) (recordElement (some (summarizeWith none)) value ordinal
        elementType key 0 (some value.length) summary)
    rw [List.length_append, Nat.add_zero, List.append_assoc] at hloop
    rw [← hloop, hlength, Nat.add_assoc]
  · rw [if_neg hvalueLength, if_neg (by omega)]

/-- The prefix loop ends at a cut value; a field no summary reads leaves no trace. -/
theorem summarizePrefixLoop_cut (hkey : IsKey keyBytes key) (hvalue : IsValue elementType value)
    {n : ℕ} (hcut : n < value.length) {ordinal : ℕ} (summary : BsonSummary) (hordinal : ordinal ≠ 0)
    (hnot : key ∉ summaryKeys) :
    summarizePrefixLoop (elementType :: keyBytes ++ value.take n)
      (elementType :: keyBytes ++ value.take n).length 0 ordinal summary = summary := by
  have hlength : (elementType :: keyBytes ++ value.take n).length =
      keyBytes.length + 1 + (value.take n).length := by
    rw [List.length_append, List.length_cons]
  rw [summarizePrefixLoop_eq, if_pos (by omega)]
  have helement : (elementType :: keyBytes ++ value.take n)[0]? = some elementType := rfl
  rw [helement]
  dsimp only
  rw [readCstring_element hkey]
  dsimp only
  rw [skipValue_append_left]
  cases hskip : skipValue (value.take n) 0 elementType with
  | error e => exact recordElement_of_not_mem _ _ _ _ _ _ hordinal hnot
  | ok stop => exact absurd hskip (skipValue_take_ne_ok hvalue hcut stop)

end

/-! ### Documents -/

private theorem recordElement_similar (nested : Option (Bytes → Except DecodeError BsonSummary))
    {first : Bool} {value value' : Bytes} {key : String} (elementType : UInt8) {ordinal : ℕ}
    (hread : value = value' ∨ first = false ∧ key ∉ summaryKeys)
    (hordinal : first = false → ordinal ≠ 0) (summary : BsonSummary) :
    recordElement nested value ordinal elementType key 0 (some value.length) summary =
      recordElement nested value' ordinal elementType key 0 (some value'.length) summary := by
  rcases hread with rfl | ⟨hfirst, hnot⟩
  · rfl
  · rw [recordElement_of_not_mem _ _ _ _ _ _ (hordinal hfirst) hnot,
      recordElement_of_not_mem _ _ _ _ _ _ (hordinal hfirst) hnot]

theorem summarizeLoop_similar (nested : Option (Bytes → Except DecodeError BsonSummary))
    {first : Bool} {elements elements' : Bytes} (h : ElementsSimilar first elements elements')
    {ordinal : ℕ} (hordinal : first = false → ordinal ≠ 0) (summary : BsonSummary) :
    summarizeLoop nested elements 0 ordinal summary =
      summarizeLoop nested elements' 0 ordinal summary := by
  induction h generalizing ordinal summary with
  | same => rfl
  | @element first elementType _ value value' _ _ key hkey hvalue hvalue' hlength hread hrest ih =>
    have hrecord := recordElement_similar nested elementType hread hordinal summary
    rw [summarizeLoop_element nested hkey hvalue, summarizeLoop_element nested hkey hvalue',
      hrest.length_eq, hrecord, ih (fun _ => by omega)]

theorem summarizePrefixLoop_similar {first : Bool} {elements elements' : Bytes}
    (h : ElementsSimilar first elements elements') (cut : ℕ) {ordinal : ℕ}
    (hordinal : first = false → ordinal ≠ 0) (summary : BsonSummary) :
    summarizePrefixLoop (elements.take cut) (elements.take cut).length 0 ordinal summary =
      summarizePrefixLoop (elements'.take cut) (elements'.take cut).length 0 ordinal summary := by
  induction h generalizing cut ordinal summary with
  | same => rfl
  | @element first elementType keyBytes value value' rest rest' key hkey hvalue hvalue'
    hlength hread
      hrest ih =>
    by_cases hhead : cut ≤ (elementType :: keyBytes).length
    · -- the cut does not reach the value
      rw [List.take_append_of_le_length hhead, List.take_append_of_le_length hhead]
    · have htake : ∀ tail : Bytes, (elementType :: keyBytes ++ tail).take cut =
          elementType :: keyBytes ++
            tail.take (cut - (elementType :: keyBytes).length) := fun tail => by
        rw [List.take_append, List.take_of_length_le (by omega)]
      rw [htake, htake]
      generalize cut - (elementType :: keyBytes).length = inside
      by_cases hinside : inside < value.length
      · rw [List.take_append_of_le_length (by omega), List.take_append_of_le_length (by omega)]
        rcases hread with rfl | ⟨hfirst, hnot⟩
        · rfl
        · rw [summarizePrefixLoop_cut hkey hvalue hinside summary (hordinal hfirst) hnot,
            summarizePrefixLoop_cut hkey hvalue' (by omega) summary (hordinal hfirst) hnot]
      · have hrecord := recordElement_similar (some (summarizeWith none)) elementType hread hordinal
          summary
        rw [List.take_append, List.take_of_length_le (by omega : value.length ≤ inside),
          List.take_append, List.take_of_length_le (by omega : value'.length ≤ inside),
          summarizePrefixLoop_element hkey hvalue, summarizePrefixLoop_element hkey hvalue',
          hrecord, hlength, ih _ (fun _ => by omega)]

/-- A summary without its query. -/
def BsonSummary.eraseQuery (summary : BsonSummary) : BsonSummary := { summary with query := none }

private theorem attachQuery_eraseQuery (document : Bytes) (summary : BsonSummary) :
    (attachQuery document summary).eraseQuery = summary.eraseQuery := by
  unfold attachQuery
  split <;> rfl

theorem summarizeBson_similar {document document' : Bytes}
    (h : DocumentSimilar document document') :
    (summarizeBson document).map BsonSummary.eraseQuery =
      (summarizeBson document').map BsonSummary.eraseQuery := by
  cases h with
  | @intro size elements elements' last hsize hlength helements =>
    have hcontainer : isContainer (size ++ (elements ++ [last])) =
        isContainer (size ++ (elements' ++ [last])) := by
      unfold isContainer
      rw [readI32_append _ (by omega), readI32_append _ (by omega), ← List.append_assoc,
        ← List.append_assoc, List.getLast?_concat, List.getLast?_concat]
      simp only [List.length_append, helements.length_eq]
    have hloop : ∀ nested, summarizeLoop nested (size ++ (elements ++ [last])) 4 0 {} =
        summarizeLoop nested (size ++ (elements' ++ [last])) 4 0 {} := by
      intro nested
      have hfour : 4 = size.length + 0 := by omega
      rw [hfour, summarizeLoop_append_left, summarizeLoop_append_left]
      exact summarizeLoop_similar nested (helements.append [last]) (fun h => nomatch h) {}
    unfold summarizeBson summarizeBsonInner
    generalize (if true then some (summarizeWith none) else none) = nested
    unfold summarizeWith
    rw [hcontainer, hloop]
    split
    · cases summarizeLoop nested (size ++ (elements' ++ [last])) 4 0 {} with
      | error e => rfl
      | ok summary =>
        refine congrArg Except.ok ?_
        rw [attachQuery_eraseQuery, attachQuery_eraseQuery]
    · rfl

/-- The beginning of a document and what follows it: the whole document is summarized
when the cut lies behind it, and its available elements otherwise. -/
theorem summarizeBsonPrefix_document {size elements : Bytes} {last : UInt8}
    (hsize : size.length = 4) (hlength : readI32 size 0 = .ok ((elements.length + 5 : ℕ) : ℤ))
    (rest : Bytes) (cut : ℕ) :
    summarizeBsonPrefix ((size ++ (elements ++ [last]) ++ rest).take cut) =
      if min cut (elements.length + 5 + rest.length) < 5 then .error .truncated
      else if elements.length + 5 ≤ cut then summarizeBson (size ++ (elements ++ [last]))
      else
        let summary :=
          summarizePrefixLoop (elements.take (cut - 4)) (elements.take (cut - 4)).length
          0 0 {}
        if summary.firstKey = none then .error .truncated else .ok summary := by
  have hdocument : (size ++ (elements ++ [last])).length = elements.length + 5 := by
    simp only [List.length_append, List.length_cons, List.length_nil]
    omega
  have htotal : ((size ++ (elements ++ [last]) ++ rest).take cut).length =
      min cut (elements.length + 5 + rest.length) := by
    rw [List.length_take, List.length_append, hdocument]
  unfold summarizeBsonPrefix
  rw [htotal]
  by_cases hshort : min cut (elements.length + 5 + rest.length) < 5
  · rw [if_pos hshort, if_pos hshort]
  · rw [if_neg hshort, if_neg hshort, readI32_take (by omega), List.append_assoc,
      readI32_append _ (by omega), hlength]
    dsimp only
    rw [if_neg (by omega), Int.toNat_natCast, ← List.append_assoc]
    by_cases hcomplete : elements.length + 5 ≤ cut
    · rw [if_pos hcomplete, if_pos (by omega), List.take_take, Nat.min_eq_left (by omega),
        ← hdocument, List.take_left]
      rfl
    · -- the cut lies inside the elements or directly behind them
      have htake : (size ++ (elements ++ [last]) ++ rest).take cut =
          size ++ elements.take (cut - 4) := by
        rw [List.append_assoc, List.append_assoc, List.take_append,
          List.take_of_length_le (by omega), hsize, List.take_append_of_le_length (by omega)]
      have havailable :
          min (min cut (elements.length + 5 + rest.length)) (elements.length + 5 - 1) =
          size.length + (elements.take (cut - 4)).length := by
        rw [List.length_take, hsize]
        omega
      have hloop := summarizePrefixLoop_append_left size (elements.take (cut - 4))
        (elements.take (cut - 4)).length 0 0 {}
      rw [show size.length + 0 = 4 by omega] at hloop
      rw [if_neg hcomplete, if_neg (by omega), htake, havailable, hloop]

/-- Beginnings of similar documents and what follows them, cut at the same place. -/
theorem summarizeBsonPrefix_similar {document document' rest rest' : Bytes}
    (h : DocumentSimilar document document') (hrest : rest.length = rest'.length) (cut : ℕ) :
    (summarizeBsonPrefix ((document ++ rest).take cut)).map BsonSummary.eraseQuery =
      (summarizeBsonPrefix ((document' ++ rest').take cut)).map BsonSummary.eraseQuery := by
  have hsummary := summarizeBson_similar h
  cases h with
  | @intro size elements elements' last hsize hlength helements =>
    have hlength' : readI32 size 0 = .ok ((elements'.length + 5 : ℕ) : ℤ) := by
      rw [hlength, helements.length_eq]
    rw [summarizeBsonPrefix_document hsize hlength, summarizeBsonPrefix_document hsize hlength',
      helements.length_eq, hrest,
      summarizePrefixLoop_similar helements (cut - 4) (fun h => nomatch h) {}]
    split
    · rfl
    · split
      · exact hsummary
      · rfl

/-! ### Sections -/

/-- The collected sections without queries and without the sequences they come from. -/
def OpMsgSections.eraseQueries (sections : OpMsgSections) : OpMsgSections :=
  { sections with
    summary := sections.summary.map BsonSummary.eraseQuery
    documentSequences := [] }

theorem sliceBson_append_left (front rest : Bytes) (start stop : ℕ) :
    sliceBson (front ++ rest) (front.length + start) (front.length + stop) =
      sliceBson rest start stop := by
  unfold sliceBson
  rw [slice?_append_left]

theorem sliceBson_front (front rest : Bytes) :
    sliceBson (front ++ rest) 0 front.length = .ok front := by
  unfold sliceBson
  rw [slice?_append (Nat.le_refl _), slice?_eq_some (Nat.zero_le _) (Nat.le_refl _), List.drop_zero,
    Nat.sub_zero, List.take_length]

theorem OpMsgSections.eraseQueries_eq_iff {sections sections' : OpMsgSections} :
    sections.eraseQueries = sections'.eraseQueries ↔
      sections.summary.map BsonSummary.eraseQuery = sections'.summary.map BsonSummary.eraseQuery ∧
        sections.deleteSequence = sections'.deleteSequence := by
  simp only [OpMsgSections.eraseQueries, OpMsgSections.mk.injEq, and_true]

/-- The section loop behind any bytes, up to queries. -/
theorem opMsgSectionsLoop_append_left (front rest : Bytes) (stop offset : ℕ)
    {sections sections' : OpMsgSections}
    (hsummary : sections.summary.map BsonSummary.eraseQuery =
      sections'.summary.map BsonSummary.eraseQuery)
    (hdeletes : sections.deleteSequence = sections'.deleteSequence) :
    (opMsgSectionsLoop (front ++ rest) (front.length + stop) (front.length + offset) sections).map
        OpMsgSections.eraseQueries =
      (opMsgSectionsLoop rest stop offset sections').map OpMsgSections.eraseQueries := by
  fun_induction opMsgSectionsLoop rest stop offset sections' generalizing sections with
  | case5 offset sections' hoffset hkind size hsize hleast hstop value hvalue ih =>
    obtain ⟨other, hother⟩ : ∃ other, sections.summary = some other := by
      rw [hvalue] at hsummary
      exact Option.isSome_iff_exists.mp (by simpa using congrArg Option.isSome hsummary)
    rw [opMsgSectionsLoop, if_pos (by omega)]
    simp only [Nat.add_assoc] at hstop ih ⊢
    simp only [getElem?_append_left, hkind, readI32_append_left, hsize, if_neg hleast,
      Nat.add_lt_add_iff_left, if_neg hstop, hother]
    exact ih hsummary hdeletes
  | case6 offset sections' hoffset hkind size hsize hleast hstop hnone e hbody =>
    have hnone' : sections.summary = none := by
      rw [hnone] at hsummary
      exact Option.map_eq_none_iff.mp hsummary
    rw [opMsgSectionsLoop, if_pos (by omega)]
    simp only [Nat.add_assoc] at hstop hbody ⊢
    simp only [getElem?_append_left, hkind, readI32_append_left, hsize, if_neg hleast,
      Nat.add_lt_add_iff_left, if_neg hstop, hnone', sliceBson_append_left, hbody]
  | case7 offset sections' hoffset hkind size hsize hleast hstop hnone summary hbody ih =>
    have hnone' : sections.summary = none := by
      rw [hnone] at hsummary
      exact Option.map_eq_none_iff.mp hsummary
    rw [opMsgSectionsLoop, if_pos (by omega)]
    simp only [Nat.add_assoc] at hstop hbody ih ⊢
    simp only [getElem?_append_left, hkind, readI32_append_left, hsize, if_neg hleast,
      Nat.add_lt_add_iff_left, if_neg hstop, hnone', sliceBson_append_left, hbody]
    exact ih rfl hdeletes
  | case14 offset sections' hoffset hkind size hsize hleast hstop start hstart documents hslice e
      hdeletesError hkey =>
    rw [opMsgSectionsLoop, if_pos (by omega)]
    simp only [Nat.add_assoc] at hstop hstart hslice hkey ⊢
    simp only [getElem?_append_left, hkind, readI32_append_left, hsize, if_neg hleast,
      Nat.add_lt_add_iff_left, if_neg hstop, readCstring_append_left, hkey, Except.map,
      Prod.map, id, if_neg hstart, sliceBson_append_left, hslice, if_true, hdeletesError]
  | case15 offset sections' hoffset hkind size hsize hleast hstop start hstart documents hslice
      deletes hdeletesOk hkey ih =>
    rw [opMsgSectionsLoop, if_pos (by omega)]
    simp only [Nat.add_assoc] at hstop hstart hslice hkey ih ⊢
    simp only [getElem?_append_left, hkind, readI32_append_left, hsize, if_neg hleast,
      Nat.add_lt_add_iff_left, if_neg hstop, readCstring_append_left, hkey, Except.map,
      Prod.map, id, if_neg hstart, sliceBson_append_left, hslice, if_true, hdeletesOk]
    exact ih hsummary rfl
  | case16 offset sections' hoffset hkind size hsize hleast hstop identifier start hkey hstart
      documents hslice hother ih =>
    rw [opMsgSectionsLoop, if_pos (by omega)]
    simp only [Nat.add_assoc] at hstop hstart hslice hkey ih ⊢
    simp only [getElem?_append_left, hkind, readI32_append_left, hsize, if_neg hleast,
      Nat.add_lt_add_iff_left, if_neg hstop, readCstring_append_left, hkey, Except.map,
      Prod.map, id, if_neg hstart, sliceBson_append_left, hslice, if_neg hother]
    exact ih hsummary hdeletes
  | case18 offset sections' hend =>
    rw [opMsgSectionsLoop, if_neg (by omega)]
    exact congrArg Except.ok (OpMsgSections.eraseQueries_eq_iff.mpr ⟨hsummary, hdeletes⟩)
  | _ =>
    -- the loop fails before it touches the collected sections
    rw [opMsgSectionsLoop, if_pos (by omega)]
    simp_all only [Nat.add_assoc, getElem?_append_left, readI32_append_left,
      readCstring_append_left, sliceBson_append_left, Nat.add_lt_add_iff_left, Except.map, Prod.map,
      if_true, if_false]

private theorem opMsgSectionsLoop_congr (payload : Bytes) (stop offset : ℕ)
    {sections sections' : OpMsgSections}
    (hsummary : sections.summary.map BsonSummary.eraseQuery =
      sections'.summary.map BsonSummary.eraseQuery)
    (hdeletes : sections.deleteSequence = sections'.deleteSequence) :
    (opMsgSectionsLoop payload stop offset sections).map OpMsgSections.eraseQueries =
      (opMsgSectionsLoop payload stop offset sections').map OpMsgSections.eraseQueries := by
  have hloop := opMsgSectionsLoop_append_left [] payload stop offset hsummary hdeletes
  rw [List.nil_append, List.length_nil, Nat.zero_add, Nat.zero_add] at hloop
  exact hloop

/-- The loop continues on the bytes behind what it has passed. -/
private theorem opMsgSectionsLoop_continue (front rest : Bytes) {stop next : ℕ}
    (sections : OpMsgSections) (hnext : front.length = next) (hstop : next ≤ stop) :
    (opMsgSectionsLoop (front ++ rest) stop next sections).map OpMsgSections.eraseQueries =
      (opMsgSectionsLoop rest (stop - next) 0 sections).map OpMsgSections.eraseQueries := by
  have hloop := opMsgSectionsLoop_append_left front rest (stop - next) 0
    (@rfl _ (sections.summary.map _)) rfl
  rw [hnext, Nat.add_sub_cancel' hstop] at hloop
  exact hloop

/-- One body section. -/
private theorem opMsgSectionsLoop_body_step {document : Bytes} (rest : Bytes) (stop : ℕ)
    (sections : OpMsgSections) (hsize : readI32 document 0 = .ok (document.length : ℤ))
    (hleast : 5 ≤ document.length) :
    (opMsgSectionsLoop (0 :: document ++ rest) stop 0 sections).map OpMsgSections.eraseQueries =
      if stop = 0 then .ok sections.eraseQueries
      else if stop < 1 + document.length then .error .invalidBson
      else
        match sections.summary with
        | some _ => (opMsgSectionsLoop rest (stop - (1 + document.length)) 0 sections).map
            OpMsgSections.eraseQueries
        | none =>
          match summarizeBson document with
          | .error e => .error e
          | .ok summary => (opMsgSectionsLoop rest (stop - (1 + document.length)) 0
              { sections with summary := some summary }).map OpMsgSections.eraseQueries := by
  have hread : readI32 (0 :: document ++ rest) (0 + 1) = .ok (document.length : ℤ) := by
    rw [← hsize, ← readI32_append rest (readI32_eq_ok hsize)]
    exact readI32_append_left [0] (document ++ rest) 0
  have hslice :
      sliceBson (0 :: document ++ rest) (0 + 1) (0 + 1 + document.length) = .ok document := by
    rw [← sliceBson_front document rest]
    exact sliceBson_append_left [0] (document ++ rest) 0 document.length
  have hkind : (0 :: document ++ rest)[0]? = some (0 : UInt8) := rfl
  have hnext : (0 :: document).length = 0 + 1 + document.length := by
    rw [List.length_cons]
    omega
  rw [opMsgSectionsLoop]
  by_cases hstop : stop = 0
  · rw [if_pos hstop, if_neg (by omega)]
    rfl
  · rw [if_neg hstop, if_pos (by omega)]
    have hfive : ¬(document.length : ℤ) < 5 := by omega
    simp only [hkind, hread, if_neg hfive, Int.toNat_natCast, hslice]
    rw [Nat.zero_add] at hnext ⊢
    by_cases hend : stop < 1 + document.length
    · rw [if_pos hend, if_pos hend]
      rfl
    · rw [if_neg hend, if_neg hend]
      cases sections.summary with
      | some summary => exact opMsgSectionsLoop_continue (0 :: document) rest _ hnext (by omega)
      | none =>
        cases hsummary : summarizeBson document with
        | error e =>
          simp only [bind, Except.bind, hsummary]
          rfl
        | ok summary =>
          simp only [bind, Except.bind, hsummary]
          exact opMsgSectionsLoop_continue (0 :: document) rest _ hnext (by omega)

/-- One sequence section other than `deletes`: its documents are passed over. -/
private theorem opMsgSectionsLoop_sequence_step {size identifierBytes documents : Bytes}
    {identifier : String} (rest : Bytes) (stop : ℕ) (sections : OpMsgSections)
    (hsize : size.length = 4)
    (hlength : readI32 size 0 = .ok ((4 + identifierBytes.length + documents.length : ℕ) : ℤ))
    (hkey : IsKey identifierBytes identifier) (hother : identifier ≠ "deletes") :
    (opMsgSectionsLoop (1 :: (size ++ identifierBytes ++ documents) ++ rest) stop 0 sections).map
        OpMsgSections.eraseQueries =
      if stop = 0 then .ok sections.eraseQueries
      else if stop < 5 + identifierBytes.length + documents.length then .error .invalidBson
      else (opMsgSectionsLoop rest (stop - (5 + identifierBytes.length + documents.length)) 0
        sections).map OpMsgSections.eraseQueries := by
  have hshape : 1 :: (size ++ identifierBytes ++ documents) ++ rest =
      1 :: size ++ (identifierBytes ++ (documents ++ rest)) := by
    simp only [List.cons_append, List.append_assoc]
  have hread : readI32 (1 :: size ++ (identifierBytes ++ (documents ++ rest))) (0 + 1) =
      .ok ((4 + identifierBytes.length + documents.length : ℕ) : ℤ) := by
    have hfront : readI32 (size ++ (identifierBytes ++ (documents ++ rest))) 0 =
        .ok ((4 + identifierBytes.length + documents.length : ℕ) : ℤ) := by
      rw [readI32_append _ (by omega), hlength]
    rw [← hfront]
    exact readI32_append_left [1] (size ++ (identifierBytes ++ (documents ++ rest))) 0
  have hkeyRead : readCstring (1 :: size ++ (identifierBytes ++ (documents ++ rest))) (0 + 1 + 4) =
      .ok (identifier, 5 + identifierBytes.length) := by
    have hfront : 0 + 1 + 4 = (1 :: size).length + 0 := by
      rw [List.length_cons, hsize]
    rw [hfront, readCstring_append_left, readCstring_append _ hkey]
    simp only [Except.map, Prod.map, id, List.length_cons, hsize]
  have hslice : sliceBson (1 :: size ++ (identifierBytes ++ (documents ++ rest)))
      (5 + identifierBytes.length) (0 + 1 + (4 + identifierBytes.length + documents.length)) =
        .ok documents := by
    have hfront : (1 :: size ++ identifierBytes).length = 5 + identifierBytes.length := by
      rw [List.length_append, List.length_cons, hsize]
    have hmove := sliceBson_append_left (1 :: size ++ identifierBytes) (documents ++ rest) 0
      documents.length
    rw [hfront, sliceBson_front, List.append_assoc] at hmove
    rw [← hmove]
    congr 1
    omega
  have hkind : (1 :: size ++ (identifierBytes ++ (documents ++ rest)))[0]? = some (1 : UInt8) := rfl
  have hnext : (1 :: (size ++ identifierBytes ++ documents)).length =
      5 + identifierBytes.length + documents.length := by
    simp only [List.length_cons, List.length_append]
    omega
  rw [opMsgSectionsLoop]
  by_cases hstop : stop = 0
  · rw [if_pos hstop, if_neg (by omega)]
    rfl
  · rw [if_neg hstop, if_pos (by omega), hshape]
    have hfive : ¬((4 + identifierBytes.length + documents.length : ℕ) : ℤ) < 5 := by
      have hpos := keyBytes_pos hkey
      omega
    have hstart : ¬0 + 1 + (4 + identifierBytes.length + documents.length) <
        5 + identifierBytes.length := by
      omega
    simp only [hkind, hread, if_neg hfive, Int.toNat_natCast, hkeyRead, if_neg hstart, hslice,
      if_neg hother]
    rw [show 0 + 1 + (4 + identifierBytes.length + documents.length) =
      5 + identifierBytes.length + documents.length by omega]
    by_cases hend : stop < 5 + identifierBytes.length + documents.length
    · rw [if_pos hend, if_pos hend]
      rfl
    · rw [if_neg hend, if_neg hend, ← hshape,
        opMsgSectionsLoop_continue _ rest _ hnext (Nat.le_of_not_lt hend)]
      exact opMsgSectionsLoop_congr rest _ 0 rfl rfl

/-- A document that has a similar one carries its own length. -/
private theorem DocumentSimilar.readI32_eq {document document' : Bytes}
    (h : DocumentSimilar document document') :
    5 ≤ document.length ∧ readI32 document 0 = .ok (document.length : ℤ) ∧
      readI32 document' 0 = .ok (document'.length : ℤ) := by
  have hdocument := h.length_eq
  cases h with
  | @intro size elements elements' last hsize hlength helements =>
    have htotal : (size ++ (elements ++ [last])).length = elements.length + 5 := by
      simp only [List.length_append, List.length_cons, List.length_nil]
      omega
    rw [readI32_append _ (by omega), readI32_append _ (by omega), hlength, ← hdocument, htotal]
    exact ⟨by omega, rfl, rfl⟩

theorem opMsgSectionsLoop_similar {bytes bytes' : Bytes} (h : SectionsSimilar bytes bytes')
    (stop : ℕ) {sections sections' : OpMsgSections}
    (hsummary : sections.summary.map BsonSummary.eraseQuery =
      sections'.summary.map BsonSummary.eraseQuery)
    (hdeletes : sections.deleteSequence = sections'.deleteSequence) :
    (opMsgSectionsLoop bytes stop 0 sections).map OpMsgSections.eraseQueries =
      (opMsgSectionsLoop bytes' stop 0 sections').map OpMsgSections.eraseQueries := by
  have herase := OpMsgSections.eraseQueries_eq_iff.mpr ⟨hsummary, hdeletes⟩
  induction h generalizing stop sections sections' with
  | same rest => exact opMsgSectionsLoop_congr rest stop 0 hsummary hdeletes
  | @body document document' rest rest' hdocument hrest ih =>
    obtain ⟨hleast, hsize, hsize'⟩ := hdocument.readI32_eq
    have hlength := hdocument.length_eq
    have hbody := summarizeBson_similar hdocument
    rw [opMsgSectionsLoop_body_step rest stop sections hsize hleast,
      opMsgSectionsLoop_body_step rest' stop sections' hsize' (by omega), herase, hlength]
    split
    · rfl
    · split
      · rfl
      · cases hfound : sections.summary with
        | some summary =>
          rw [hfound] at hsummary
          obtain ⟨summary', hfound'⟩ : ∃ summary', sections'.summary = some summary' :=
            Option.isSome_iff_exists.mp (by simpa using congrArg Option.isSome hsummary.symm)
          rw [hfound']
          exact ih _ (by rw [hfound, hsummary]) hdeletes herase
        | none =>
          rw [hfound] at hsummary
          have hfound' : sections'.summary = none := Option.map_eq_none_iff.mp hsummary.symm
          rw [hfound']
          dsimp only
          cases hdecoded : summarizeBson document with
          | error e =>
            rw [hdecoded] at hbody
            cases hdecoded' : summarizeBson document' with
            | error e' =>
              rw [hdecoded'] at hbody
              exact congrArg Except.error (Except.error.inj hbody)
            | ok summary' =>
              rw [hdecoded'] at hbody
              cases hbody
          | ok summary =>
            rw [hdecoded] at hbody
            cases hdecoded' : summarizeBson document' with
            | error e' =>
              rw [hdecoded'] at hbody
              cases hbody
            | ok summary' =>
              rw [hdecoded'] at hbody
              have hequal : summary.eraseQuery = summary'.eraseQuery := Except.ok.inj hbody
              have hsome : (some summary).map BsonSummary.eraseQuery =
                  (some summary').map BsonSummary.eraseQuery := congrArg some hequal
              exact ih _ hsome hdeletes
                (OpMsgSections.eraseQueries_eq_iff.mpr ⟨hsome, hdeletes⟩)
  | @sequence size identifierBytes documents documents' rest rest' identifier hsize hlength hkey
    hother
      hdocuments hrest ih =>
    have hlength' := hlength
    rw [hdocuments] at hlength'
    rw [opMsgSectionsLoop_sequence_step rest stop sections hsize hlength hkey hother,
      opMsgSectionsLoop_sequence_step rest' stop sections' hsize hlength' hkey hother, herase,
      hdocuments, ih _ hsummary hdeletes herase]

/-! ### Frames -/

/-- A message depends on the query of its summary only through the query it reports. -/
private theorem eraseMessageQuery_opMsgMessage {summary summary' : BsonSummary}
    (h : summary.eraseQuery = summary'.eraseQuery) (requestId responseTo : ℤ)
    (wireBytes flags : ℕ) (compressed : Bool) :
    eraseMessageQuery (opMsgMessage requestId responseTo wireBytes flags compressed summary) =
      eraseMessageQuery
        (opMsgMessage requestId responseTo wireBytes flags compressed summary') := by
  have hcommand : ∀ summary : BsonSummary, (commandFromSummary summary).map eraseQuery =
      (commandFromSummary summary.eraseQuery).map eraseQuery := by
    intro summary
    unfold commandFromSummary BsonSummary.eraseQuery
    cases summary.firstKey <;> rfl
  have hstatus : ∀ summary : BsonSummary, statusFromSummary summary =
      statusFromSummary summary.eraseQuery := fun _ => rfl
  unfold eraseMessageQuery opMsgMessage
  dsimp only
  rw [apply_ite (Option.map eraseQuery), apply_ite (Option.map eraseQuery), hcommand summary,
    hcommand summary', hstatus summary, hstatus summary', h]

private theorem mergeSequences_eraseQuery (sequences : List (String × List JsonValue))
    (deletes : Option (Option DeleteScope × ℕ)) (summary : BsonSummary) :
    (mergeSequences sequences (overrideDeletes deletes summary)).eraseQuery =
      overrideDeletes deletes summary.eraseQuery := by
  unfold mergeSequences overrideDeletes BsonSummary.eraseQuery
  cases deletes with
  | none =>
    repeat' split
    all_goals rfl
  | some deletes =>
    dsimp only
    repeat' split
    all_goals rfl

private theorem message_similar {sections sections' : OpMsgSections}
    (h : sections.eraseQueries = sections'.eraseQueries) (requestId responseTo : ℤ)
    (wireBytes flags : ℕ) (compressed : Bool) :
    (sections.message requestId responseTo wireBytes flags compressed).map eraseMessageQuery =
      (sections'.message requestId responseTo wireBytes flags compressed).map
        eraseMessageQuery := by
  obtain ⟨hsummary, hdeletes⟩ := OpMsgSections.eraseQueries_eq_iff.mp h
  unfold OpMsgSections.message
  rw [hdeletes]
  cases hfound : sections.summary with
  | none =>
    rw [hfound] at hsummary
    rw [Option.map_eq_none_iff.mp hsummary.symm]
  | some summary =>
    rw [hfound] at hsummary
    cases hfound' : sections'.summary with
    | none =>
      rw [hfound'] at hsummary
      cases hsummary
    | some summary' =>
      rw [hfound'] at hsummary
      have hequal : summary.eraseQuery = summary'.eraseQuery := Option.some.inj hsummary
      refine congrArg Except.ok (eraseMessageQuery_opMsgMessage ?_ ..)
      rw [mergeSequences_eraseQuery, mergeSequences_eraseQuery, hequal]

theorem decodeOpMsg_similar {flags sections sections' : Bytes} (hflags : flags.length = 4)
    (h : SectionsSimilar sections sections') (requestId responseTo : ℤ) (wireBytes : ℕ)
    (compressed : Bool) :
    (decodeOpMsg requestId responseTo wireBytes (flags ++ sections) compressed).map
        eraseMessageQuery =
      (decodeOpMsg requestId responseTo wireBytes (flags ++ sections') compressed).map
        eraseMessageQuery := by
  have hlength : (flags ++ sections).length = (flags ++ sections').length := by
    rw [List.length_append, List.length_append, h.length_eq]
  have hread : ∀ tail : Bytes, readU32 (flags ++ tail) 0 = readU32 flags 0 := by
    intro tail
    exact readWord_append tail (by omega)
  unfold decodeOpMsg
  rw [hlength, hread, hread]
  by_cases hshort : (flags ++ sections').length < 5
  · rw [if_pos hshort, if_pos hshort]
  · rw [if_neg hshort, if_neg hshort]
    cases readU32 flags 0 with
    | error e => rfl
    | ok bits =>
      dsimp only
      by_cases hchecksum : (flags ++ sections').length < 4 + (if bits % 2 = 1 then 4 else 0)
      · rw [if_pos hchecksum, if_pos hchecksum]
      · rw [if_neg hchecksum, if_neg hchecksum]
        have hstop : 4 ≤ sectionsEnd bits (flags ++ sections').length := by
          unfold sectionsEnd
          omega
        have hloop : (opMsgSectionsLoop (flags ++ sections)
            (sectionsEnd bits (flags ++ sections').length) 4 {}).map OpMsgSections.eraseQueries =
            (opMsgSectionsLoop (flags ++ sections')
              (sectionsEnd bits (flags ++ sections').length) 4 {}).map
                OpMsgSections.eraseQueries := by
          rw [opMsgSectionsLoop_continue flags sections {} hflags hstop,
            opMsgSectionsLoop_continue flags sections' {} hflags hstop]
          exact opMsgSectionsLoop_similar h _ rfl rfl
        revert hloop
        rcases opMsgSectionsLoop (flags ++ sections) _ 4 {} with e | collected <;>
          rcases opMsgSectionsLoop (flags ++ sections') _ 4 {} with e' | collected'
        · exact fun hloop => congrArg Except.error (Except.error.inj hloop)
        · exact fun hloop => nomatch hloop
        · exact fun hloop => nomatch hloop
        · exact fun hloop => message_similar (Except.ok.inj hloop) ..

/-- The beginning of a message whose sections start with a kind byte. -/
private theorem decodeOpMsgPrefix_cons {flags rest : Bytes} {kind : UInt8}
    (hflags : flags.length = 4) (requestId responseTo : ℤ) (declared cut : ℕ) :
    decodeOpMsgPrefix requestId responseTo declared ((flags ++ kind :: rest).take cut) =
      if min cut (5 + rest.length) < 6 then .error .truncated
      else
        match readU32 flags 0 with
        | .error e => .error e
        | .ok bits =>
          if kind ≠ 0 then .error (.unsupportedSection kind)
          else
            match summarizeBsonPrefix (rest.take (cut - 5)) with
            | .error e => .error e
            | .ok summary =>
              .ok (opMsgMessage requestId responseTo declared bits false summary) := by
  have hlength : ((flags ++ kind :: rest).take cut).length = min cut (5 + rest.length) := by
    rw [List.length_take, List.length_append, List.length_cons]
    omega
  unfold decodeOpMsgPrefix
  rw [hlength]
  by_cases hshort : min cut (5 + rest.length) < 6
  · rw [if_pos hshort, if_pos hshort]
  · have hread : readU32 ((flags ++ kind :: rest).take cut) 0 = readU32 flags 0 := by
      rw [readU32_take (by omega)]
      exact readWord_append _ (by omega)
    have hkind : ((flags ++ kind :: rest).take cut)[4]? = some kind := by
      rw [List.getElem?_take, if_pos (by omega), List.getElem?_append_right (by omega), hflags]
      rfl
    have hdrop : ((flags ++ kind :: rest).take cut).drop 5 = rest.take (cut - 5) := by
      rw [List.drop_take, List.drop_append, List.drop_eq_nil_of_le (by omega), hflags]
      rfl
    rw [if_neg hshort, if_neg hshort, hread, hkind, hdrop]
    cases readU32 flags 0 <;> rfl

/-- The beginnings of similar messages, cut at the same place. -/
theorem decodeOpMsgPrefix_similar {flags sections sections' : Bytes} (hflags : flags.length = 4)
    (h : SectionsSimilar sections sections') (requestId responseTo : ℤ) (declared cut : ℕ) :
    (decodeOpMsgPrefix requestId responseTo declared ((flags ++ sections).take cut)).map
        eraseMessageQuery =
      (decodeOpMsgPrefix requestId responseTo declared ((flags ++ sections').take cut)).map
        eraseMessageQuery := by
  have hlength := h.length_eq
  cases h with
  | same => rfl
  | @body document document' rest rest' hdocument hrest =>
    have hsummary := summarizeBsonPrefix_similar hdocument hrest.length_eq (cut - 5)
    simp only [List.cons_append, List.length_cons, Nat.add_right_cancel_iff] at hlength ⊢
    rw [decodeOpMsgPrefix_cons hflags, decodeOpMsgPrefix_cons hflags, hlength]
    split
    · rfl
    · cases readU32 flags 0 with
      | error e => rfl
      | ok bits =>
        dsimp only
        rw [if_neg (by decide), if_neg (by decide)]
        revert hsummary
        rcases summarizeBsonPrefix ((document ++ rest).take (cut - 5)) with e | summary <;>
          rcases summarizeBsonPrefix ((document' ++ rest').take (cut - 5)) with e' | summary'
        · exact fun hsummary => congrArg Except.error (Except.error.inj hsummary)
        · exact fun hsummary => nomatch hsummary
        · exact fun hsummary => nomatch hsummary
        · exact fun hsummary => congrArg Except.ok
            (eraseMessageQuery_opMsgMessage (Except.ok.inj hsummary) ..)
  | @sequence size identifierBytes documents documents' rest rest' =>
    simp only [List.cons_append, List.length_cons, Nat.add_right_cancel_iff] at hlength ⊢
    rw [decodeOpMsgPrefix_cons hflags, decodeOpMsgPrefix_cons hflags, hlength]
    split
    · rfl
    · cases readU32 flags 0 with
      | error e => rfl
      | ok bits =>
        dsimp only
        rw [if_pos (by decide), if_pos (by decide)]

section

variable {frame frame' : Bytes}

theorem FrameSimilar.length_eq (h : FrameSimilar frame frame') : frame.length = frame'.length := by
  cases h with
  | intro hheader hflags hdeclared hopcode hsections => simp [hsections.length_eq]

/-- Similar frames are decoded alike, up to the query of the command. -/
theorem decodeFrame_similar (h : FrameSimilar frame frame') (codecs : Decompressors)
    (maxMessageBytes : ℕ) :
    (decodeFrame codecs frame maxMessageBytes).map eraseMessageQuery =
      (decodeFrame codecs frame' maxMessageBytes).map eraseMessageQuery := by
  have hframes := h.length_eq
  cases h with
  | @intro header flags sections sections' hheader hflags hdeclared hopcode hsections =>
    obtain ⟨requestId, hrequest⟩ := exists_readI32 header 4 (by omega)
    obtain ⟨responseTo, hresponse⟩ := exists_readI32 header 8 (by omega)
    have hdecoded : ∀ tail : Bytes, header.length + tail.length = 20 + sections.length →
        decodeFrame codecs (header ++ tail) maxMessageBytes =
          if maxMessageBytes < 20 + sections.length then .error .frameTooLarge
          else decodeOpMsg requestId responseTo (20 + sections.length) tail false := by
      intro tail htail
      have hlength : (header ++ tail).length = 20 + sections.length := by
        rw [List.length_append, htail]
      have hread : ∀ offset, offset + 4 ≤ 16 →
          readI32 (header ++ tail) offset = readI32 header offset :=
        fun offset hoffset => readI32_append tail (by omega)
      rw [decodeFrame_opMsg (by omega) (by rw [hread 0 (by omega), hdeclared, hlength])
        ((hread 4 (by omega)).trans hrequest) ((hread 8 (by omega)).trans hresponse)
        ((hread 12 (by omega)).trans hopcode), hlength, ← hheader, List.drop_left]
    simp only [List.length_append] at hframes
    rw [hdecoded _ (by rw [List.length_append]; omega),
      hdecoded _ (by rw [List.length_append]; omega)]
    split
    · rfl
    · exact decodeOpMsg_similar hflags hsections ..

/-- Equally long beginnings of similar frames are decoded alike, up to the query. -/
theorem decodeFramePrefix_similar (h : FrameSimilar frame frame') (codecs : Decompressors)
    (maxMessageBytes n : ℕ) :
    (decodeFramePrefix codecs (frame.take n) maxMessageBytes).map eraseMessageQuery =
      (decodeFramePrefix codecs (frame'.take n) maxMessageBytes).map eraseMessageQuery := by
  have hwhole := decodeFrame_similar h codecs maxMessageBytes
  have hframes := h.length_eq
  cases h with
  | @intro header flags sections sections' hheader hflags hdeclared hopcode hsections =>
    have hsectionsLength := hsections.length_eq
    have htotal : (header ++ (flags ++ sections)).length = 20 + sections.length := by
      rw [List.length_append, List.length_append]
      omega
    by_cases hcut : n < 20 + sections.length
    · by_cases hshort : n < 16
      · have htruncated : ∀ captured : Bytes, captured.length < 16 →
            decodeFramePrefix codecs captured maxMessageBytes = .error .truncated :=
          fun captured hcaptured => by
            unfold decodeFramePrefix
            rw [if_pos hcaptured]
        rw [htruncated _ (by rw [List.length_take]; omega),
          htruncated _ (by rw [List.length_take]; omega)]
      · obtain ⟨requestId, hrequest⟩ := exists_readI32 header 4 (by omega)
        obtain ⟨responseTo, hresponse⟩ := exists_readI32 header 8 (by omega)
        have hdecoded : ∀ tail : Bytes, header.length + tail.length = 20 + sections.length →
            decodeFramePrefix codecs ((header ++ tail).take n) maxMessageBytes =
              if maxMessageBytes < 20 + sections.length then .error .frameTooLarge
              else decodeOpMsgPrefix requestId responseTo (20 + sections.length)
                (tail.take (n - 16)) := by
          intro tail htail
          have hlength : ((header ++ tail).take n).length = n := by
            rw [List.length_take, List.length_append]
            omega
          have hread : ∀ offset, offset + 4 ≤ 16 →
              readI32 ((header ++ tail).take n) offset = readI32 header offset := by
            intro offset hoffset
            rw [readI32_take (by omega), readI32_append tail (by omega)]
          have hdrop : ((header ++ tail).take n).drop 16 = tail.take (n - 16) := by
            rw [List.drop_take, ← hheader, List.drop_left]
          rw [decodeFramePrefix_opMsg (by omega) ((hread 0 (by omega)).trans hdeclared) (by omega)
            ((hread 4 (by omega)).trans hrequest) ((hread 8 (by omega)).trans hresponse)
            ((hread 12 (by omega)).trans hopcode), hdrop]
        rw [hdecoded _ (by rw [List.length_append]; omega),
          hdecoded _ (by rw [List.length_append]; omega)]
        split
        · rfl
        · exact decodeOpMsgPrefix_similar hflags hsections ..
    · have hread : ∀ tail : Bytes, readI32 (header ++ tail) 0 =
          .ok ((20 + sections.length : ℕ) : ℤ) := fun tail => by
        rw [readI32_append tail (by omega), hdeclared]
      rw [List.take_of_length_le (by omega), List.take_of_length_le (by omega),
        decodeFramePrefix_whole (by omega) (by rw [hread, htotal]),
        decodeFramePrefix_whole (by omega) (by rw [hread, ← hframes, htotal]), hwhole]

end

end MongoDam.Protocol
