import MongoDam.Protocol.Encode
import MongoDam.Protocol.Frame
import MongoDam.Protocol.Locality

/-!
# Queries of captured beginnings

A frame captured in part is decoded from its body document alone: a body that is cut
reports no query, and a complete body reports its own JSON form. Decoding the whole
frame also merges the document sequences behind the body, so the two queries agree
exactly when the sequences add nothing. The sections of a frame are laid out here
independently of what is decoded from them.
-/

namespace MongoDam.Protocol

open Lib

/-- The place of one section: its kind, and the range of its bytes. -/
structure OpMsgSection where
  kind : UInt8
  start : ℕ
  stop : ℕ
  deriving DecidableEq, Repr

/-- The sections from an offset on. A section is a kind byte and a size prefix that
counts everything behind the kind byte. -/
def opMsgLayout (payload : Bytes) (stop offset : ℕ) : List OpMsgSection :=
  if offset < stop then
    match payload[offset]?, readI32 payload (offset + 1) with
    | some kind, .ok size =>
      if 5 ≤ size ∧ offset + 1 + size.toNat ≤ stop then
        ⟨kind, offset, offset + 1 + size.toNat⟩ ::
          opMsgLayout payload stop (offset + 1 + size.toNat)
      else []
    | _, _ => []
  else []
termination_by stop - offset

/-- The sections of an `OP_MSG` frame, as ranges of the bytes behind its header. -/
def frameSections (frame : Bytes) : List OpMsgSection :=
  match readU32 (frame.drop 16) 0 with
  | .ok flags => opMsgLayout (frame.drop 16) (sectionsEnd flags (frame.drop 16).length) 4
  | .error _ => []

/-- The document sequence of a kind 1 section, when all its documents convert. -/
def sequenceOf (payload : Bytes) (place : OpMsgSection) : Option (String × List JsonValue) :=
  if place.kind = 1 then
    match readCstring payload (place.start + 5) with
    | .error _ => none
    | .ok (identifier, documentsStart) =>
      match sliceBson payload documentsStart place.stop >>= bsonDocumentSequenceToJson with
      | .error _ => none
      | .ok values => some (identifier, values)
  else none

/-- The section is a document sequence of delete statements. -/
def isDeletesSequence (payload : Bytes) (place : OpMsgSection) : Bool :=
  place.kind = 1 ∧ (readCstring payload (place.start + 5)).toOption.map Prod.fst = some "deletes"

/-- Some document sequence of the frame holds delete statements. -/
def HasDeletesSequence (frame : Bytes) : Prop :=
  ∃ place ∈ frameSections frame, isDeletesSequence (frame.drop 16) place = true

/-- The document sequences of a frame. -/
def frameSequences (frame : Bytes) : List (String × List JsonValue) :=
  (frameSections frame).filterMap (sequenceOf (frame.drop 16))

/-- Where the first section of a frame ends. -/
def bodyEnd (frame : Bytes) : ℕ :=
  match frameSections frame with
  | body :: _ => 16 + body.stop
  | [] => 16

/-- The document of the first section. -/
def bodyDocument (frame : Bytes) : Bytes := (frame.drop 21).take (bodyEnd frame - 21)

/-- The first key of a document, which lies behind the length prefix and the first
element type. -/
def documentFirstKey (document : Bytes) : Option String :=
  (readCstring document 5).toOption.map Prod.fst

/-- The JSON form of a captured command's document, by its first key. -/
def capturedQuery (document : Bytes) : Option JsonValue :=
  if (documentFirstKey document).any (fun name => commandCapturesQuery (toAsciiLowercase name)) then
    (bsonDocumentToJson document).toOption
  else none

/-- Some document sequence of the frame does not end within its first `n` bytes. -/
def CutsSequence (frame : Bytes) (n : ℕ) : Prop :=
  ∃ place ∈ frameSections frame, place.kind = 1 ∧ n < 16 + place.stop

/-- The query of the captured beginning is none or the whole frame's query, and it is
none when the body is complete but a document sequence is cut off. -/
def NoPartialQuery (frame : Bytes) (n : ℕ) (whole : DecodedMessage) (command : MongoCommand) :
    Prop :=
  (command.query = none ∨ whole.command.map (·.query) = some command.query) ∧
    (bodyEnd frame ≤ n → CutsSequence frame n → command.query = none)

/-- The body is cut, or it is no captured command, or the document sequences are all
captured and stand in the body already. -/
def SequencesAddNothing (frame : Bytes) (n : ℕ) : Prop :=
  n < bodyEnd frame ∨
    match capturedQuery (bodyDocument frame) with
    | some (.object members) =>
      ¬CutsSequence frame n ∧ insertSequences members (frameSequences frame) = members
    | _ => True

instance (frame : Bytes) (n : ℕ) : Decidable (CutsSequence frame n) :=
  inferInstanceAs (Decidable (∃ place ∈ frameSections frame, place.kind = 1 ∧ n < 16 + place.stop))

instance (frame : Bytes) (n : ℕ) (whole : DecodedMessage) (command : MongoCommand) :
    Decidable (NoPartialQuery frame n whole command) :=
  inferInstanceAs (Decidable ((_ ∨ _) ∧ (_ → _ → _)))

/-! ### Fields that elements do not touch -/

private theorem recordField_keeps (nested : Option (Bytes → Except DecodeError BsonSummary))
    (document : Bytes) (elementType : UInt8) (key : String) (valueStart : ℕ) (next : Option ℕ)
    (summary : BsonSummary) :
    (recordField nested document elementType key valueStart next summary).firstKey =
        summary.firstKey ∧
      (recordField nested document elementType key valueStart next summary).query =
        summary.query := by
  unfold recordField
  repeat' split
  all_goals exact ⟨rfl, rfl⟩

private theorem recordElement_query (nested : Option (Bytes → Except DecodeError BsonSummary))
    (document : Bytes) (ordinal : ℕ) (elementType : UInt8) (key : String) (valueStart : ℕ)
    (next : Option ℕ) (summary : BsonSummary) :
    (recordElement nested document ordinal elementType key valueStart next summary).query =
      summary.query := by
  unfold recordElement
  rw [(recordField_keeps ..).2]
  unfold recordFirst
  split <;> rfl

theorem recordElement_firstKey (nested : Option (Bytes → Except DecodeError BsonSummary))
    (document : Bytes) (ordinal : ℕ) (elementType : UInt8) (key : String) (valueStart : ℕ)
    (next : Option ℕ) (summary : BsonSummary) :
    (recordElement nested document ordinal elementType key valueStart next summary).firstKey =
      if ordinal = 0 then some key else summary.firstKey := by
  unfold recordElement
  rw [(recordField_keeps ..).1]
  unfold recordFirst
  split <;> rfl

private theorem summarizeLoop_keeps {nested : Option (Bytes → Except DecodeError BsonSummary)}
    {document : Bytes} {offset ordinal : ℕ} {summary result : BsonSummary}
    (h : summarizeLoop nested document offset ordinal summary = .ok result) :
    result.query = summary.query ∧ (ordinal ≠ 0 → result.firstKey = summary.firstKey) := by
  fun_induction summarizeLoop nested document offset ordinal summary with
  | case1 => cases h
  | case2 => cases h
  | case3 => cases h
  | case4 offset ordinal summary hlt key afterKey hkey next hskip hnext ih =>
    obtain ⟨hquery, hfirst⟩ := ih h
    rw [recordElement_query] at hquery
    rw [recordElement_firstKey] at hfirst
    refine ⟨hquery, fun hordinal => ?_⟩
    rw [hfirst (by omega), if_neg hordinal]
  | case5 offset ordinal summary hend =>
    have hresult := Except.ok.inj h
    subst hresult
    exact ⟨rfl, fun _ => rfl⟩

private theorem summarizePrefixLoop_query (document : Bytes) (availableEnd offset ordinal : ℕ)
    (summary : BsonSummary) :
    (summarizePrefixLoop document availableEnd offset ordinal summary).query = summary.query := by
  fun_induction summarizePrefixLoop document availableEnd offset ordinal summary with
  | case1 => rfl
  | case2 => rfl
  | case3 => exact recordElement_query ..
  | case4 _ _ _ _ _ _ _ _ _ _ _ _ ih => rw [ih, recordElement_query]
  | case5 => exact recordElement_query ..
  | case6 => rfl

theorem readCstring_of_length_le {bytes : Bytes} {offset : ℕ} (h : bytes.length ≤ offset) :
    readCstring bytes offset = .error .invalidBson := by
  cases hread : readCstring bytes offset with
  | error e =>
    unfold readCstring at hread
    repeat' split at hread
    all_goals first | exact hread.symm | cases hread
  | ok result =>
    have := readCstring_lt hread
    omega

private theorem summarizeLoop_firstKey {nested : Option (Bytes → Except DecodeError BsonSummary)}
    {document : Bytes} {result : BsonSummary}
    (h : summarizeLoop nested document 4 0 {} = .ok result) :
    result.firstKey = documentFirstKey document := by
  unfold documentFirstKey
  rw [summarizeLoop] at h
  split at h
  · split at h
    · cases h
    · rename_i key afterKey hkey
      rw [hkey]
      split at h
      · cases h
      · split at h
        · cases h
        · rw [(summarizeLoop_keeps h).2 (by omega), recordElement_firstKey]
          rfl
  · have hresult := Except.ok.inj h
    subst hresult
    rw [readCstring_of_length_le (by omega)]
    rfl

theorem summarizeWith_eq_ok {nested : Option (Bytes → Except DecodeError BsonSummary)}
    {document : Bytes} {summary : BsonSummary} (h : summarizeWith nested document = .ok summary) :
    isContainer document = true ∧ ∃ result, summarizeLoop nested document 4 0 {} = .ok result ∧
      summary = attachQuery document result := by
  unfold summarizeWith at h
  split at h
  · rename_i hcontainer
    refine ⟨hcontainer, ?_⟩
    cases hloop : summarizeLoop nested document 4 0 {} with
    | error e =>
      rw [hloop] at h
      cases h
    | ok result =>
      rw [hloop] at h
      exact ⟨result, rfl, (Except.ok.inj h).symm⟩
  · cases h

/-- The summary of a complete document has the first key and the query of the document. -/
theorem summarizeBson_query {document : Bytes} {summary : BsonSummary}
    (h : summarizeBson document = .ok summary) :
    capturesQuery summary = (documentFirstKey document).any
        (fun name => commandCapturesQuery (toAsciiLowercase name)) ∧
      summary.query = capturedQuery document := by
  obtain ⟨-, result, hloop, rfl⟩ := summarizeWith_eq_ok h
  have hfirst := summarizeLoop_firstKey hloop
  have hcaptures : capturesQuery result = (documentFirstKey document).any
      (fun name => commandCapturesQuery (toAsciiLowercase name)) := by
    rw [capturesQuery, hfirst]
    cases documentFirstKey document <;> rfl
  have hquery := (summarizeLoop_keeps hloop).1
  unfold attachQuery capturedQuery
  rw [← hcaptures]
  split
  · exact ⟨rfl, rfl⟩
  · exact ⟨rfl, hquery⟩

/-- A document becomes an object. -/
private theorem bsonElementsToJson_object {document : Bytes} {array : Bool} {offset : ℕ}
    {object : List (String × JsonValue)} {values : List JsonValue} {value : JsonValue}
    (harray : array = false)
    (h : bsonElementsToJson document array offset object values = .ok value) :
    ∃ members, value = .object members := by
  fun_induction bsonElementsToJson document array offset object values with
  | case1 => cases h
  | case2 => cases h
  | case3 => cases h
  | case4 => cases harray
  | case5 _ _ _ _ _ _ _ _ _ _ _ _ _ _ _ ih => exact ih harray h
  | case6 =>
    rw [harray] at h
    exact ⟨_, (Except.ok.inj h).symm⟩

/-- A captured query is an object. -/
theorem capturedQuery_object {document : Bytes} {value : JsonValue}
    (h : capturedQuery document = some value) : ∃ members, value = .object members := by
  unfold capturedQuery at h
  split at h
  · cases hjson : bsonDocumentToJson document with
    | error e =>
      rw [hjson] at h
      cases h
    | ok json =>
      rw [hjson] at h
      obtain rfl := Option.some.inj h
      unfold bsonDocumentToJson bsonContainerToJson at hjson
      split at hjson
      · exact bsonElementsToJson_object rfl hjson
      · cases hjson
  · cases h

/-! ### Sections -/

theorem pushSequence_eq (payload : Bytes) {offset stop documentsStart : ℕ}
    {identifier : String} {documents : Bytes} (sequences : List (String × List JsonValue))
    (hkey : readCstring payload (offset + 1 + 4) = .ok (identifier, documentsStart))
    (hslice : sliceBson payload documentsStart stop = .ok documents) :
    pushSequence identifier documents sequences =
      sequences ++ (sequenceOf payload ⟨1, offset, stop⟩).toList := by
  unfold sequenceOf pushSequence
  rw [if_pos rfl]
  dsimp only
  rw [show offset + 5 = offset + 1 + 4 by omega, hkey]
  dsimp only
  rw [hslice]
  dsimp only [bind, Except.bind]
  cases bsonDocumentSequenceToJson documents with
  | error e => simp
  | ok values => rfl

theorem opMsgLayout_cons {payload : Bytes} {stop offset : ℕ} {kind : UInt8} {size : ℤ}
    (hoffset : offset < stop) (hkind : payload[offset]? = some kind)
    (hsize : readI32 payload (offset + 1) = .ok size) (hleast : ¬size < 5)
    (hstop : ¬stop < offset + 1 + size.toNat) :
    opMsgLayout payload stop offset = ⟨kind, offset, offset + 1 + size.toNat⟩ ::
      opMsgLayout payload stop (offset + 1 + size.toNat) := by
  rw [opMsgLayout, if_pos hoffset, hkind, hsize]
  dsimp only
  rw [if_pos (by omega)]

private theorem isDeletesSequence_of_key {payload : Bytes} {offset stop documentsStart : ℕ}
    {identifier : String}
    (hkey : readCstring payload (offset + 1 + 4) = .ok (identifier, documentsStart))
    (hdeletes : identifier = "deletes") : isDeletesSequence payload ⟨1, offset, stop⟩ = true := by
  unfold isDeletesSequence
  rw [show offset + 5 = offset + 1 + 4 by omega, hkey, hdeletes]
  rfl

/-- The section loop keeps the first body and collects the sequences in their order. It
counts delete statements in a sequence of them only. -/
theorem opMsgSectionsLoop_layout {payload : Bytes} {stop offset : ℕ}
    {sections result : OpMsgSections}
    (h : opMsgSectionsLoop payload stop offset sections = .ok result) :
    result.documentSequences = sections.documentSequences ++
        (opMsgLayout payload stop offset).filterMap (sequenceOf payload) ∧
      (∀ summary, sections.summary = some summary → result.summary = some summary) ∧
      (result.deleteSequence = sections.deleteSequence ∨
        ∃ place ∈ opMsgLayout payload stop offset, isDeletesSequence payload place = true) := by
  fun_induction opMsgSectionsLoop payload stop offset sections with
  | case5 offset sections hoffset hkind size hsize hleast hstop _ _ ih =>
    rw [opMsgLayout_cons hoffset hkind hsize hleast hstop]
    obtain ⟨hsequences, hsummary, hdeletes⟩ := ih h
    exact ⟨hsequences, hsummary, hdeletes.imp_right fun ⟨place, hmem, h⟩ =>
      ⟨place, List.mem_cons_of_mem _ hmem, h⟩⟩
  | case7 offset sections hoffset hkind size hsize hleast hstop hnone _ _ ih =>
    rw [opMsgLayout_cons hoffset hkind hsize hleast hstop]
    obtain ⟨hsequences, -, hdeletes⟩ := ih h
    refine ⟨hsequences, fun summary hsummary => ?_,
      hdeletes.imp_right fun ⟨place, hmem, h⟩ => ⟨place, List.mem_cons_of_mem _ hmem, h⟩⟩
    rw [hnone] at hsummary
    cases hsummary
  | case15 offset sections hoffset hkind size hsize hleast hstop _ _ _ hslice _ _ hkey ih =>
    rw [opMsgLayout_cons hoffset hkind hsize hleast hstop]
    obtain ⟨hsequences, hsummary, -⟩ := ih h
    rw [pushSequence_eq payload _ hkey hslice] at hsequences
    refine ⟨?_, hsummary,
      Or.inr ⟨_, List.mem_cons_self .., isDeletesSequence_of_key hkey rfl⟩⟩
    rw [hsequences, List.append_assoc, List.filterMap_cons]
    cases sequenceOf payload ⟨1, offset, offset + 1 + size.toNat⟩ <;> rfl
  | case16 offset sections hoffset hkind size hsize hleast hstop _ _ hkey _ _ hslice _ ih =>
    rw [opMsgLayout_cons hoffset hkind hsize hleast hstop]
    obtain ⟨hsequences, hsummary, hdeletes⟩ := ih h
    rw [pushSequence_eq payload _ hkey hslice] at hsequences
    refine ⟨?_, hsummary, hdeletes.imp_right fun ⟨place, hmem, h⟩ =>
      ⟨place, List.mem_cons_of_mem _ hmem, h⟩⟩
    rw [hsequences, List.append_assoc, List.filterMap_cons]
    cases sequenceOf payload ⟨1, offset, offset + 1 + size.toNat⟩ <;> rfl
  | case18 offset sections hend =>
    obtain rfl := Except.ok.inj h
    rw [opMsgLayout, if_neg hend]
    exact ⟨(List.append_nil _).symm, fun _ hsummary => hsummary, Or.inl rfl⟩
  | _ => cases h

/-- What a decoded message consists of. -/
theorem decodeOpMsg_eq_ok {requestId responseTo : ℤ} {wireBytes : ℕ} {payload : Bytes}
    {compressed : Bool} {message : DecodedMessage}
    (h : decodeOpMsg requestId responseTo wireBytes payload compressed = .ok message) :
    ∃ flags sections summary, readU32 payload 0 = .ok flags ∧
      opMsgSectionsLoop payload (sectionsEnd flags payload.length) 4 {} = .ok sections ∧
      sections.summary = some summary ∧
      message = opMsgMessage requestId responseTo wireBytes flags compressed
        (mergeSequences sections.documentSequences
          (overrideDeletes sections.deleteSequence summary)) := by
  unfold decodeOpMsg at h
  split at h
  · cases h
  · split at h
    · cases h
    · rename_i flags hflags
      by_cases hshort : payload.length < 4 + (if flags % 2 = 1 then 4 else 0)
      · rw [if_pos hshort] at h
        cases h
      · rw [if_neg hshort] at h
        split at h
        · cases h
        · rename_i sections hloop
          unfold OpMsgSections.message at h
          split at h
          · cases h
          · rename_i summary hsummary
            exact ⟨flags, sections, summary, hflags, hloop, hsummary, (Except.ok.inj h).symm⟩

/-- What the decoded beginning of a message consists of. -/
theorem decodeOpMsgPrefix_eq_ok {requestId responseTo : ℤ} {declared : ℕ} {payload : Bytes}
    {message : DecodedMessage}
    (h : decodeOpMsgPrefix requestId responseTo declared payload = .ok message) :
    6 ≤ payload.length ∧ payload[4]? = some 0 ∧ ∃ flags summary,
      readU32 payload 0 = .ok flags ∧ summarizeBsonPrefix (payload.drop 5) = .ok summary ∧
      message = opMsgMessage requestId responseTo declared flags false summary := by
  unfold decodeOpMsgPrefix at h
  split at h
  · cases h
  · split at h
    · cases h
    · cases h
    · rename_i flags kind hflags hkind
      split at h
      · cases h
      · rename_i hzero
        split at h
        · cases h
        · rename_i summary hsummary
          exact ⟨by omega, by rw [hkind, Decidable.not_not.mp hzero], flags, summary, hflags,
            hsummary, (Except.ok.inj h).symm⟩

/-- A message that starts with its body: the body's place, and the loop behind it. -/
private theorem opMsgSectionsLoop_body {payload : Bytes} {stop : ℕ} {result : OpMsgSections}
    {summary : BsonSummary} (hkind : payload[4]? = some 0)
    (h : opMsgSectionsLoop payload stop 4 {} = .ok result)
    (hsummary : result.summary = some summary) :
    ∃ size : ℤ, readI32 payload 5 = .ok size ∧ 5 ≤ size ∧ 5 + size.toNat ≤ stop ∧
      (sliceBson payload 5 (5 + size.toNat) >>= summarizeBson) = .ok summary ∧
      opMsgLayout payload stop 4 =
        ⟨0, 4, 5 + size.toNat⟩ :: opMsgLayout payload stop (5 + size.toNat) := by
  revert h
  fun_cases opMsgSectionsLoop payload stop 4 {} with
  | case7 hoffset _ size hsize hleast hstop _ body hbody =>
    intro h
    have hkept := (opMsgSectionsLoop_layout h).2.1 body rfl
    rw [hsummary] at hkept
    obtain rfl := Option.some.inj hkept
    exact ⟨size, hsize, by omega, by omega, hbody,
      opMsgLayout_cons hoffset hkind hsize hleast hstop⟩
  | case18 =>
    intro h
    obtain rfl := Except.ok.inj h
    cases hsummary
  | case15 _ hone => exact absurd (hkind.symm.trans hone) (by decide)
  | case16 _ hone => exact absurd (hkind.symm.trans hone) (by decide)
  | case5 _ _ _ _ _ _ _ hnone => cases hnone
  | _ => exact fun h => nomatch h

/-- The beginning of a document: its summary has no query when the document is cut,
and is the whole document's summary otherwise. -/
theorem summarizeBsonPrefix_eq_ok {document : Bytes} {summary : BsonSummary}
    (h : summarizeBsonPrefix document = .ok summary) :
    4 ≤ document.length ∧ ∀ size, readI32 document 0 = .ok size →
      if size.toNat ≤ document.length then summarizeBson (document.take size.toNat) = .ok summary
      else summary.query = none := by
  unfold summarizeBsonPrefix at h
  split at h
  · cases h
  · refine ⟨by omega, fun size hsize => ?_⟩
    rw [hsize] at h
    dsimp only at h
    split at h
    · cases h
    · split at h
      · rename_i hcomplete
        rw [if_pos hcomplete]
        exact h
      · rename_i hcut
        rw [if_neg hcut]
        split at h
        · cases h
        · rw [← Except.ok.inj h, summarizePrefixLoop_query]

/-- Merging the sequences changes the query of a captured command only. -/
theorem mergeSequences_query (sequences : List (String × List JsonValue))
    (deleteSequence : Option (Option DeleteScope × ℕ)) {document : Bytes} {summary : BsonSummary}
    (h : summarizeBson document = .ok summary) :
    (mergeSequences sequences (overrideDeletes deleteSequence summary)).query =
      match capturedQuery document with
      | some (.object members) => some (.object (insertSequences members sequences))
      | other => other := by
  obtain ⟨hcaptures, hquery⟩ := summarizeBson_query h
  have hkeeps : capturesQuery (overrideDeletes deleteSequence summary) = capturesQuery summary ∧
      (overrideDeletes deleteSequence summary).query = summary.query := by
    unfold overrideDeletes
    split <;> exact ⟨rfl, rfl⟩
  unfold mergeSequences
  rw [hkeeps.1, hkeeps.2, hquery]
  cases hcaptured : capturedQuery document with
  | none =>
    have hnone := hkeeps.2.trans (hquery.trans hcaptured)
    split <;> exact hnone
  | some value =>
    obtain ⟨members, rfl⟩ := capturedQuery_object hcaptured
    have hcapture : capturesQuery summary = true := by
      rw [hcaptures]
      unfold capturedQuery at hcaptured
      split at hcaptured
      · assumption
      · cases hcaptured
    rw [if_pos hcapture]

/-! ### Queries of a frame and of its beginning -/

theorem commandFromSummary_query {summary : BsonSummary} {command : MongoCommand}
    (h : commandFromSummary summary = some command) : command.query = summary.query := by
  unfold commandFromSummary at h
  cases hfirst : summary.firstKey with
  | none =>
    rw [hfirst] at h
    cases h
  | some name =>
    rw [hfirst] at h
    rw [← Option.some.inj h]

private theorem commandFromSummary_isSome (summary : BsonSummary) :
    (commandFromSummary summary).isSome = summary.firstKey.isSome := by
  unfold commandFromSummary
  rw [Option.isSome_map]

theorem mergeSequences_firstKey (sequences : List (String × List JsonValue))
    (deleteSequence : Option (Option DeleteScope × ℕ)) (summary : BsonSummary) :
    (mergeSequences sequences (overrideDeletes deleteSequence summary)).firstKey =
      summary.firstKey := by
  unfold mergeSequences overrideDeletes
  repeat' split
  all_goals rfl

section

variable {codecs : Decompressors} {frame : Bytes} {maxMessageBytes n : ℕ}
  {whole part : DecodedMessage} {command : MongoCommand}

/-- A frame and its beginning are decoded from the same header. -/
theorem opMsg_decodings (hopcode : readI32 frame 12 = .ok OP_MSG)
    (hwhole : decodeFrame codecs frame maxMessageBytes = .ok whole) (hcut : n < frame.length)
    (hpart : decodeFramePrefix codecs (frame.take n) maxMessageBytes = .ok part) :
    16 ≤ n ∧ ∃ requestId responseTo,
      decodeOpMsg requestId responseTo frame.length (frame.drop 16) false = .ok whole ∧
      decodeOpMsgPrefix requestId responseTo frame.length ((frame.drop 16).take (n - 16)) =
        .ok part := by
  obtain ⟨hlength, hdeclared, hlimit⟩ := decodeFrame_length hwhole
  obtain ⟨requestId, hrequest⟩ := exists_readI32 frame 4 (by omega)
  obtain ⟨responseTo, hresponse⟩ := exists_readI32 frame 8 (by omega)
  have htake : (frame.take n).length = n := by
    rw [List.length_take]
    omega
  have hn : 16 ≤ n := by
    unfold decodeFramePrefix at hpart
    split at hpart
    · cases hpart
    · omega
  have hheader : ∀ offset, offset + 4 ≤ 16 → readI32 (frame.take n) offset = readI32 frame offset :=
    fun offset hoffset => readI32_take (by omega)
  rw [decodeFrame_opMsg hlength hdeclared hrequest hresponse hopcode, if_neg (by omega)] at hwhole
  rw [decodeFramePrefix_opMsg (by omega) ((hheader 0 (by omega)).trans hdeclared) (by omega)
    ((hheader 4 (by omega)).trans hrequest) ((hheader 8 (by omega)).trans hresponse)
    ((hheader 12 (by omega)).trans hopcode), if_neg (by omega), List.drop_take] at hpart
  exact ⟨hn, requestId, responseTo, hwhole, hpart⟩

/-- A decoded frame that starts with its body: where the body ends, its summary, and
the sequences behind it. -/
theorem decodeOpMsg_body {requestId responseTo : ℤ}
    (h : decodeOpMsg requestId responseTo frame.length (frame.drop 16) false = .ok whole)
    (hkind : (frame.drop 16)[4]? = some 0) :
    ∃ (size : ℤ) (flags : ℕ) (deletes : Option (Option DeleteScope × ℕ)) (summary : BsonSummary),
      readI32 (frame.drop 16) 5 = .ok size ∧ bodyEnd frame = 21 + size.toNat ∧
      bodyEnd frame ≤ frame.length ∧ summarizeBson (bodyDocument frame) = .ok summary ∧
      readU32 (frame.drop 16) 0 = .ok flags ∧ (deletes = none ∨ HasDeletesSequence frame) ∧
      whole = opMsgMessage requestId responseTo frame.length flags false
        (mergeSequences (frameSequences frame) (overrideDeletes deletes summary)) := by
  obtain ⟨flags, sections, summary, hflags, hloop, hsummary, rfl⟩ := decodeOpMsg_eq_ok h
  obtain ⟨size, hsize, hleast, hstop, hbody, hlayout⟩ := opMsgSectionsLoop_body hkind hloop hsummary
  have hsections : frameSections frame =
      opMsgLayout (frame.drop 16) (sectionsEnd flags (frame.drop 16).length) 4 := by
    unfold frameSections
    rw [hflags]
  have hend : bodyEnd frame = 21 + size.toNat := by
    unfold bodyEnd
    rw [hsections, hlayout]
    dsimp only
    omega
  have hdocument : ((frame.drop 16).drop 5).take size.toNat = bodyDocument frame := by
    unfold bodyDocument
    rw [hend, List.drop_drop, Nat.add_sub_cancel_left]
  obtain ⟨hcollected, -, hdeletes⟩ := opMsgSectionsLoop_layout hloop
  rw [← hsections] at hcollected hdeletes
  have hsequences : sections.documentSequences = frameSequences frame := hcollected
  have hinside : bodyEnd frame ≤ frame.length := by
    unfold sectionsEnd at hstop
    rw [List.length_drop] at hstop
    omega
  have hsummarized : summarizeBson (bodyDocument frame) = .ok summary := by
    unfold sectionsEnd at hstop
    unfold sliceBson at hbody
    rw [slice?_eq_some (by omega) (by omega), Nat.add_sub_cancel_left, hdocument] at hbody
    exact hbody
  exact ⟨size, flags, sections.deleteSequence, summary, hsize, hend, hinside, hsummarized, hflags,
    hdeletes, by rw [hsequences]⟩

/-- The query of a captured beginning is that of the body when the body is complete,
and the whole frame's query is that of the body with the sequences merged into it. -/
private theorem prefix_queries (hopcode : readI32 frame 12 = .ok OP_MSG)
    (hwhole : decodeFrame codecs frame maxMessageBytes = .ok whole) (hcut : n < frame.length)
    (hpart : decodeFramePrefix codecs (frame.take n) maxMessageBytes = .ok part)
    (hcommand : part.command = some command) :
    if bodyEnd frame ≤ n then
      command.query = capturedQuery (bodyDocument frame) ∧
        whole.command.map (·.query) = some (match capturedQuery (bodyDocument frame) with
          | some (.object members) =>
            some (.object (insertSequences members (frameSequences frame)))
          | other => other)
    else command.query = none := by
  obtain ⟨hn, requestId, responseTo, hwhole, hpart⟩ :=
    opMsg_decodings hopcode hwhole hcut hpart
  obtain ⟨hsix, hkind, flags', summary', -, hbody, rfl⟩ := decodeOpMsgPrefix_eq_ok hpart
  rw [List.length_take] at hsix
  rw [List.getElem?_take, if_pos (by omega)] at hkind
  obtain ⟨size, flags, deletes, summary, hsize, hend, -, hsummarized, -, -, rfl⟩ :=
    decodeOpMsg_body hwhole hkind
  -- only a request has a command
  have hrequest : responseTo = 0 := by
    by_cases hresponse : responseTo = 0
    · exact hresponse
    · simp only [opMsgMessage, if_neg hresponse] at hcommand
      cases hcommand
  subst hrequest
  have hquery : command.query = summary'.query := commandFromSummary_query hcommand
  rw [List.drop_take] at hbody
  obtain ⟨hfour, hcases⟩ := summarizeBsonPrefix_eq_ok hbody
  have hdeclared : readI32 (((frame.drop 16).drop 5).take (n - 16 - 5)) 0 = .ok size := by
    rw [readI32_take (by omega), readI32_drop (by omega), hsize]
  have hpart := hcases size hdeclared
  simp only [List.length_take, List.length_drop] at hpart hsix
  by_cases hcomplete : bodyEnd frame ≤ n
  · rw [if_pos (by omega), List.take_take, Nat.min_eq_left (by omega)] at hpart
    have hdocument : ((frame.drop 16).drop 5).take size.toNat = bodyDocument frame := by
      unfold bodyDocument
      rw [hend, List.drop_drop, Nat.add_sub_cancel_left]
    rw [hdocument, hsummarized] at hpart
    obtain rfl := Except.ok.inj hpart
    rw [if_pos hcomplete, hquery, (summarizeBson_query hsummarized).2]
    refine ⟨rfl, ?_⟩
    have hsome : (commandFromSummary (mergeSequences (frameSequences frame)
        (overrideDeletes deletes summary))).isSome := by
      rw [commandFromSummary_isSome, mergeSequences_firstKey, ← commandFromSummary_isSome]
      exact Option.isSome_iff_exists.mpr ⟨command, hcommand⟩
    obtain ⟨merged, hmerged⟩ := Option.isSome_iff_exists.mp hsome
    have hcommandWhole : (opMsgMessage requestId 0 frame.length flags false
        (mergeSequences (frameSequences frame) (overrideDeletes deletes summary))).command =
          some merged := hmerged
    rw [hcommandWhole, Option.map_some, commandFromSummary_query hmerged,
      mergeSequences_query _ _ hsummarized]
  · rw [if_neg hcomplete, hquery]
    rw [if_neg (by omega)] at hpart
    exact hpart

/-- The query of a captured beginning is never partial exactly when the body is cut, or
is no captured command, or no sequence is cut off and the sequences add nothing to it. -/
theorem noPartialQuery_iff (hopcode : readI32 frame 12 = .ok OP_MSG)
    (hwhole : decodeFrame codecs frame maxMessageBytes = .ok whole) (hcut : n < frame.length)
    (hpart : decodeFramePrefix codecs (frame.take n) maxMessageBytes = .ok part)
    (hcommand : part.command = some command) :
    NoPartialQuery frame n whole command ↔ SequencesAddNothing frame n := by
  have hqueries := prefix_queries hopcode hwhole hcut hpart hcommand
  unfold NoPartialQuery SequencesAddNothing
  by_cases hcomplete : bodyEnd frame ≤ n
  · rw [if_pos hcomplete] at hqueries
    obtain ⟨hquery, hmerged⟩ := hqueries
    rw [hquery, hmerged]
    cases hcaptured : capturedQuery (bodyDocument frame) with
    | none => simp
    | some value =>
      obtain ⟨members, rfl⟩ := capturedQuery_object hcaptured
      simp [hcomplete, Nat.not_lt.mpr hcomplete, and_comm]
  · rw [if_neg hcomplete] at hqueries
    simp [hqueries, Nat.lt_of_not_le hcomplete]

end

/-- An insert of one document, which stands in a document sequence. -/
def insertFrame : Bytes :=
  encodeOpMsg 1 0 0 (encodeBody (encodeString "insert" "t" ++ encodeString "$db" "d") ++
    encodeSequence "documents" [encodeDocument (encodeInt32 "a" 1)])

/-- The command of `insertFrame` with a given query. -/
def insertCommand (query : Option JsonValue) : MongoCommand where
  name := "insert"
  database := some "d"
  collection := some "t"
  query

/-- The message of `insertFrame` with a given query. -/
def insertMessage (query : Option JsonValue) : DecodedMessage where
  requestId := 1
  responseTo := 0
  wireBytes := 78
  flags := 0
  moreToCome := false
  compressed := false
  command := some (insertCommand query)
  status := none

/-- The query of the whole insert. -/
def insertQuery : JsonValue :=
  .object [("$db", .string "d"), ("documents", .array [.object [("a", .number (.int 1))]]),
    ("insert", .string "t")]

/-- Cut inside its body, the insert reports no query. -/
theorem insertFrame_cut_body :
    decodeFramePrefix .rejecting (insertFrame.take 50) 1000 = .ok (insertMessage none) ∧
      NoPartialQuery insertFrame 50 (insertMessage (some insertQuery)) (insertCommand none) := by
  have hpart :
      decodeFramePrefix .rejecting (insertFrame.take 50) 1000 = .ok (insertMessage none) := by
    decide +kernel
  refine ⟨hpart, ?_⟩
  have hopcode : readI32 insertFrame 12 = .ok OP_MSG := by decide +kernel
  have hwhole : decodeFrame .rejecting insertFrame 1000 =
      .ok (insertMessage (some insertQuery)) := by
    decide +kernel
  have hiff := noPartialQuery_iff hopcode hwhole (by decide +kernel) hpart rfl
  exact hiff.mpr (Or.inl (by decide +kernel))

/-- Cut inside the sequence, the insert reports a query without its documents. -/
theorem insertFrame_cut_sequence :
    readI32 insertFrame 12 = .ok OP_MSG ∧ 60 < insertFrame.length ∧
      decodeFrame .rejecting insertFrame 1000 = .ok (insertMessage (some insertQuery)) ∧
      decodeFramePrefix .rejecting (insertFrame.take 60) 1000 =
        .ok (insertMessage (some (.object [("$db", .string "d"), ("insert", .string "t")]))) ∧
      ¬NoPartialQuery insertFrame 60 (insertMessage (some insertQuery))
        (insertCommand (some (.object [("$db", .string "d"), ("insert", .string "t")]))) := by
  decide +kernel

end MongoDam.Protocol
