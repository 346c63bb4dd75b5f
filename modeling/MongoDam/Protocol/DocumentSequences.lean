import Mathlib.Data.List.Nodup
import MongoDam.Protocol.Convertible
import MongoDam.Protocol.Payloads
import MongoDam.Protocol.PrefixQuery

/-!
# Document sequences in queries

A captured command's query is the JSON form of its body, with the document sequences of
the message inserted under their identifiers. A sequence is left out when one of its
documents does not convert, and the query does not tell. The sections of a message and
the documents of a section are laid out here by their length prefixes alone, for plain
and for compressed frames.
-/

namespace MongoDam.Protocol

open Lib

/-! ### Messages and their sequences -/

/-- The sections of a message. -/
def payloadSections (payload : Bytes) : List OpMsgSection :=
  match readU32 payload 0 with
  | .ok flags => opMsgLayout payload (sectionsEnd flags payload.length) 4
  | .error _ => []

/-- The document of the first kind 0 section. -/
def payloadBody (payload : Bytes) : Bytes :=
  match (payloadSections payload).find? (·.kind = 0) with
  | some place => (payload.drop (place.start + 1)).take (place.stop - (place.start + 1))
  | none => []

/-- The identifier of a kind 1 section and the bytes of its documents. -/
def sequenceBytes (payload : Bytes) (place : OpMsgSection) : Option (String × Bytes) :=
  if place.kind = 1 then
    match readCstring payload (place.start + 5) with
    | .error _ => none
    | .ok (identifier, documentsStart) =>
      (sliceBson payload documentsStart place.stop).toOption.map (identifier, ·)
  else none

/-- The kind 1 sections of a message. -/
def payloadSequences (payload : Bytes) : List (String × Bytes) :=
  (payloadSections payload).filterMap (sequenceBytes payload)

/-- The documents from an offset on, by their length prefixes. -/
def documentsFrom (documents : Bytes) (offset : ℕ) : Option (List Bytes) :=
  if offset < documents.length then
    match readI32 documents offset with
    | .error _ => none
    | .ok length =>
      if length < 5 ∨ documents.length < offset + length.toNat then none
      else
        (documentsFrom documents (offset + length.toNat)).map
          ((documents.drop offset).take length.toNat :: ·)
  else some []
termination_by documents.length - offset

/-- Every document sequence stands in the query under its identifier, as the array of the JSON
forms of its documents. -/
def CompleteQuery (payload : Bytes) (query : JsonValue) : Prop :=
  ∀ place ∈ payloadSections payload, place.kind = 1 →
    ∃ identifier bytes documents entries members,
      sequenceBytes payload place = some (identifier, bytes) ∧
      documentsFrom bytes 0 = some documents ∧
      documents.mapM bsonDocumentToJson = .ok entries ∧
      query = .object members ∧ members.lookup identifier = some (.array entries)

/-- The sequences consist of documents that convert. -/
def SequencesConvert (payload : Bytes) : Prop :=
  ∀ sequence ∈ payloadSequences payload, ∃ documents,
    documentsFrom sequence.2 0 = some documents ∧ ∀ document ∈ documents, Convertible document

/-! ### Documents of a sequence -/

private theorem mapM_cons_eq_ok {α β ε : Type} {f : α → Except ε β} {a : α} {rest : List α}
    {values : List β} :
    (a :: rest).mapM f = .ok values ↔
      ∃ value others, f a = .ok value ∧ rest.mapM f = .ok others ∧ values = value :: others := by
  rw [List.mapM_cons]
  cases f a with
  | error e => exact iff_of_false nofun nofun
  | ok value =>
    cases rest.mapM f with
    | error e => exact iff_of_false nofun nofun
    | ok others =>
      constructor
      · rintro ⟨⟩
        exact ⟨value, others, rfl, rfl, rfl⟩
      · rintro ⟨_, _, ⟨⟩, ⟨⟩, rfl⟩
        rfl

/-- All documents convert when each one does. -/
private theorem exists_mapM_iff {α β ε : Type} {f : α → Except ε β} {values : List α} :
    (∃ results, values.mapM f = .ok results) ↔ ∀ a ∈ values, ∃ b, f a = .ok b := by
  induction values with
  | nil => exact iff_of_true ⟨[], rfl⟩ nofun
  | cons a rest ih =>
    rw [List.forall_mem_cons, ← ih]
    constructor
    · rintro ⟨results, h⟩
      obtain ⟨value, others, hvalue, hothers, -⟩ := mapM_cons_eq_ok.mp h
      exact ⟨⟨value, hvalue⟩, others, hothers⟩
    · rintro ⟨⟨value, hvalue⟩, others, hothers⟩
      exact ⟨_, mapM_cons_eq_ok.mpr ⟨value, others, hvalue, hothers, rfl⟩⟩

/-- A sequence of documents becomes the list of their JSON forms. -/
theorem documentSequenceLoop_eq_ok_iff {documents : Bytes} {offset : ℕ}
    {result values : List JsonValue} :
    documentSequenceLoop documents offset result = .ok values ↔
      ∃ parts entries, documentsFrom documents offset = some parts ∧
        parts.mapM bsonDocumentToJson = .ok entries ∧ values = result ++ entries := by
  fun_induction documentsFrom documents offset generalizing result with
  | case1 offset hoffset e hlength =>
    rw [documentSequenceLoop, if_pos hoffset, hlength]
    exact iff_of_false (by simp) (by simp)
  | case2 offset hoffset length hlength hlong =>
    rw [documentSequenceLoop, if_pos hoffset, hlength]
    refine iff_of_false ?_ (by simp)
    dsimp only
    split
    · simp
    · rw [if_pos (by omega)]
      simp
  | case3 offset hoffset length hlength hlong ih =>
    rw [documentSequenceLoop, if_pos hoffset, hlength]
    dsimp only
    rw [if_neg (by omega), if_neg (by omega), sliceBson_eq_ok.mpr ⟨by omega, by omega, rfl⟩,
      Nat.add_sub_cancel_left]
    rw [show ((.ok ((documents.drop offset).take length.toNat) : Except DecodeError Bytes) >>=
      bsonDocumentToJson) = bsonDocumentToJson ((documents.drop offset).take length.toNat) from rfl]
    cases hvalue : bsonDocumentToJson ((documents.drop offset).take length.toNat) with
    | error e =>
      refine iff_of_false (by simp) ?_
      rintro ⟨parts, entries, hparts, hentries, -⟩
      obtain ⟨rest, -, rfl⟩ := Option.map_eq_some_iff.mp hparts
      obtain ⟨other, -, hother, -⟩ := mapM_cons_eq_ok.mp hentries
      cases hvalue.symm.trans hother
    | ok value =>
      dsimp only
      rw [ih]
      constructor
      · rintro ⟨parts, entries, hparts, hentries, rfl⟩
        exact ⟨_, value :: entries, by rw [hparts]; rfl,
          mapM_cons_eq_ok.mpr ⟨value, entries, hvalue, hentries, rfl⟩,
          by rw [List.append_assoc]; rfl⟩
      · rintro ⟨parts, entries, hparts, hentries, rfl⟩
        obtain ⟨rest, hrest, rfl⟩ := Option.map_eq_some_iff.mp hparts
        obtain ⟨other, others, hother, hothers, rfl⟩ := mapM_cons_eq_ok.mp hentries
        cases hvalue.symm.trans hother
        exact ⟨rest, others, hrest, hothers, by rw [List.append_assoc]; rfl⟩
  | case4 offset hend =>
    rw [documentSequenceLoop, if_neg hend]
    constructor
    · rintro ⟨⟩
      exact ⟨[], [], rfl, rfl, (List.append_nil _).symm⟩
    · rintro ⟨_, _, ⟨⟩, ⟨⟩, rfl⟩
      exact congrArg _ (List.append_nil _).symm

/-! ### Lookups -/

/-- Identifiers that no sequence has keep their value. -/
private theorem lookup_insertSequences_of_notMem {identifier : String}
    {sequences : List (String × List JsonValue)} (members : List (String × JsonValue))
    (h : identifier ∉ sequences.map Prod.fst) :
    (insertSequences members sequences).lookup identifier = members.lookup identifier := by
  induction sequences generalizing members with
  | nil => rfl
  | cons first rest ih =>
    rw [List.map_cons, List.mem_cons, not_or] at h
    change (insertSequences (JsonValue.insertMember first.1 (.array first.2) members) rest).lookup
      identifier = _
    rw [ih _ h.2, JsonValue.lookup_insertMember, if_neg h.1]

/-- Of distinct identifiers, each is found with its own sequence. -/
private theorem lookup_insertSequences {identifier : String} {values : List JsonValue}
    {sequences : List (String × List JsonValue)} (members : List (String × JsonValue))
    (hnodup : (sequences.map Prod.fst).Nodup) (h : (identifier, values) ∈ sequences) :
    (insertSequences members sequences).lookup identifier = some (.array values) := by
  induction sequences generalizing members with
  | nil => cases h
  | cons first rest ih =>
    obtain ⟨hfresh, hrest⟩ := List.nodup_cons.mp hnodup
    change (insertSequences (JsonValue.insertMember first.1 (.array first.2) members) rest).lookup
      identifier = _
    rcases List.mem_cons.mp h with rfl | hmem
    · rw [lookup_insertSequences_of_notMem _ hfresh, JsonValue.lookup_insertMember, if_pos rfl]
    · exact ih _ hrest hmem

/-- Entries that keep their keys keep the order of their keys. -/
private theorem filterMap_keys_sublist {α β : Type} {f : String × α → Option (String × β)}
    (hf : ∀ entry result, f entry = some result → result.1 = entry.1)
    (entries : List (String × α)) :
    ((entries.filterMap f).map Prod.fst).Sublist (entries.map Prod.fst) := by
  induction entries with
  | nil => exact .slnil
  | cons entry rest ih =>
    rw [List.filterMap_cons, List.map_cons]
    cases hentry : f entry with
    | none => exact ih.cons _
    | some result =>
      rw [List.map_cons, hf entry result hentry]
      exact ih.cons_cons _

/-- The sequences of a message are those whose documents convert. -/
private theorem sequenceOf_eq (payload : Bytes) (place : OpMsgSection) :
    sequenceOf payload place = (sequenceBytes payload place).bind fun sequence =>
      (bsonDocumentSequenceToJson sequence.2).toOption.map (sequence.1, ·) := by
  unfold sequenceOf sequenceBytes
  split
  · cases readCstring payload (place.start + 5) with
    | error e => rfl
    | ok key =>
      dsimp only
      cases sliceBson payload key.2 place.stop with
      | error e => rfl
      | ok bytes =>
        rw [show ((.ok bytes : Except DecodeError Bytes) >>= bsonDocumentSequenceToJson) =
          bsonDocumentSequenceToJson bytes from rfl]
        cases hvalues : bsonDocumentSequenceToJson bytes <;> simp [Except.toOption, hvalues]
  · rfl

/-! ### Sections -/

private theorem sequenceBytes_kind {payload : Bytes} {place : OpMsgSection}
    {sequence : String × Bytes} (h : sequenceBytes payload place = some sequence) :
    place.kind = 1 := by
  unfold sequenceBytes at h
  split at h
  · assumption
  · cases h

private theorem sequenceBytes_eq {payload bytes : Bytes} {offset stop documentsStart : ℕ}
    {identifier : String}
    (hkey : readCstring payload (offset + 1 + 4) = .ok (identifier, documentsStart))
    (hslice : sliceBson payload documentsStart stop = .ok bytes) :
    sequenceBytes payload ⟨1, offset, stop⟩ = some (identifier, bytes) := by
  unfold sequenceBytes
  rw [if_pos rfl]
  dsimp only
  rw [show offset + 5 = offset + 1 + 4 by omega, hkey]
  dsimp only
  rw [hslice]
  rfl

/-- The section loop takes the first body, and every kind 1 section it passes has an identifier
and documents. -/
theorem opMsgSectionsLoop_parts {payload : Bytes} {stop offset : ℕ}
    {sections result : OpMsgSections}
    (h : opMsgSectionsLoop payload stop offset sections = .ok result) :
    (∀ summary, sections.summary = none → result.summary = some summary →
        ∃ place, (opMsgLayout payload stop offset).find? (·.kind = 0) = some place ∧
          (sliceBson payload (place.start + 1) place.stop >>= summarizeBson) = .ok summary) ∧
      ∀ place ∈ opMsgLayout payload stop offset, place.kind = 1 →
        ∃ identifier bytes, sequenceBytes payload place = some (identifier, bytes) := by
  fun_induction opMsgSectionsLoop payload stop offset sections with
  | case5 offset sections hoffset hkind size hsize hleast hstop _ hsome ih =>
    rw [opMsgLayout_cons hoffset hkind hsize hleast hstop]
    refine ⟨fun _ hnone => (by cases hnone.symm.trans hsome), ?_⟩
    exact List.forall_mem_cons.mpr ⟨fun h => absurd h (by decide : (0 : UInt8) ≠ 1), (ih h).2⟩
  | case7 offset sections hoffset hkind size hsize hleast hstop _ body hbody ih =>
    rw [opMsgLayout_cons hoffset hkind hsize hleast hstop]
    refine ⟨fun summary _ hsummary => ?_,
      List.forall_mem_cons.mpr ⟨fun h => absurd h (by decide : (0 : UInt8) ≠ 1), (ih h).2⟩⟩
    have hkept := (opMsgSectionsLoop_layout h).2.1 body rfl
    cases hkept.symm.trans hsummary
    exact ⟨_, List.find?_cons_of_pos rfl, hbody⟩
  | case15 offset sections hoffset hkind size hsize hleast hstop _ _ _ hslice _ _ hkey ih =>
    rw [opMsgLayout_cons hoffset hkind hsize hleast hstop]
    refine ⟨fun summary hnone hsummary => ?_, List.forall_mem_cons.mpr
      ⟨fun _ => ⟨_, _, sequenceBytes_eq hkey hslice⟩, (ih h).2⟩⟩
    rw [List.find?_cons_of_neg (by simp)]
    exact (ih h).1 summary hnone hsummary
  | case16 offset sections hoffset hkind size hsize hleast hstop _ _ hkey _ _ hslice _ ih =>
    rw [opMsgLayout_cons hoffset hkind hsize hleast hstop]
    refine ⟨fun summary hnone hsummary => ?_, List.forall_mem_cons.mpr
      ⟨fun _ => ⟨_, _, sequenceBytes_eq hkey hslice⟩, (ih h).2⟩⟩
    rw [List.find?_cons_of_neg (by simp)]
    exact (ih h).1 summary hnone hsummary
  | case18 offset sections hend =>
    obtain rfl := Except.ok.inj h
    rw [opMsgLayout, if_neg hend]
    exact ⟨fun _ hnone hsome => (by cases hnone.symm.trans hsome), by simp⟩
  | _ => cases h

/-! ### Queries of messages -/

section Queries

variable {codecs : Decompressors} {frame payload : Bytes} {maxMessageBytes : ℕ}
  {whole : DecodedMessage} {command : MongoCommand} {query : JsonValue}

/-- A reported query is the JSON form of the body with the sequences that convert. -/
theorem decodeOpMsg_query {requestId responseTo : ℤ} {wireBytes : ℕ} {compressed : Bool}
    (h : decodeOpMsg requestId responseTo wireBytes payload compressed = .ok whole)
    (hcommand : whole.command = some command) (hquery : command.query = some query) :
    (∃ members, bsonDocumentToJson (payloadBody payload) = .ok (.object members) ∧
        query = .object
          (insertSequences members ((payloadSections payload).filterMap (sequenceOf payload)))) ∧
      ∀ place ∈ payloadSections payload, place.kind = 1 →
        ∃ identifier bytes, sequenceBytes payload place = some (identifier, bytes) := by
  obtain ⟨flags, sections, summary, hflags, hloop, hsummary, rfl⟩ := decodeOpMsg_eq_ok h
  have hsections : payloadSections payload =
      opMsgLayout payload (sectionsEnd flags payload.length) 4 := by
    unfold payloadSections
    rw [hflags]
  obtain ⟨hbody, hsequences⟩ := opMsgSectionsLoop_parts hloop
  rw [← hsections] at hbody hsequences
  refine ⟨?_, hsequences⟩
  obtain ⟨place, hplace, hslice⟩ := hbody summary rfl hsummary
  have hdocument : summarizeBson (payloadBody payload) = .ok summary := by
    unfold payloadBody
    rw [hplace]
    cases hbytes : sliceBson payload (place.start + 1) place.stop with
    | error e =>
      rw [hbytes] at hslice
      cases hslice
    | ok bytes =>
      rw [hbytes] at hslice
      dsimp only
      rw [(sliceBson_eq_ok.mp hbytes).2.2]
      exact hslice
  have hmerged := (opMsgSectionsLoop_layout hloop).1
  change sections.documentSequences = [] ++ _ at hmerged
  rw [List.nil_append, ← hsections] at hmerged
  have hfound : command.query = (mergeSequences sections.documentSequences
      (overrideDeletes sections.deleteSequence summary)).query := by
    change (if responseTo = 0 then commandFromSummary _ else none) = some command at hcommand
    split at hcommand
    · exact commandFromSummary_query hcommand
    · cases hcommand
  rw [hquery, mergeSequences_query _ _ hdocument, hmerged] at hfound
  cases hcaptured : capturedQuery (payloadBody payload) with
  | none =>
    rw [hcaptured] at hfound
    cases hfound
  | some value =>
    obtain ⟨members, rfl⟩ := capturedQuery_object hcaptured
    rw [hcaptured] at hfound
    refine ⟨members, ?_, Option.some.inj hfound⟩
    unfold capturedQuery at hcaptured
    split at hcaptured
    · cases hjson : bsonDocumentToJson (payloadBody payload) with
      | error e =>
        rw [hjson] at hcaptured
        cases hcaptured
      | ok value =>
        rw [hjson] at hcaptured
        rw [Option.some.inj hcaptured]
    · cases hcaptured

/-- Under a sequence's identifier, the query has the JSON forms of its documents, or nothing when
one of them does not convert. -/
theorem lookup_sequence {members : List (String × JsonValue)} {identifier : String} {bytes : Bytes}
    (hbody : bsonDocumentToJson (payloadBody payload) = .ok (.object members))
    (hnodup : ((payloadSequences payload).map Prod.fst).Nodup)
    (hfresh : ∀ sequence ∈ payloadSequences payload,
      sequence.1 ∉ (documentElements (payloadBody payload)).map Element.key)
    (hmem : (identifier, bytes) ∈ payloadSequences payload) :
    (insertSequences members ((payloadSections payload).filterMap (sequenceOf payload))).lookup
        identifier =
      (bsonDocumentSequenceToJson bytes).toOption.map JsonValue.array := by
  have hsequences : (payloadSections payload).filterMap (sequenceOf payload) =
      (payloadSequences payload).filterMap fun sequence =>
        (bsonDocumentSequenceToJson sequence.2).toOption.map (sequence.1, ·) := by
    unfold payloadSequences
    rw [List.filterMap_filterMap, funext (sequenceOf_eq payload)]
  have hkeeps : ∀ (entry : String × Bytes) result,
      (bsonDocumentSequenceToJson entry.2).toOption.map (entry.1, ·) = some result →
        result.1 = entry.1 := by
    intro entry result h
    obtain ⟨values, -, rfl⟩ := Option.map_eq_some_iff.mp h
    rfl
  rw [hsequences]
  cases hvalues : bsonDocumentSequenceToJson bytes with
  | error e =>
    rw [lookup_insertSequences_of_notMem]
    · -- neither the body nor another sequence has the identifier
      refine List.lookup_eq_none_iff.mpr fun member hmember => ?_
      have hkey := bsonDocumentToJson_keys hbody member hmember
      exact bne_iff_ne.mpr fun heq => hfresh _ hmem (heq ▸ hkey)
    · intro hin
      obtain ⟨entry, hentry, hsame⟩ := List.mem_map.mp hin
      obtain ⟨sequence, hsequence, hresult⟩ := List.mem_filterMap.mp hentry
      have hidentifier := (hkeeps sequence entry hresult).symm.trans hsame
      have heq := List.inj_on_of_nodup_map hnodup hsequence hmem hidentifier
      rw [heq, hvalues] at hresult
      cases hresult
  | ok values =>
    refine lookup_insertSequences members (hnodup.sublist (filterMap_keys_sublist hkeeps _)) ?_
    exact List.mem_filterMap.mpr ⟨_, hmem, by rw [hvalues]; rfl⟩

/-- A reported query contains every document sequence exactly when all their documents convert. -/
theorem completeQuery_iff (hpayload : framePayload codecs OP_MSG frame = some payload)
    (hwhole : decodeFrame codecs frame maxMessageBytes = .ok whole)
    (hcommand : whole.command = some command) (hquery : command.query = some query)
    (hnodup : ((payloadSequences payload).map Prod.fst).Nodup)
    (hfresh : ∀ sequence ∈ payloadSequences payload,
      sequence.1 ∉ (documentElements (payloadBody payload)).map Element.key) :
    CompleteQuery payload query ↔ SequencesConvert payload := by
  obtain ⟨requestId, responseTo, -, -, hdecoded⟩ :=
    decodeFrame_payload (by decide) hpayload hwhole
  obtain ⟨⟨members, hbody, rfl⟩, hparts⟩ := decodeOpMsg_query hdecoded hcommand hquery
  constructor
  · rintro hcomplete ⟨identifier, bytes⟩ hmem
    obtain ⟨place, hplace, hbytes⟩ := List.mem_filterMap.mp hmem
    obtain ⟨other, others, documents, entries, -, hsame, hdocuments, hentries, -⟩ :=
      hcomplete place hplace (sequenceBytes_kind hbytes)
    cases hbytes.symm.trans hsame
    refine ⟨documents, hdocuments, fun document hdocument => ?_⟩
    exact (convertible_iff document false).mpr
      (exists_mapM_iff.mp ⟨entries, hentries⟩ document hdocument)
  · intro hconvert place hplace hkind
    obtain ⟨identifier, bytes, hbytes⟩ := hparts place hplace hkind
    have hmem : (identifier, bytes) ∈ payloadSequences payload :=
      List.mem_filterMap.mpr ⟨place, hplace, hbytes⟩
    obtain ⟨documents, hdocuments, hall⟩ := hconvert _ hmem
    obtain ⟨entries, hentries⟩ := exists_mapM_iff.mpr fun document hdocument =>
      (convertible_iff document false).mp (hall document hdocument)
    have hvalues : bsonDocumentSequenceToJson bytes = .ok entries :=
      documentSequenceLoop_eq_ok_iff.mpr ⟨documents, entries, hdocuments, hentries, rfl⟩
    refine ⟨identifier, bytes, documents, entries, _, hbytes, hdocuments, hentries, rfl, ?_⟩
    rw [lookup_sequence hbody hnodup hfresh hmem, hvalues]
    rfl

end Queries

/-- The query of the insert contains its documents. -/
theorem insertFrame_query_complete : CompleteQuery (insertFrame.drop 16) insertQuery := by
  have hpayload : framePayload .rejecting OP_MSG insertFrame = some (insertFrame.drop 16) := by
    decide +kernel
  have hwhole : decodeFrame .rejecting insertFrame 1000 =
      .ok (insertMessage (some insertQuery)) := by
    decide +kernel
  have hsequences : payloadSequences (insertFrame.drop 16) =
      [("documents", encodeDocument (encodeInt32 "a" 1))] := by
    decide +kernel
  have hkeys : "documents" ∉ (documentElements (payloadBody (insertFrame.drop 16))).map
      Element.key := by
    decide +kernel
  have hdocuments : documentsFrom (encodeDocument (encodeInt32 "a" 1)) 0 =
      some [encodeDocument (encodeInt32 "a" 1)] := by
    decide +kernel
  have hjson : bsonContainerToJson (encodeDocument (encodeInt32 "a" 1)) false =
      .ok (.object [("a", .number (.int 1))]) := by
    decide +kernel
  refine (completeQuery_iff hpayload hwhole rfl rfl ?_ ?_).mpr ?_
  · rw [hsequences]
    decide
  · rw [hsequences]
    exact List.forall_mem_singleton.mpr hkeys
  · unfold SequencesConvert
    rw [hsequences]
    refine List.forall_mem_singleton.mpr ⟨_, hdocuments, List.forall_mem_singleton.mpr ?_⟩
    exact (convertible_iff _ false).mpr ⟨_, hjson⟩

/-- An insert of one document that holds code with an empty scope. -/
def scopeFrame : Bytes :=
  encodeOpMsg 1 0 0 (encodeBody (encodeString "insert" "t" ++ encodeString "$db" "d") ++
    encodeSequence "documents" [encodeDocument (encodeElement 0x0f "f"
      (leBytes 4 14 ++ leBytes 4 1 ++ [0] ++ encodeDocument []))])

/-- The query of the insert lacks its documents. -/
theorem scopeFrame_query_incomplete :
    ∃ whole command query, framePayload .rejecting OP_MSG scopeFrame = some (scopeFrame.drop 16) ∧
      decodeFrame .rejecting scopeFrame 1000 = .ok whole ∧ whole.command = some command ∧
      command.query = some query ∧
      (payloadSequences (scopeFrame.drop 16)).map Prod.fst = ["documents"] ∧
      "documents" ∉ (documentElements (payloadBody (scopeFrame.drop 16))).map Element.key ∧
      query = .object [("$db", .string "d"), ("insert", .string "t")] ∧
      ¬CompleteQuery (scopeFrame.drop 16) query := by
  have hwhole : decodeFrame .rejecting scopeFrame 1000 =
      .ok { insertMessage (some (.object [("$db", .string "d"), ("insert", .string "t")])) with
        wireBytes := 88 } := by
    decide +kernel
  refine ⟨_, _, _, by decide +kernel, hwhole, rfl, rfl, by decide +kernel, by decide +kernel, rfl,
    fun hcomplete => ?_⟩
  have hplace : (⟨1, 35, 72⟩ : OpMsgSection) ∈ payloadSections (scopeFrame.drop 16) := by
    decide +kernel
  have hidentifier : (sequenceBytes (scopeFrame.drop 16) ⟨1, 35, 72⟩).map Prod.fst =
      some "documents" := by
    decide +kernel
  obtain ⟨identifier, bytes, documents, entries, members, hbytes, -, -, hquery, hlookup⟩ :=
    hcomplete _ hplace rfl
  rw [hbytes] at hidentifier
  cases hidentifier
  cases hquery
  cases hlookup

end MongoDam.Protocol
