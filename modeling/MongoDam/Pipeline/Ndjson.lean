import MongoDam.Observer.Batch
import MongoDam.Outpost.Acceptance
import MongoDam.Pipeline.ObjectKeys

/-!
# Reading the objects in S3

An object is a compressed text with a line for each event of a batch: the members of the
event behind those that say which batch it was exported in. Read line by line, an
object gives the events back, each with its batch, as long as no event is nested too deep
for the reader of documents.
-/

namespace MongoDam.Pipeline

open Lib Schema

/-! ### Lines -/

/-- Related elements are read one by one: all of them when each is good, and nothing else. -/
private theorem mapM_of_forall₂ {α β γ : Type} {read : β → Option γ} {Good : α → Prop}
    [DecidablePred Good] {value : α → γ} {elements : List α} {texts : List β}
    (h : List.Forall₂ (fun element text =>
      read text = if Good element then some (value element) else none) elements texts) :
    texts.mapM read =
      if ∀ element ∈ elements, Good element then some (elements.map value) else none := by
  induction h with
  | nil => simp
  | @cons element text elements texts hfirst _ ih =>
    rw [List.mapM_cons, hfirst, ih]
    simp only [List.forall_mem_cons]
    by_cases hgood : Good element
    · by_cases hrest : ∀ other ∈ elements, Good other
      · rw [if_pos hgood, if_pos hrest, if_pos ⟨hgood, hrest⟩]
        rfl
      · have hnot : ¬(Good element ∧ ∀ other ∈ elements, Good other) := fun hall => hrest hall.2
        rw [if_pos hgood, if_neg hrest, if_neg hnot]
        rfl
    · have hnot : ¬(Good element ∧ ∀ other ∈ elements, Good other) := fun hall => hgood hall.1
      rw [if_neg hgood, if_neg hnot]
      rfl

/-- The lines of a text in which each line ends in a newline. -/
def textLines (text : Bytes) : List Bytes := (text.splitOn 10).dropLast

theorem textLines_flatten {lines : List Bytes} (h : ∀ line ∈ lines, (10 : UInt8) ∉ line) :
    textLines (lines.map (· ++ [10])).flatten = lines := by
  unfold textLines
  have hsplit : (lines.map (· ++ [(10 : UInt8)])).flatten.splitOn 10 = lines ++ [[]] := by
    induction lines with
    | nil => rfl
    | cons line rest ih =>
      have hrest := ih fun other hother => h other (List.mem_cons_of_mem line hother)
      rw [List.map_cons, List.flatten_cons, List.append_assoc, List.singleton_append,
        List.splitOn_append_cons_self_of_not_mem (h line List.mem_cons_self), hrest]
      rfl
  rw [hsplit, List.dropLast_concat]

/-! ### Records -/

/-- An event, and the batch it was exported in. -/
structure S3NdjsonRecord where
  batchSchemaVersion : ℕ
  batchId : String
  batchCreatedAt : ℤ
  event : DamEvent
  deriving DecidableEq, Repr

namespace S3NdjsonRecord

/-- The members that tell the batch. -/
def batchMembers : List String := ["batch_schema_version", "batch_id", "batch_created_at"]

/-- Read a record: the members of its batch by their names, and the event from the others. -/
def read (serde : Serde) : JsonValue → Option S3NdjsonRecord
  | .object members => do
    let batchSchemaVersion ←
      (Codec.unsigned 16).read (← members.lookup "batch_schema_version")
    let batchId ← Codec.string.read (← members.lookup "batch_id")
    let batchCreatedAt ← (Codec.time serde).read (← members.lookup "batch_created_at")
    let event ← (DamEvent.codec serde).read
      (.object (members.filter fun member => decide (member.1 ∉ batchMembers)))
    return { batchSchemaVersion, batchId, batchCreatedAt, event }
  | _ => none

end S3NdjsonRecord

section Objects

variable (encoders : Encoders) (batch : DamBatch)

/-- The records of a batch, as they are read back. -/
def s3Records : List S3NdjsonRecord :=
  batch.events.map fun event =>
    { batchSchemaVersion := batch.schemaVersion
      batchId := batch.batchId
      batchCreatedAt := batch.createdAt
      event := (DamEvent.codec encoders.serde).reread event }

/-- Read an object line by line. -/
def readS3Ndjson (gunzip : Bytes → Bytes) (object : Bytes) : Option (List S3NdjsonRecord) :=
  (textLines (gunzip object)).mapM fun line =>
    (encoders.serde.fromSlice line).bind (S3NdjsonRecord.read encoders.serde)

variable {encoders batch} {event : DamEvent}

/-- The members of an event are others than those of its batch. -/
private theorem event_members {document : JsonValue}
    (h : (DamEvent.codec encoders.serde).write event = some document) :
    ∃ members, document = .object members ∧
      ∀ member ∈ members, member.1 ∉ S3NdjsonRecord.batchMembers := by
  obtain ⟨entries, hentries, rfl⟩ := Option.map_eq_some_iff.mp h
  have hkeys := Fields.keys_write _ hentries
  refine ⟨_, rfl, fun member hmember => ?_⟩
  obtain ⟨entry, hentry, hsome⟩ := List.mem_filterMap.mp hmember
  obtain ⟨value, -, rfl⟩ := Option.map_eq_some_iff.mp hsome
  have hkey := List.mem_map_of_mem (f := Prod.fst) hentry
  rw [hkeys] at hkey
  simp only [Fields.field, Fields.tagged, Fields.start, List.mem_append, List.mem_cons,
    List.not_mem_nil, or_false, false_or] at hkey
  simp only [S3NdjsonRecord.batchMembers, List.mem_cons, List.not_mem_nil, or_false]
  rintro (hname | hname | hname) <;> rw [hname] at hkey <;> simp at hkey

/-- A record is read back, and is nested as deep as its event. -/
private theorem read_s3NdjsonRecord {document : JsonValue}
    (h : s3NdjsonRecord encoders batch event = some document) :
    S3NdjsonRecord.read encoders.serde document =
        some ⟨batch.schemaVersion, batch.batchId, batch.createdAt,
          (DamEvent.codec encoders.serde).reread event⟩ ∧
      document.depth = (DamEvent.codec encoders.serde).depth event := by
  obtain ⟨version, hversion, h⟩ := Option.bind_eq_some_iff.mp h
  obtain ⟨createdAt, hcreatedAt, h⟩ := Option.bind_eq_some_iff.mp h
  obtain ⟨written, hwritten, h⟩ := Option.bind_eq_some_iff.mp h
  obtain ⟨members, rfl, hmembers⟩ := event_members hwritten
  cases h
  constructor
  · have hothers : (("batch_schema_version", version) :: ("batch_id", .string batch.batchId) ::
        ("batch_created_at", createdAt) :: members).filter
          (fun member => decide (member.1 ∉ S3NdjsonRecord.batchMembers)) = members := by
      have hkept : members.filter (fun member => decide (member.1 ∉ S3NdjsonRecord.batchMembers)) =
          members :=
        List.filter_eq_self.mpr fun member hmember => decide_eq_true (hmembers member hmember)
      simpa [S3NdjsonRecord.batchMembers] using hkept
    have hversionRead := (Codec.unsigned 16).read_write hversion
    have hcreatedAtRead := (Codec.time encoders.serde).read_write hcreatedAt
    have hread := (DamEvent.codec encoders.serde).read_write hwritten
    simp only [S3NdjsonRecord.read, hothers, List.lookup_cons_self, List.lookup_cons]
    simp only [hread]
    simp [hversionRead, hcreatedAtRead]
    rfl
  · have hdepth := (DamEvent.codec encoders.serde).depth_write hwritten
    rw [JsonValue.depth] at hdepth
    have hversionDepth := (Codec.unsigned 16).depth_write hversion
    have hcreatedAtDepth := (Codec.time encoders.serde).depth_write hcreatedAt
    rw [Codec.unsigned_depth] at hversionDepth
    rw [Codec.time_depth] at hcreatedAtDepth
    simp only [JsonValue.depth, JsonValue.depthMembers, hversionDepth, hcreatedAtDepth]
    omega

/-- The line of an event is read back exactly when the event is not nested too deep. -/
private theorem read_line {text : Bytes}
    (h : (s3NdjsonRecord encoders batch event).bind encoders.serde.toVec = some text) :
    (encoders.serde.fromSlice text).bind (S3NdjsonRecord.read encoders.serde) =
      if (DamEvent.codec encoders.serde).depth event ≤ encoders.serde.limit then
        some ⟨batch.schemaVersion, batch.batchId, batch.createdAt,
          (DamEvent.codec encoders.serde).reread event⟩
      else none := by
  obtain ⟨document, hdocument, htext⟩ := Option.bind_eq_some_iff.mp h
  obtain ⟨hread, hdepth⟩ := read_s3NdjsonRecord hdocument
  rw [encoders.serde.fromSlice_toVec htext, hdepth]
  split
  · exact hread
  · rfl

variable (encoders batch) in
/-- A text is the line of an event, before the line is ended. -/
private def LineOf (event : DamEvent) (text : Bytes) : Prop :=
  (s3NdjsonRecord encoders batch event).bind encoders.serde.toVec = some text

/-- The lines of some events, before they are compressed. -/
private theorem lines_of_events {events : List DamEvent} {lines : List Bytes}
    (h : events.mapM (fun event => do
      let text ← (s3NdjsonRecord encoders batch event).bind encoders.serde.toVec
      return text ++ toUtf8 "\n") = some lines) :
    ∃ texts : List Bytes, lines = texts.map (· ++ [10]) ∧
      (∀ text ∈ texts, ∃ event, LineOf encoders batch event text) ∧
      List.Forall₂ (LineOf encoders batch) events texts := by
  induction events generalizing lines with
  | nil =>
    cases h
    exact ⟨[], rfl, nofun, .nil⟩
  | cons event rest ih =>
    rw [List.mapM_cons] at h
    obtain ⟨line, hline, h⟩ := Option.bind_eq_some_iff.mp h
    obtain ⟨others, hothers, h⟩ := Option.bind_eq_some_iff.mp h
    obtain ⟨text, htext, hended⟩ := Option.bind_eq_some_iff.mp hline
    obtain ⟨texts, rfl, hwritten, htexts⟩ := ih hothers
    cases h
    cases hended
    exact ⟨text :: texts, rfl, List.forall_mem_cons.mpr ⟨⟨event, htext⟩, hwritten⟩,
      .cons htext htexts⟩

/-- An object is read back line by line, one record for each event of its batch in their order,
exactly when none of the events is nested too deep for the reader. -/
theorem readS3Ndjson_encode {gunzip : Bytes → Bytes} {object : Bytes}
    (hgunzip : ∀ text, encoders.gzip text = object → gunzip object = text)
    (hlines : ∀ document text, encoders.serde.toVec document = some text → (10 : UInt8) ∉ text)
    (h : encodeS3Ndjson encoders batch = some object) :
    readS3Ndjson encoders gunzip object =
      if ∀ event ∈ batch.events,
          (DamEvent.codec encoders.serde).depth event ≤ encoders.serde.limit then
        some (s3Records encoders batch)
      else none := by
  obtain ⟨lines, hwritten, h⟩ := Option.bind_eq_some_iff.mp h
  cases h
  obtain ⟨texts, rfl, htexts, hrelated⟩ := lines_of_events hwritten
  have hended : ∀ text ∈ texts, (10 : UInt8) ∉ text := by
    intro text htext
    obtain ⟨event, hline⟩ := htexts text htext
    obtain ⟨document, -, hdocument⟩ := Option.bind_eq_some_iff.mp hline
    exact hlines document text hdocument
  rw [readS3Ndjson, hgunzip _ rfl, textLines_flatten hended]
  apply mapM_of_forall₂
  exact hrelated.imp fun event text hline => read_line hline

end Objects

/-- A captured insert of an empty document, as Outpost spools it. -/
def spooledInsert : DamBatch :=
  Outpost.enrichBatch (.ofBatches [] [] List.nodup_nil) .sample .bare
    (Observer.epochBatch (Observer.nestedEvents 0))

/-- The record of that insert. -/
def insertRecord : JsonValue :=
  match spooledInsert.events with
  | [event] => (s3NdjsonRecord firstDayEncoders spooledInsert event).getD .null
  | _ => .null

/-- The line of that record. -/
def insertLine : Bytes := toUtf8 (insertRecord.render fun _ => "")

/-- The line, ended and compressed with gzip. -/
def insertObject : Bytes :=
  [31, 139, 8, 0, 0, 0, 0, 0, 0, 255, 133, 82, 219, 142, 155, 48, 16, 125, 239, 103, 248, 57,
   145, 128, 37, 33, 240, 29, 251, 212, 170, 178, 134, 97, 32, 214, 26, 219, 181, 77, 180, 40,
   202, 191, 119, 140, 73, 186, 149, 42, 21, 89, 178, 231, 118, 206, 153, 25, 238, 162, 135,
   136, 87, 25, 240, 74, 51, 200, 27, 249, 160, 172, 17, 93, 121, 216, 3, 106, 16, 93, 126, 30,
   105, 108, 155, 26, 8, 198, 246, 66, 21, 54, 109, 117, 41, 203, 183, 186, 224, 211, 183, 117,
   117, 170, 197, 179, 6, 61, 65, 164, 65, 66, 228, 218, 178, 109, 138, 99, 81, 242, 121, 47,
   138, 110, 59, 223, 57, 243, 31, 132, 116, 35, 19, 51, 33, 221, 226, 241, 130, 111, 88, 20,
   237, 185, 169, 218, 246, 114, 62, 87, 99, 223, 80, 121, 170, 11, 108, 177, 172, 78, 0, 12,
   98, 251, 64, 254, 246, 31, 166, 217, 26, 27, 173, 81, 40, 163, 154, 41, 68, 152, 157, 52, 97,
   99, 196, 37, 68, 59, 147, 207, 164, 200, 201, 145, 12, 60, 69, 196, 36, 211, 46, 30, 41, 219,
   129, 109, 79, 19, 203, 5, 45, 145, 180, 206, 110, 207, 110, 4, 23, 23, 79, 162, 187, 139, 64,
   38, 216, 29, 209, 112, 200, 216, 129, 164, 129, 153, 118, 59, 35, 38, 58, 77, 224, 35, 125,
   70, 25, 214, 128, 160, 117, 194, 177, 102, 84, 3, 153, 156, 96, 103, 167, 41, 82, 234, 129,
   34, 12, 16, 65, 90, 163, 87, 209, 141, 160, 3, 177, 88, 191, 24, 76, 147, 222, 61, 143, 131,
   248, 88, 122, 242, 134, 139, 66, 210, 130, 154, 27, 228, 246, 118, 250, 15, 193, 25, 206, 91,
   164, 176, 133, 93, 18, 217, 48, 206, 180, 63, 150, 116, 23, 7, 49, 237, 55, 78, 222, 46, 78,
   62, 45, 59, 207, 96, 82, 95, 9, 39, 111, 43, 174, 46, 33, 243, 140, 39, 59, 244, 18, 48, 170,
   155, 138, 43, 75, 30, 88, 178, 210, 89, 198, 171, 80, 25, 94, 88, 220, 26, 213, 154, 56, 57,
   173, 126, 27, 180, 243, 202, 160, 114, 60, 217, 43, 132, 235, 171, 165, 131, 248, 181, 144,
   95, 19, 202, 96, 113, 153, 153, 147, 33, 127, 220, 31, 63, 15, 79, 176, 84, 255, 72, 155,
   225, 204, 144, 87, 87, 254, 49, 251, 117, 155, 197, 185, 102, 197, 159, 142, 41, 131, 244,
   20, 156, 229, 218, 23, 69, 26, 52, 59, 195, 23, 86, 94, 132, 121, 234, 187, 127, 177, 246,
   189, 118, 13, 255, 92, 127, 125, 23, 238, 97, 228, 216, 145, 185, 99, 106, 59, 111, 228, 241,
   248, 246, 27, 48, 215, 253, 232, 99, 3, 0, 0]

/-- The text code for that record, with the parser's limit of 127 open containers, and gzip as far
as its line is concerned. -/
def insertEncoders : Encoders where
  serde := .ofDocument insertRecord 127
  gzip text := if text = insertLine ++ [10] then insertObject else []
  calendar _ := ⟨1970, 1, 1, 0⟩

/-- The decompression of that object. -/
def insertGunzip (object : Bytes) : Bytes :=
  if object = insertObject then insertLine ++ [10] else []

private theorem insertLine_one : (10 : UInt8) ∉ insertLine := by
  decide +kernel

private theorem spooledInsert_encoded :
    encodeS3Ndjson insertEncoders spooledInsert = some insertObject := by
  decide +kernel

private theorem spooledInsert_flat : ∀ event ∈ spooledInsert.events,
    (DamEvent.codec insertEncoders.serde).depth event ≤ insertEncoders.serde.limit := by
  decide +kernel

/-- The object of a captured insert is read back. -/
theorem insertBatch_object_read :
    encodeS3Ndjson insertEncoders spooledInsert = some insertObject ∧
      readS3Ndjson insertEncoders insertGunzip insertObject =
        some (s3Records insertEncoders spooledInsert) := by
  have hlines : ∀ document text, insertEncoders.serde.toVec document = some text →
      (10 : UInt8) ∉ text := by
    intro document text htext
    obtain ⟨-, htext⟩ := Option.ite_none_right_eq_some.mp htext
    cases htext
    exact insertLine_one
  have hgunzip : ∀ text, insertEncoders.gzip text = insertObject →
      insertGunzip insertObject = text := by
    intro text htext
    have hline : text = insertLine ++ [10] := by
      by_contra hother
      exact absurd ((if_neg hother).symm.trans htext) (List.cons_ne_nil _ _).symm
    rw [hline, insertGunzip, if_pos rfl]
  have hread := readS3Ndjson_encode hgunzip hlines spooledInsert_encoded
  rw [if_pos spooledInsert_flat] at hread
  exact ⟨spooledInsert_encoded, hread⟩

end MongoDam.Pipeline
