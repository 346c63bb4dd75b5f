import MongoDam.Protocol.MissedFields

/-!
# Legacy replies and their beginnings

A legacy reply tells its outcome twice, by the flags of its header and by its first
document, and the header stands in where the document tells nothing. A document that is
cut before its `ok` is therefore reported with the outcome of the header, which need not
be the outcome of the whole reply.
-/

namespace MongoDam.Protocol

open Lib

/-! ### Parts of a reply -/

/-- The first document of a reply's payload, when the decoder reads one. -/
def replyDocument (payload : Bytes) : Option Bytes :=
  if (readI32 payload 16).toOption.any (0 < ·) ∧ 20 < payload.length then
    (legacyDocument payload 20).toOption
  else none

theorem replyDocument_eq {payload : Bytes} {returned : ℤ}
    (hreturned : readI32 payload 16 = .ok returned) :
    replyDocument payload =
      if 0 < returned ∧ 20 < payload.length then
        (legacyDocument payload 20).toOption
      else none := by
  unfold replyDocument
  rw [hreturned]
  simp [Except.toOption]

/-- The outcome by the flags of a reply's payload: neither failure flag is set. -/
def headerOk (payload : Bytes) : Bool := (readU32 payload 0).toOption.any (· % 4 = 0)

/-- A document of a payload starts at its offset and lies inside. -/
private theorem legacyDocument_eq_ok {payload document : Bytes} {offset : ℕ}
    (h : legacyDocument payload offset = .ok document) :
    document = (payload.drop offset).take document.length ∧
      offset + document.length ≤ payload.length := by
  unfold legacyDocument at h
  split at h
  · cases h
  · split at h
    · cases h
    · have hlength := sliceBson_length h
      obtain ⟨-, hinside, hbytes⟩ := sliceBson_eq_ok.mp h
      rw [Nat.add_sub_cancel_left] at hlength hbytes
      rw [hlength]
      exact ⟨hbytes.symm, hinside⟩

/-- The document of a reply follows the header. -/
theorem replyDocument_eq_some {payload document : Bytes}
    (h : replyDocument payload = some document) :
    document = (payload.drop 20).take document.length ∧
      20 + document.length ≤ payload.length := by
  unfold replyDocument at h
  split at h
  · cases hdocument : legacyDocument payload 20 with
    | error e =>
      rw [hdocument] at h
      cases h
    | ok value =>
      rw [hdocument] at h
      obtain rfl := Option.some.inj h
      exact legacyDocument_eq_ok hdocument
  · cases h

theorem decodeFrame_opReply {codecs : Decompressors} {frame : Bytes} {maxMessageBytes : ℕ}
    {requestId responseTo : ℤ} (hlength : 16 ≤ frame.length)
    (hdeclared : readI32 frame 0 = .ok (frame.length : ℤ))
    (hlimit : frame.length ≤ maxMessageBytes) (hrequest : readI32 frame 4 = .ok requestId)
    (hresponse : readI32 frame 8 = .ok responseTo) (hopcode : readI32 frame 12 = .ok OP_REPLY) :
    decodeFrame codecs frame maxMessageBytes =
      decodeOpReply requestId responseTo frame.length (frame.drop 16) false := by
  unfold decodeFrame
  rw [if_neg (by omega), hdeclared, hrequest, hresponse, hopcode]
  dsimp only [bind, Except.bind]
  rw [if_neg (by omega), if_neg (by omega), if_neg (by decide), if_neg (by decide), if_pos rfl]

theorem decodeFramePrefix_opReply {codecs : Decompressors} {captured : Bytes}
    {maxMessageBytes declared : ℕ} {requestId responseTo : ℤ} (hlength : 16 ≤ captured.length)
    (hdeclared : readI32 captured 0 = .ok (declared : ℤ)) (hcut : captured.length < declared)
    (hlimit : declared ≤ maxMessageBytes) (hrequest : readI32 captured 4 = .ok requestId)
    (hresponse : readI32 captured 8 = .ok responseTo)
    (hopcode : readI32 captured 12 = .ok OP_REPLY) :
    decodeFramePrefix codecs captured maxMessageBytes =
      decodeOpReplyPrefix requestId responseTo declared (captured.drop 16) := by
  unfold decodeFramePrefix
  rw [if_neg (by omega), hdeclared, hrequest, hresponse, hopcode]
  dsimp only [bind, Except.bind]
  rw [if_neg (by omega), Int.toNat_natCast, if_neg (by omega), if_neg (by omega),
    if_neg (by decide), if_neg (by decide), if_neg (by decide), if_pos rfl]

/-! ### What replies tell -/

section Payloads

variable {requestId responseTo : ℤ} {wireBytes m : ℕ} {payload : Bytes} {compressed : Bool}
  {whole part : DecodedMessage}

/-- A decoded reply has the outcome of its header and what its first document tells. -/
theorem decodeOpReply_eq_ok
    (h : decodeOpReply requestId responseTo wireBytes payload compressed = .ok whole) :
    20 ≤ payload.length ∧ ∃ flags returned summary, readU32 payload 0 = .ok flags ∧
      readI32 payload 16 = .ok returned ∧
      ((replyDocument payload).isSome ↔ 0 < returned ∧ 20 < payload.length) ∧
      (replyDocument payload).mapM summarizeBson = .ok summary ∧
      whole = decodedOpReply requestId responseTo wireBytes flags summary compressed := by
  unfold decodeOpReply at h
  split at h
  · cases h
  · rename_i hlength
    refine ⟨by omega, ?_⟩
    obtain ⟨returned, hreturned⟩ := exists_readI32 payload 16 (by omega)
    rw [replyDocument_eq hreturned]
    rw [hreturned] at h
    cases hflags : readU32 payload 0 with
    | error e =>
      rw [hflags] at h
      cases h
    | ok flags =>
      rw [hflags] at h
      dsimp only [bind, Except.bind] at h
      by_cases hreads : 0 < returned ∧ 20 < payload.length
      · rw [if_pos hreads] at h
        rw [if_pos hreads]
        cases hdocument : legacyDocument payload 20 with
        | error e =>
          rw [hdocument] at h
          cases h
        | ok document =>
          rw [hdocument] at h
          dsimp only at h
          cases hsummary : summarizeBson document with
          | error e =>
            rw [hsummary] at h
            cases h
          | ok summary =>
            rw [hsummary] at h
            refine ⟨flags, returned, some summary, rfl, hreturned, iff_of_true rfl hreads, ?_,
              (Except.ok.inj h).symm⟩
            change Option.mapM summarizeBson (some document) = _
            rw [Option.mapM_some, hsummary]
            rfl
      · rw [if_neg hreads] at h
        rw [if_neg hreads]
        exact ⟨flags, returned, none, rfl, hreturned, iff_of_false nofun hreads, rfl,
          (Except.ok.inj h).symm⟩

/-- A decoded beginning of a reply has the outcome of its header, and what its first document
tells when something of it was captured. -/
theorem decodeOpReplyPrefix_eq_ok {flags : ℕ} {returned : ℤ} (hm : m ≤ payload.length)
    (hflags : readU32 payload 0 = .ok flags) (hreturned : readI32 payload 16 = .ok returned)
    (hdocument : (replyDocument payload).isSome ↔ 0 < returned ∧ 20 < payload.length)
    (h : decodeOpReplyPrefix requestId responseTo wireBytes (payload.take m) = .ok part) :
    20 ≤ m ∧ ∃ summary, part = decodedOpReply requestId responseTo wireBytes flags summary false ∧
      if (replyDocument payload).isSome ∧ 20 < m then
        (summarizeBsonPrefix ((payload.drop 20).take (m - 20))).map some = .ok summary
      else summary = none := by
  have htake : (payload.take m).length = m := by
    rw [List.length_take]
    omega
  unfold decodeOpReplyPrefix at h
  split at h
  · cases h
  · rename_i hcut
    rw [htake] at hcut h
    rw [readU32_take (by omega), hflags, readI32_take (by omega), hreturned, List.drop_take] at h
    dsimp only [bind, Except.bind] at h
    refine ⟨by omega, ?_⟩
    by_cases hreads : 0 < returned ∧ 20 < m
    · have hcaptured : (replyDocument payload).isSome ∧ 20 < m :=
        ⟨hdocument.mpr ⟨hreads.1, by omega⟩, hreads.2⟩
      rw [if_pos hreads] at h
      cases hresult : summarizeBsonPrefix ((payload.drop 20).take (m - 20)) with
      | error e =>
        rw [hresult] at h
        cases h
      | ok result =>
        rw [hresult] at h
        exact ⟨some result, (Except.ok.inj h).symm, by rw [if_pos hcaptured]; rfl⟩
    · have hmissed : ¬((replyDocument payload).isSome ∧ 20 < m) := fun hcaptured =>
        hreads ⟨(hdocument.mp hcaptured.1).1, hcaptured.2⟩
      rw [if_neg hreads] at h
      exact ⟨none, (Except.ok.inj h).symm, by rw [if_neg hmissed]⟩

end Payloads

/-! ### Fields of the first document -/

/-- A field of a captured beginning is the document's, or what is read off the elements that are
reached. -/
theorem SummaryField.get_prefix {α : Type} (field : SummaryField α) {bytes : Bytes} {size m : ℕ}
    {summary part : BsonSummary} (hwhole : summarizeBson (bytes.take size) = .ok summary)
    (hsize : size ≤ bytes.length) (hkeys : DistinctKeys (bytes.take size))
    (hpart : summarizeBsonPrefix (bytes.take m) = .ok part) :
    field.get part =
      if size ≤ m then field.get summary
      else field.valueIn (bytes.take size) (reached m (documentElements (bytes.take size))) := by
  have hm : 4 ≤ m := by
    have hfour := (summarizeBsonPrefix_eq_ok hpart).1
    rw [List.length_take] at hfour
    omega
  have hlength : (bytes.take size).length = size := by
    rw [List.length_take]
    omega
  obtain ⟨hplaced, -⟩ := summarizeBson_elements hwhole
  rw [summarizeBsonPrefix_take hwhole hsize hm] at hpart
  split at hpart
  · rename_i hcomplete
    cases hpart
    rw [if_pos hcomplete]
  · rename_i hcomplete
    rw [if_neg hcomplete]
    split at hpart
    · cases hpart
    · dsimp only at hpart
      split at hpart
      · cases hpart
      · cases hpart
        exact get_prefixEnd hkeys (summarizePrefixLoop_elements hplaced (by omega) 0 {})

/-- What a whole reply and a beginning of it tell of the first document. -/
structure ReplyFields (payload : Bytes) (m : ℕ) (summary captured : Option BsonSummary) :
    Prop where
  nothing : replyDocument payload = none → summary = none ∧ captured = none
  placed : ∀ document ∈ replyDocument payload, Placed document 4 (documentElements document)
  whole : ∀ document ∈ replyDocument payload, ∀ {α : Type} (field : SummaryField α),
    summary.bind field.get = field.valueIn document (documentElements document)
  part : ∀ document ∈ replyDocument payload, ∀ {α : Type} (field : SummaryField α),
    captured.bind field.get =
      if document.length ≤ m - 20 then field.valueIn document (documentElements document)
      else field.valueIn document (reached (m - 20) (documentElements document))

/-- No element lies before the first byte. -/
private theorem reached_zero {document : Bytes} {offset : ℕ} {elements : List Element}
    (h : Placed document offset elements) : reached 0 elements = [] := by
  cases elements with
  | nil => rfl
  | cons first rest =>
    have := h.lt first (List.mem_cons_self ..)
    rw [reached, if_pos (by omega)]

theorem replyFields_of_decoded {requestId responseTo : ℤ} {wireBytes m : ℕ} {payload : Bytes}
    {whole part : DecodedMessage}
    (hwhole : decodeOpReply requestId responseTo wireBytes payload false = .ok whole)
    (hm : m ≤ payload.length)
    (hpart : decodeOpReplyPrefix requestId responseTo wireBytes (payload.take m) = .ok part)
    (hkeys : ∀ document ∈ replyDocument payload, DistinctKeys document) :
    20 ≤ m ∧ ∃ flags summary captured, readU32 payload 0 = .ok flags ∧
      ReplyFields payload m summary captured ∧
      whole = decodedOpReply requestId responseTo wireBytes flags summary false ∧
      part = decodedOpReply requestId responseTo wireBytes flags captured false := by
  obtain ⟨hlength, flags, returned, summary, hflags, hreturned, hreads, hsummary, rfl⟩ :=
    decodeOpReply_eq_ok hwhole
  obtain ⟨hcut, captured, rfl, hcaptured⟩ :=
    decodeOpReplyPrefix_eq_ok hm hflags hreturned hreads hpart
  refine ⟨hcut, flags, summary, captured, hflags, ?_, rfl, rfl⟩
  cases hdocument : replyDocument payload with
  | none =>
    rw [hdocument] at hsummary hcaptured
    rw [if_neg (fun h => by cases h.1)] at hcaptured
    refine ⟨fun _ => ⟨(Except.ok.inj hsummary).symm, hcaptured⟩, ?_, ?_, ?_⟩ <;>
      · rw [hdocument]
        nofun
  | some document =>
    rw [hdocument] at hsummary hcaptured
    have hdistinct := hkeys document hdocument
    obtain ⟨hbytes, hinside⟩ := replyDocument_eq_some hdocument
    rw [Option.mapM_some] at hsummary
    cases hresult : summarizeBson document with
    | error e =>
      rw [hresult] at hsummary
      cases hsummary
    | ok result =>
      rw [hresult] at hsummary
      obtain rfl := Except.ok.inj hsummary
      obtain ⟨hplaced, -⟩ := summarizeBson_elements hresult
      have hfive : 5 ≤ document.length :=
        (of_decide_eq_true (summarizeWith_eq_ok hresult).1).1
      refine ⟨fun hnone => absurd (hdocument.symm.trans hnone) nofun, ?_, ?_, ?_⟩ <;>
        rw [hdocument] <;> rintro _ ⟨⟩
      · exact hplaced
      · intro α field
        exact field.get_summary hresult hdistinct
      · intro α field
        by_cases hempty : m = 20
        · -- the beginning ends with the header
          rw [if_neg (fun h => by omega)] at hcaptured
          rw [hcaptured, if_neg (by omega), hempty, Nat.sub_self, reached_zero hplaced]
          rfl
        · rw [if_pos ⟨rfl, by omega⟩] at hcaptured
          cases hsummary : summarizeBsonPrefix ((payload.drop 20).take (m - 20)) with
          | error e =>
            rw [hsummary] at hcaptured
            cases hcaptured
          | ok beginning =>
            rw [hsummary] at hcaptured
            obtain rfl := Except.ok.inj hcaptured
            rw [Option.bind_some, ← field.get_summary hresult hdistinct]
            rw [hbytes] at hresult hdistinct
            have hfield := field.get_prefix hresult (by rw [List.length_drop]; omega) hdistinct
              hsummary
            rw [← hbytes] at hfield
            exact hfield

variable {payload : Bytes} {m : ℕ} {summary captured : Option BsonSummary}

/-- What the beginning of a document tells, the whole document tells too. -/
theorem ReplyFields.within (h : ReplyFields payload m summary captured) {α : Type}
    (field : SummaryField α) : Within (captured.bind field.get) (summary.bind field.get) := by
  cases hdocument : replyDocument payload with
  | none =>
    obtain ⟨-, rfl⟩ := h.nothing hdocument
    exact .none
  | some document =>
    rw [h.whole document hdocument field, h.part document hdocument field]
    split
    · exact .refl _
    · exact field.valueIn_within document (reached_isPrefix ..)

/-- The document is captured whole, or its outcome is the header's, or the outcome is captured and
every value before it takes bytes. -/
def OutcomeCaptured (payload : Bytes) (m : ℕ) : Prop :=
  ∀ document ∈ replyDocument payload, document.length ≤ m - 20 ∨
    ∀ element ∈ documentElements document, element.key = "ok" →
      ∀ value ∈ readBoolish document element.valueStart element.elementType,
        value = headerOk payload ∨ element.next ≤ m - 20 ∧
          ∀ earlier ∈ documentElements document, earlier.next < element.next →
            earlier.valueStart < earlier.next

/-- The outcome of the header may stand in for the document's exactly when the document's is
captured or no other. -/
theorem ReplyFields.ok_within_iff (h : ReplyFields payload m summary captured)
    (hkeys : ∀ document ∈ replyDocument payload, DistinctKeys document) :
    Within ((captured.bind (·.ok)).or (some (headerOk payload)))
        ((summary.bind (·.ok)).or (some (headerOk payload))) ↔
      OutcomeCaptured payload m := by
  unfold OutcomeCaptured
  cases hdocument : replyDocument payload with
  | none =>
    obtain ⟨rfl, rfl⟩ := h.nothing hdocument
    exact iff_of_true (.refl _) nofun
  | some document =>
    have hdistinct := hkeys document hdocument
    have hplaced := h.placed document hdocument
    change Within ((captured.bind SummaryField.ok.get).or _)
      ((summary.bind SummaryField.ok.get).or _) ↔ _
    rw [h.whole document hdocument SummaryField.ok, h.part document hdocument SummaryField.ok]
    simp only [Option.mem_def, Option.some.injEq, forall_eq']
    by_cases hcomplete : document.length ≤ m - 20
    · rw [if_pos hcomplete]
      exact iff_of_true (.refl _) (Or.inl hcomplete)
    · rw [if_neg hcomplete, or_iff_right hcomplete]
      by_cases hexists : ∃ element ∈ documentElements document, element.key = "ok"
      · obtain ⟨element, hmem, hkey⟩ := hexists
        have honly : ∀ other ∈ documentElements document, other.key = "ok" → other = element :=
          fun other hother hkey' => Option.some.inj
            ((find?_key hdistinct hother hkey').symm.trans (find?_key hdistinct hmem hkey))
        rw [SummaryField.ok.valueIn_of_mem hdistinct hmem hkey,
          SummaryField.ok.valueIn_reached hdistinct hmem hkey]
        by_cases hreached : element ∈ reached (m - 20) (documentElements document)
        · rw [if_pos hreached]
          refine iff_of_true (.refl _) fun other hother hkey' _ _ => ?_
          rw [honly other hother hkey']
          exact Or.inr ((mem_reached_iff hplaced hmem).mp hreached)
        · rw [if_neg hreached]
          constructor
          · intro hwithin other hother hkey' value hvalue
            rw [honly other hother hkey'] at hvalue
            change SummaryField.ok.value document element = some value at hvalue
            rw [hvalue] at hwithin
            exact Or.inl (Option.some.inj (hwithin _ rfl))
          · intro hcaptured
            cases hvalue : SummaryField.ok.value document element with
            | none => exact .refl _
            | some value =>
              rcases hcaptured element hmem hkey value hvalue with rfl | hin
              · exact .refl _
              · exact absurd ((mem_reached_iff hplaced hmem).mpr hin) hreached
      · have hne : ∀ element ∈ documentElements document, element.key ≠ "ok" :=
          fun element hmem hkey => hexists ⟨element, hmem, hkey⟩
        have hreached := (reached_isPrefix (m - 20) (documentElements document)).subset
        rw [SummaryField.ok.valueIn_of_forall_ne hne,
          SummaryField.ok.valueIn_of_forall_ne fun element hmem => hne element (hreached hmem)]
        exact iff_of_true (.refl _) fun element hmem hkey => absurd hkey (hne element hmem)

/-! ### Frames that are cut -/

/-- What a beginning of a reply says of the outcome, the whole reply says too. -/
structure OutcomeSound (whole part : DecodedMessage) : Prop where
  ok : Within (part.status.bind (·.ok)) (whole.status.bind (·.ok))
  code : Within (part.status.bind (·.code)) (whole.status.bind (·.code))
  codeName : Within (part.status.bind (·.codeName)) (whole.status.bind (·.codeName))
  affectedCount : Within (part.status.bind (·.affectedCount)) (whole.status.bind (·.affectedCount))

/-- A cut reply says nothing wrong of the outcome exactly when the document's `ok` is captured or
the header says the same. -/
theorem outcomeSound_iff {codecs : Decompressors} {frame : Bytes} {maxMessageBytes n : ℕ}
    {whole part : DecodedMessage} (hopcode : readI32 frame 12 = .ok OP_REPLY)
    (hwhole : decodeFrame codecs frame maxMessageBytes = .ok whole)
    (hkeys : ∀ document ∈ replyDocument (frame.drop 16), DistinctKeys document)
    (hcut : n < frame.length)
    (hpart : decodeFramePrefix codecs (frame.take n) maxMessageBytes = .ok part) :
    OutcomeSound whole part ↔ OutcomeCaptured (frame.drop 16) (n - 16) := by
  obtain ⟨hlength, hdeclared, hlimit⟩ := decodeFrame_length hwhole
  have htake : (frame.take n).length = n := by
    rw [List.length_take]
    omega
  have hn : 16 ≤ n := by
    unfold decodeFramePrefix at hpart
    split at hpart
    · cases hpart
    · omega
  obtain ⟨requestId, hrequest⟩ := exists_readI32 frame 4 (by omega)
  obtain ⟨responseTo, hresponse⟩ := exists_readI32 frame 8 (by omega)
  have hheader : ∀ offset, offset + 4 ≤ 16 → readI32 (frame.take n) offset = readI32 frame offset :=
    fun offset hoffset => readI32_take (by omega)
  rw [decodeFrame_opReply hlength hdeclared hlimit hrequest hresponse hopcode] at hwhole
  rw [decodeFramePrefix_opReply (by omega) ((hheader 0 (by omega)).trans hdeclared) (by omega)
    hlimit ((hheader 4 (by omega)).trans hrequest) ((hheader 8 (by omega)).trans hresponse)
    ((hheader 12 (by omega)).trans hopcode), List.drop_take] at hpart
  obtain ⟨-, flags, summary, captured, hflags, hfields, rfl, rfl⟩ :=
    replyFields_of_decoded hwhole (by rw [List.length_drop]; omega) hpart hkeys
  have hok : headerOk (frame.drop 16) = decide (flags % 4 = 0) := by
    unfold headerOk
    rw [hflags]
    rfl
  rw [← hfields.ok_within_iff hkeys, hok]
  refine ⟨OutcomeSound.ok, fun hwithin => ⟨hwithin, ?_, ?_, ?_⟩⟩
  · exact hfields.within SummaryField.code
  · exact hfields.within SummaryField.codeName
  · exact hfields.within SummaryField.affectedCount

/-! ### Outcomes of whole replies -/

/-- A field that the last element with its key sets, among those of a type it takes. -/
structure LastField (α : Type) extends SummaryField α where
  takes : UInt8 → Bool
  get_takes : ∀ document elementType valueStart next summary,
    get (recordField nestedSummary document elementType key valueStart next summary) =
      if takes elementType then read document elementType valueStart next else get summary

namespace LastField

def ok : LastField Bool where
  toSummaryField := .ok
  takes _ := true
  get_takes _ _ _ _ _ := rfl

def code : LastField ℤ where
  toSummaryField := .code
  takes _ := true
  get_takes _ _ _ _ _ := rfl

def codeName : LastField String where
  toSummaryField := .codeName
  takes elementType := elementType = 0x02
  get_takes document elementType valueStart next summary := by
    change (if elementType = 0x02 then _ else summary).codeName =
      if decide (elementType = 0x02) = true then readText document elementType valueStart else _
    unfold readText
    by_cases htext : elementType = 0x02
    · rw [if_pos htext, if_pos (decide_eq_true htext), if_pos htext]
    · rw [if_neg htext, if_neg (by simpa using htext)]
      rfl

def affectedCount : LastField ℕ where
  toSummaryField := .affectedCount
  takes _ := true
  get_takes _ _ _ _ _ := rfl

variable {α : Type} (field : LastField α)

/-- The element sets the field. -/
def sets (element : Element) : Bool :=
  element.key = field.key ∧ field.takes element.elementType

/-- What the elements of a document tell of the field. -/
def told (document : Bytes) : Option α :=
  ((documentElements document).filter field.sets).getLast?.bind (field.value document)

variable {field}

private theorem get_record (document : Bytes) (ordinal : ℕ) (element : Element)
    (summary : BsonSummary) :
    field.get (element.record document ordinal summary) =
      if field.sets element then field.value document element else field.get summary := by
  unfold Element.record recordElement sets
  by_cases hkey : element.key = field.key
  · rw [hkey, field.get_takes, field.get_first]
    simp [SummaryField.value]
  · rw [field.get_other _ _ _ _ _ _ hkey, field.get_first]
    simp [hkey]

/-- The last element that sets the field tells it. -/
theorem get_recordAll (document : Bytes) (ordinal : ℕ) (elements : List Element)
    (summary : BsonSummary) :
    field.get (recordAll document ordinal elements summary) =
      match (elements.filter field.sets).getLast? with
      | some element => field.value document element
      | none => field.get summary := by
  induction elements generalizing ordinal summary with
  | nil => rfl
  | cons element rest ih =>
    unfold recordAll
    rw [ih, get_record]
    by_cases hsets : field.sets element
    · rw [List.filter_cons_of_pos hsets, List.getLast?_cons, if_pos hsets]
      cases (rest.filter field.sets).getLast? <;> rfl
    · rw [List.filter_cons_of_neg hsets, if_neg hsets]

theorem get_summary {document : Bytes} {summary : BsonSummary}
    (h : summarizeBson document = .ok summary) : field.get summary = field.told document := by
  obtain ⟨-, query, rfl⟩ := summarizeBson_elements h
  rw [field.get_query, get_recordAll, field.get_empty]
  unfold told
  cases ((documentElements document).filter field.sets).getLast? <;> rfl

end LastField

/-- What a reply's payload tells of the outcome: whether it succeeded, by its first document or by
its header, and the code, its name and the number of documents. -/
def replyOutcome (payload : Bytes) : Bool × Option ℤ × Option String × Option ℕ :=
  (((replyDocument payload).bind LastField.ok.told).getD (headerOk payload),
    (replyDocument payload).bind LastField.code.told,
    (replyDocument payload).bind LastField.codeName.told,
    (replyDocument payload).bind LastField.affectedCount.told)

/-- The outcome a message reports. -/
def reportedOutcome (message : DecodedMessage) :
    Option Bool × Option ℤ × Option String × Option ℕ :=
  (message.status.bind (·.ok), message.status.bind (·.code), message.status.bind (·.codeName),
    message.status.bind (·.affectedCount))

/-- A decoded reply reports the outcome its payload tells. -/
theorem decodeOpReply_outcome {requestId responseTo : ℤ} {wireBytes : ℕ} {payload : Bytes}
    {compressed : Bool} {whole : DecodedMessage}
    (h : decodeOpReply requestId responseTo wireBytes payload compressed = .ok whole) :
    whole.requestId = requestId ∧ whole.responseTo = responseTo ∧
      whole.wireBytes = saturateU32 wireBytes ∧ whole.command = none ∧
      reportedOutcome whole = Prod.map some id (replyOutcome payload) := by
  obtain ⟨-, flags, returned, summary, hflags, -, -, hsummary, rfl⟩ := decodeOpReply_eq_ok h
  refine ⟨rfl, rfl, rfl, rfl, ?_⟩
  have hheader : headerOk payload = decide (flags % 4 = 0) := by
    unfold headerOk
    rw [hflags]
    rfl
  have hfield : ∀ {α : Type} (field : LastField α),
      summary.bind field.get = (replyDocument payload).bind field.told := by
    intro α field
    cases hdocument : replyDocument payload with
    | none =>
      rw [hdocument] at hsummary
      rw [← Except.ok.inj hsummary]
      rfl
    | some document =>
      rw [hdocument, Option.mapM_some] at hsummary
      cases hresult : summarizeBson document with
      | error e =>
        rw [hresult] at hsummary
        cases hsummary
      | ok result =>
        rw [hresult] at hsummary
        rw [← Except.ok.inj hsummary]
        exact LastField.get_summary hresult
  have hok : (summary.bind (·.ok)).or (some (decide (flags % 4 = 0))) =
      some (((replyDocument payload).bind LastField.ok.told).getD (headerOk payload)) := by
    rw [hheader, ← hfield .ok]
    change (summary.bind LastField.ok.get).or _ = _
    cases summary.bind LastField.ok.get <;> rfl
  refine Prod.ext hok (Prod.ext ?_ (Prod.ext ?_ ?_))
  · exact hfield .code
  · exact hfield .codeName
  · exact hfield .affectedCount

/-- A reply to a command that failed. As a server answers commands, its header sets no failure
flag. -/
def failedReply : Bytes :=
  encodeOpReply 2 1 8 [encodeDocument (encodeString "errmsg" "denied" ++ encodeInt32 "ok" 0 ++
    encodeInt32 "code" 18)]

/-- The message of `failedReply` with a given outcome and code. -/
def failedMessage (ok : Bool) (code : Option ℤ) : DecodedMessage where
  requestId := 2
  responseTo := 1
  wireBytes := 78
  flags := 8
  moreToCome := false
  compressed := false
  command := none
  status := some { ok := some ok, code }

/-- Cut behind its outcome, the reply says nothing wrong of it. -/
theorem failedReply_cut_sound :
    decodeFramePrefix .rejecting (failedReply.take 68) 1000 = .ok (failedMessage false none) ∧
      OutcomeSound (failedMessage false (some 18)) (failedMessage false none) := by
  have hpart : decodeFramePrefix .rejecting (failedReply.take 68) 1000 =
      .ok (failedMessage false none) := by
    decide +kernel
  have hopcode : readI32 failedReply 12 = .ok OP_REPLY := by decide +kernel
  have hwhole : decodeFrame .rejecting failedReply 1000 = .ok (failedMessage false (some 18)) := by
    decide +kernel
  have hdocument : replyDocument (failedReply.drop 16) = some (failedReply.drop 36) := by
    decide +kernel
  have hkeys : DistinctKeys (failedReply.drop 36) := by decide +kernel
  have hreached : ∀ element ∈ documentElements (failedReply.drop 36), element.key = "ok" →
      element.next ≤ 32 := by
    decide +kernel
  have hbytes : ∀ element ∈ documentElements (failedReply.drop 36),
      element.valueStart < element.next := by
    decide +kernel
  refine ⟨hpart, (outcomeSound_iff hopcode hwhole ?_ (by decide +kernel) hpart).mpr ?_⟩
  · rw [hdocument]
    rintro _ ⟨⟩
    exact hkeys
  · unfold OutcomeCaptured
    rw [hdocument]
    rintro _ ⟨⟩
    exact Or.inr fun element hmem hkey _ _ => Or.inr
      ⟨hreached element hmem hkey, fun earlier hearlier _ => hbytes earlier hearlier⟩

/-- Cut before its outcome, the reply of a failed command says that it succeeded. -/
theorem failedReply_cut_wrong :
    readI32 failedReply 12 = .ok OP_REPLY ∧
      decodeFrame .rejecting failedReply 1000 = .ok (failedMessage false (some 18)) ∧
      (∀ document ∈ replyDocument (failedReply.drop 16), DistinctKeys document) ∧
      60 < failedReply.length ∧
      decodeFramePrefix .rejecting (failedReply.take 60) 1000 = .ok (failedMessage true none) ∧
      ¬OutcomeSound (failedMessage false (some 18)) (failedMessage true none) := by
  have hdocument : replyDocument (failedReply.drop 16) = some (failedReply.drop 36) := by
    decide +kernel
  have hkeys : DistinctKeys (failedReply.drop 36) := by decide +kernel
  refine ⟨by decide +kernel, by decide +kernel, ?_, by decide +kernel, by decide +kernel,
    fun hsound => ?_⟩
  · rw [hdocument]
    rintro _ ⟨⟩
    exact hkeys
  · cases hsound.ok true rfl

end MongoDam.Protocol
