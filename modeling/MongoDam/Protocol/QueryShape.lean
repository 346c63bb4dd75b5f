import MongoDam.Protocol.PrefixQuery
import MongoDam.Protocol.Stream

/-!
# Queries are objects

A captured query is a command document with document sequences merged into it, so it
is always an object, however the message was framed. A reader that takes a null value
for an absent one therefore never drops a query.
-/

namespace MongoDam.Protocol

open Lib

/-- The query is an object, if there is one. -/
def ObjectQuery (query : Option JsonValue) : Prop :=
  ∀ value ∈ query, ∃ members, value = .object members

/-- The query of the message's command is an object, if there is one. -/
def DecodedMessage.HasObjectQuery (message : DecodedMessage) : Prop :=
  ∀ command ∈ message.command, ObjectQuery command.query

/-! ### Summaries -/

private theorem objectQuery_summarizeBson {document : Bytes} {summary : BsonSummary}
    (h : summarizeBson document = .ok summary) : ObjectQuery summary.query := by
  intro value hvalue
  rw [(summarizeBson_query h).2] at hvalue
  exact capturedQuery_object hvalue

private theorem readI32_of_summarizeBsonPrefix {document : Bytes} {summary : BsonSummary}
    (h : summarizeBsonPrefix document = .ok summary) : ∃ size, readI32 document 0 = .ok size := by
  unfold summarizeBsonPrefix at h
  split at h
  · cases h
  · split at h
    · cases h
    · rename_i size hsize
      exact ⟨size, hsize⟩

private theorem objectQuery_summarizeBsonPrefix {document : Bytes} {summary : BsonSummary}
    (h : summarizeBsonPrefix document = .ok summary) : ObjectQuery summary.query := by
  obtain ⟨size, hsize⟩ := readI32_of_summarizeBsonPrefix h
  have hcases := (summarizeBsonPrefix_eq_ok h).2 size hsize
  split at hcases
  · exact objectQuery_summarizeBson hcases
  · intro value hvalue
    rw [hcases] at hvalue
    cases hvalue

private theorem ok_of_bind {α β : Type} {x : Except DecodeError α} {f : α → Except DecodeError β}
    {value : β} (h : x >>= f = .ok value) : ∃ first, f first = .ok value := by
  cases x with
  | error e => cases h
  | ok first => exact ⟨first, h⟩

/-- The body of the sections was summarized from a document. -/
private theorem objectQuery_sections {payload : Bytes} {stop offset : ℕ}
    {sections result : OpMsgSections}
    (h : opMsgSectionsLoop payload stop offset sections = .ok result)
    (hsections : ∀ summary ∈ sections.summary, ObjectQuery summary.query) :
    ∀ summary ∈ result.summary, ObjectQuery summary.query := by
  fun_induction opMsgSectionsLoop payload stop offset sections with
  | case5 =>
    rename_i ih
    exact ih h hsections
  | case7 =>
    rename_i document summary _ hsummary ih
    refine ih h fun other hother => ?_
    cases hother
    obtain ⟨body, hbody⟩ := ok_of_bind hsummary
    exact objectQuery_summarizeBson hbody
  | case15 =>
    rename_i ih
    exact ih h hsections
  | case16 =>
    rename_i ih
    exact ih h hsections
  | case18 =>
    cases h
    exact hsections
  | _ => cases h

private theorem objectQuery_mergeSequences {sequences : List (String × List JsonValue)}
    {summary : BsonSummary} (h : ObjectQuery summary.query) :
    ObjectQuery (mergeSequences sequences summary).query := by
  unfold mergeSequences
  split
  · split
    · intro value hvalue
      exact ⟨_, (Option.some.inj hvalue).symm⟩
    · exact h
  · exact h

private theorem objectQuery_overrideDeletes {deletes : Option (Option DeleteScope × ℕ)}
    {summary : BsonSummary} (h : ObjectQuery summary.query) :
    ObjectQuery (overrideDeletes deletes summary).query := by
  unfold overrideDeletes
  split
  · exact h
  · exact h

/-! ### Messages -/

section Messages

variable {requestId responseTo : ℤ} {wireBytes flags : ℕ} {payload : Bytes} {compressed : Bool}
  {message : DecodedMessage} {summary : BsonSummary}

private theorem opMsgMessage_object (h : ObjectQuery summary.query) :
    (opMsgMessage requestId responseTo wireBytes flags compressed summary).HasObjectQuery := by
  intro command hcommand
  have hcommand : commandFromSummary summary = some command := by
    unfold opMsgMessage at hcommand
    dsimp only at hcommand
    split at hcommand
    · exact hcommand
    · cases hcommand
  rw [commandFromSummary_query hcommand]
  exact h

private theorem decodedOpQuery_object {name : String} (h : ObjectQuery summary.query) :
    (decodedOpQuery requestId responseTo wireBytes flags name summary
      compressed).HasObjectQuery := by
  intro command hcommand
  unfold decodedOpQuery opQueryCommand at hcommand
  dsimp only at hcommand
  split at hcommand
  · cases hcommand
  · split at hcommand
    · obtain ⟨found, hfound, rfl⟩ := Option.map_eq_some_iff.mp hcommand
      dsimp only
      rw [commandFromSummary_query hfound]
      exact h
    · cases hcommand
      exact h

private theorem decodeOpMsg_object
    (h : decodeOpMsg requestId responseTo wireBytes payload compressed = .ok message) :
    message.HasObjectQuery := by
  obtain ⟨flags, sections, summary, -, hloop, hsummary, rfl⟩ := decodeOpMsg_eq_ok h
  have hnone : ∀ summary ∈ ({} : OpMsgSections).summary, ObjectQuery summary.query := by
    intro summary hsummary
    cases hsummary
  have hbody := objectQuery_sections hloop hnone summary hsummary
  exact opMsgMessage_object (objectQuery_mergeSequences (objectQuery_overrideDeletes hbody))

private theorem decodeOpMsgPrefix_object
    (h : decodeOpMsgPrefix requestId responseTo wireBytes payload = .ok message) :
    message.HasObjectQuery := by
  obtain ⟨-, -, flags, summary, -, hsummary, rfl⟩ := decodeOpMsgPrefix_eq_ok h
  exact opMsgMessage_object (objectQuery_summarizeBsonPrefix hsummary)

private theorem bind_object {α : Type} {x : Except DecodeError α}
    {f : α → Except DecodeError DecodedMessage} (h : x >>= f = .ok message)
    (hf : ∀ value, x = .ok value → f value = .ok message → message.HasObjectQuery) :
    message.HasObjectQuery := by
  cases x with
  | error e => cases h
  | ok value => exact hf value rfl h

private theorem decodeOpQuery_object
    (h : decodeOpQuery requestId responseTo wireBytes payload compressed = .ok message) :
    message.HasObjectQuery := by
  unfold decodeOpQuery at h
  split at h
  · cases h
  refine bind_object h fun flags _ h => bind_object h fun name _ h => ?_
  refine bind_object h fun document _ h => bind_object h fun summary hsummary h => ?_
  cases h
  exact decodedOpQuery_object (objectQuery_summarizeBson hsummary)

private theorem decodeOpQueryPrefix_object
    (h : decodeOpQueryPrefix requestId responseTo wireBytes payload = .ok message) :
    message.HasObjectQuery := by
  unfold decodeOpQueryPrefix at h
  split at h
  · cases h
  refine bind_object h fun flags _ h => bind_object h fun name _ h => ?_
  dsimp only at h
  split at h
  · cases h
  · refine bind_object h fun summary hsummary h => ?_
    cases h
    exact decodedOpQuery_object (objectQuery_summarizeBsonPrefix hsummary)

private theorem decodeOpReply_object
    (h : decodeOpReply requestId responseTo wireBytes payload compressed = .ok message) :
    message.HasObjectQuery := by
  unfold decodeOpReply at h
  split at h
  · cases h
  refine bind_object h fun flags _ h => bind_object h fun returned _ h => ?_
  have hreply : ∀ summary, (decodedOpReply requestId responseTo wireBytes flags summary
      compressed).HasObjectQuery := fun _ command hcommand => nomatch hcommand
  dsimp only at h
  split at h
  · refine bind_object h fun summary _ h => ?_
    cases h
    exact hreply summary
  · refine bind_object h fun summary _ h => ?_
    cases h
    exact hreply summary

private theorem decodeOpReplyPrefix_object
    (h : decodeOpReplyPrefix requestId responseTo wireBytes payload = .ok message) :
    message.HasObjectQuery := by
  unfold decodeOpReplyPrefix at h
  split at h
  · cases h
  refine bind_object h fun flags _ h => bind_object h fun returned _ h => ?_
  have hreply : ∀ summary, (decodedOpReply requestId responseTo wireBytes flags summary
      false).HasObjectQuery := fun _ command hcommand => nomatch hcommand
  dsimp only at h
  split at h
  · refine bind_object h fun summary _ h => ?_
    cases h
    exact hreply summary
  · refine bind_object h fun summary _ h => ?_
    cases h
    exact hreply summary

variable {codecs : Decompressors} {maxMessageBytes : ℕ}

private theorem decodeCompressed_object
    (h : decodeCompressed codecs requestId responseTo wireBytes payload maxMessageBytes =
      .ok message) :
    message.HasObjectQuery := by
  unfold decodeCompressed at h
  split at h
  · cases h
  refine bind_object h fun opcode _ h => bind_object h fun size _ h => ?_
  split at h
  · cases h
  refine bind_object h fun uncompressed _ h => ?_
  split at h
  · cases h
  split at h
  · exact decodeOpMsg_object h
  split at h
  · exact decodeOpQuery_object h
  split at h
  · exact decodeOpReply_object h
  · cases h

/-- The query of a whole frame is an object. -/
theorem decodeFrame_object {frame : Bytes}
    (h : decodeFrame codecs frame maxMessageBytes = .ok message) :
    message.HasObjectQuery := by
  unfold decodeFrame at h
  split at h
  · cases h
  refine bind_object h fun declared _ h => ?_
  split at h
  · cases h
  split at h
  · cases h
  refine bind_object h fun request _ h => bind_object h fun response _ h => ?_
  refine bind_object h fun opcode _ h => ?_
  split at h
  · exact decodeOpMsg_object h
  split at h
  · exact decodeOpQuery_object h
  split at h
  · exact decodeOpReply_object h
  split at h
  · exact decodeCompressed_object h
  · cases h

/-- The query of a captured beginning is an object. -/
theorem decodeFramePrefix_object {captured : Bytes}
    (h : decodeFramePrefix codecs captured maxMessageBytes = .ok message) :
    message.HasObjectQuery := by
  unfold decodeFramePrefix at h
  split at h
  · cases h
  refine bind_object h fun declared _ h => ?_
  split at h
  · cases h
  split at h
  · cases h
  split at h
  · exact decodeFrame_object h
  refine bind_object h fun request _ h => bind_object h fun response _ h => ?_
  refine bind_object h fun opcode _ h => ?_
  split at h
  · cases h
  split at h
  · exact decodeOpMsgPrefix_object h
  split at h
  · exact decodeOpQueryPrefix_object h
  split at h
  · exact decodeOpReplyPrefix_object h
  · cases h

end Messages

/-! ### Streams -/

namespace StreamDecoder

variable {codecs : Decompressors} {decoder decoder' : StreamDecoder} {bytes : Bytes}
  {messages : List DecodedMessage}

private theorem pushLoop_object {maxMessageBytes : ℕ} {buffer rest : Bytes}
    {decoded : List DecodedMessage}
    (h : pushLoop codecs maxMessageBytes buffer decoded = (rest, .ok messages))
    (hdecoded : ∀ message ∈ decoded, message.HasObjectQuery) :
    ∀ message ∈ messages, message.HasObjectQuery := by
  fun_induction pushLoop codecs maxMessageBytes buffer decoded with
  | case1 =>
    cases h
    exact hdecoded
  | case5 =>
    cases h
    exact hdecoded
  | case7 =>
    rename_i message hmessage ih
    refine ih h fun other hother => ?_
    rcases List.mem_append.mp hother with hmem | hmem
    · exact hdecoded other hmem
    · rw [List.mem_singleton] at hmem
      rw [hmem]
      exact decodeFrame_object hmessage
  | _ => cases h

private theorem push_object (h : decoder.push codecs bytes = (decoder', .ok messages)) :
    ∀ message ∈ messages, message.HasObjectQuery := by
  unfold push at h
  split at h
  · cases h
  · obtain ⟨-, hloop⟩ := Prod.mk.inj h
    exact pushLoop_object (Prod.ext rfl hloop) fun _ hmem => absurd hmem List.not_mem_nil

theorem pushTruncated_object {message : DecodedMessage}
    (h : (decoder.pushTruncated codecs bytes).2 = .ok message) : message.HasObjectQuery := by
  unfold pushTruncated at h
  split at h
  · cases h
  · exact decodeFramePrefix_object h

theorem pushBoundedPrefix_object {prefixLimit : ℕ}
    (h : decoder.pushBoundedPrefix codecs bytes prefixLimit = (decoder', .ok messages)) :
    ∀ message ∈ messages, message.HasObjectQuery := by
  unfold pushBoundedPrefix at h
  split at h
  · cases h
  split at h
  · cases h
  · exact push_object h
  · split at h
    · exact push_object h
    · have hresult := congrArg Prod.snd h
      change Except.map (fun message => [message]) (decoder.pushTruncated codecs
        (bytes.take (prefixLimit - decoder.buffer.length))).2 = .ok messages at hresult
      cases hpush : (decoder.pushTruncated codecs
          (bytes.take (prefixLimit - decoder.buffer.length))).2 with
      | error e =>
        rw [hpush] at hresult
        cases hresult
      | ok message =>
        rw [hpush] at hresult
        cases hresult
        intro other hother
        rw [List.mem_singleton.mp hother]
        exact pushTruncated_object hpush

end StreamDecoder

end MongoDam.Protocol
