import MongoDam.Observer.Runs
import MongoDam.Protocol.Encode
import MongoDam.Protocol.LegacyReplies
import MongoDam.Protocol.Payloads

/-!
# Contents of legacy replies

A legacy reply does not say whether its documents are the status of a command or the
data of a collection, and its outcome is read off the first of them in either case. Two
runs that differ in the documents returned for queries on ordinary collections emit the
same events exactly when these documents tell the same outcome, as documents without
status keys do. The state never differs.
-/

namespace MongoDam.Observer

open Lib Schema Protocol EventProcessor

/-! ### Runs over frames -/

/-- A frame that is decoded and, when it can be, handed to `processMessage`. -/
structure FrameInput where
  host : Host
  raw : KernelEvent
  truncated : Bool
  frame : Bytes

/-- The request a frame would open, or answer, on its connection. -/
def FrameInput.key (input : FrameInput) (requestId : ℤ) : PendingKey :=
  (input.raw.tgid, input.raw.connectionKey, requestId)

/-- The frame is a legacy query whose namespace does not address commands. -/
def isOrdinaryQuery (codecs : Decompressors) (frame : Bytes) : Bool :=
  match framePayload codecs OP_QUERY frame with
  | none => false
  | some payload =>
    match readCstring payload 4 with
    | .error _ => false
    | .ok (name, _) => !(splitLegacyNamespace name).2.2

section Definitions

variable (lib : External) (codecs : Decompressors) (maxMessageBytes : ℕ)

/-- Decode a frame and process its message. -/
def EventProcessor.processFrame (p : EventProcessor) (input : FrameInput) :
    EventProcessor × List DamEvent :=
  match decodeFrame codecs input.frame maxMessageBytes with
  | .error _ => (p, [])
  | .ok message => p.processMessage lib input.host input.raw input.truncated message

/-- A run of `decodeFrame` followed by `processMessage`. -/
def EventProcessor.runFrames :
    EventProcessor → List FrameInput → EventProcessor × List DamEvent
  | p, [] => (p, [])
  | p, input :: rest =>
    let (p, events) := p.processFrame lib codecs maxMessageBytes input
    let (p, more) := runFrames p rest
    (p, events ++ more)

/-- The requests that ordinary queries have opened, after one more frame. -/
def trackQueries (queries : PendingKey → Bool) (input : FrameInput) : PendingKey → Bool :=
  match decodeFrame codecs input.frame maxMessageBytes with
  | .error _ => queries
  | .ok message =>
    if message.responseTo = 0 ∧ message.command.isSome ∧ message.moreToCome = false then
      fun key =>
        if key = input.key message.requestId then isOrdinaryQuery codecs input.frame
        else queries key
    else queries

/-- The frame answers a waiting request that an ordinary query has opened. -/
def AnswersQuery (p : EventProcessor) (queries : PendingKey → Bool) (input : FrameInput) : Prop :=
  ∃ responseTo, readI32 input.frame 8 = .ok responseTo ∧
    queries (input.key responseTo) = true ∧ (p.pending.get? (input.key responseTo)).isSome

/-- The frames are legacy replies that differ in the bytes of their documents at most, and so do
the records that carry them. -/
structure SameButDocuments (input input' : FrameInput) : Prop where
  host : input'.host = input.host
  truncated : input'.truncated = input.truncated
  raw : ∃ data hdata, input'.raw = { input.raw with data, data_length := hdata }
  header : input'.frame.take 16 = input.frame.take 16
  length : input'.frame.length = input.frame.length
  payloads : ∃ payload payload', framePayload codecs OP_REPLY input.frame = some payload ∧
    framePayload codecs OP_REPLY input'.frame = some payload' ∧
    payload'.take 20 = payload.take 20 ∧ payload'.length = payload.length

/-- The runs differ at most in the documents of replies to ordinary queries. -/
inductive SameButReplies :
    EventProcessor → (PendingKey → Bool) → List FrameInput → List FrameInput → Prop
  | nil {p : EventProcessor} {queries : PendingKey → Bool} : SameButReplies p queries [] []
  | same {p : EventProcessor} {queries : PendingKey → Bool} {input : FrameInput}
      {rest rest' : List FrameInput}
      (hrest : SameButReplies (p.processFrame lib codecs maxMessageBytes input).1
        (trackQueries codecs maxMessageBytes queries input) rest rest') :
      SameButReplies p queries (input :: rest) (input :: rest')
  | reply {p : EventProcessor} {queries : PendingKey → Bool} {input input' : FrameInput}
      {rest rest' : List FrameInput} (hanswers : AnswersQuery p queries input)
      (hok : (decodeFrame codecs input.frame maxMessageBytes).isOk)
      (hok' : (decodeFrame codecs input'.frame maxMessageBytes).isOk)
      (hdocuments : SameButDocuments codecs input input')
      (hrest : SameButReplies (p.processFrame lib codecs maxMessageBytes input).1
        (trackQueries codecs maxMessageBytes queries input) rest rest') :
      SameButReplies p queries (input :: rest) (input' :: rest')

/-- As legacy replies to some request, the frames tell the same outcome. -/
def TellSame (frame frame' : Bytes) : Prop :=
  readI32 frame 8 = .ok 0 ∨ ∀ payload payload', framePayload codecs OP_REPLY frame = some payload →
    framePayload codecs OP_REPLY frame' = some payload' →
    replyOutcome payload = replyOutcome payload'

end Definitions

/-! ### Requests of ordinary queries -/

section Queries

variable {lib : External} {codecs : Decompressors} {maxMessageBytes : ℕ} {p : EventProcessor}
  {queries : PendingKey → Bool} {input input' : FrameInput}

/-- A decoded query has the command of its namespace. -/
private theorem decodeOpQuery_eq_ok {requestId responseTo : ℤ} {wireBytes : ℕ} {payload : Bytes}
    {compressed : Bool} {message : DecodedMessage}
    (h : decodeOpQuery requestId responseTo wireBytes payload compressed = .ok message) :
    ∃ flags name afterNamespace summary, readCstring payload 4 = .ok (name, afterNamespace) ∧
      message = decodedOpQuery requestId responseTo wireBytes flags name summary compressed := by
  unfold decodeOpQuery at h
  split at h
  · cases h
  · dsimp only [bind, Except.bind] at h
    split at h
    · cases h
    · rename_i flags hflags
      split at h
      · cases h
      · rename_i key hkey
        split at h
        · cases h
        · split at h
          · cases h
          · rename_i summary hsummary
            exact ⟨flags, key.1, key.2, summary, hkey, (Except.ok.inj h).symm⟩

/-- An ordinary query is a `find` that carries no authentication. -/
theorem isOrdinaryQuery_command {frame : Bytes} {message : DecodedMessage} {command : MongoCommand}
    (hordinary : isOrdinaryQuery codecs frame = true)
    (hok : decodeFrame codecs frame maxMessageBytes = .ok message)
    (hcommand : message.command = some command) :
    command.name = "find" ∧ command.speculativeAuth = false := by
  unfold isOrdinaryQuery at hordinary
  split at hordinary
  · cases hordinary
  · rename_i payload hpayload
    split at hordinary
    · cases hordinary
    · rename_i name afterNamespace hname
      obtain ⟨requestId, responseTo, -, -, hdecoded⟩ :=
        decodeFrame_payload (by decide) hpayload hok
      change decodeOpQuery requestId responseTo frame.length payload _ = _ at hdecoded
      obtain ⟨flags, other, _, summary, hother, rfl⟩ := decodeOpQuery_eq_ok hdecoded
      cases hname.symm.trans hother
      change (if responseTo ≠ 0 then none else opQueryCommand name summary) = _ at hcommand
      split at hcommand
      · cases hcommand
      · unfold opQueryCommand at hcommand
        rw [Bool.not_eq_true'] at hordinary
        dsimp only at hcommand
        rw [hordinary] at hcommand
        cases hcommand
        exact ⟨rfl, rfl⟩

/-- The requests tracked as ordinary queries are finds that carry no authentication. -/
def Tracked (p : EventProcessor) (queries : PendingKey → Bool) : Prop :=
  ∀ key request, queries key = true → p.pending.get? key = some request →
    request.command.name = "find" ∧ request.command.speculativeAuth = false

theorem Tracked.processFrame (h : Tracked p queries) (input : FrameInput) :
    Tracked (p.processFrame lib codecs maxMessageBytes input).1
      (trackQueries codecs maxMessageBytes queries input) := by
  unfold EventProcessor.processFrame trackQueries
  cases hok : decodeFrame codecs input.frame maxMessageBytes with
  | error e => exact h
  | ok message =>
    dsimp only
    rcases p.processMessage_cases lib input.host input.raw input.truncated message with
      ⟨heq, hcommand, -⟩ | ⟨command, hrequest, hcommand, hmore, heq⟩ |
      ⟨command, -, -, hmore, heq⟩ | ⟨request, hreply, -, heq⟩
    · rw [heq]
      rw [if_neg fun hopens => ?_]
      · exact h
      · rw [hcommand hopens.1] at hopens
        cases hopens.2.1
    · rw [heq, if_pos ⟨hrequest, by rw [hcommand]; rfl, hmore⟩]
      intro key request hkey hget
      dsimp only at hkey hget
      by_cases hsame : key = input.key message.requestId
      · rw [if_pos hsame] at hkey
        rw [hsame, FrameInput.key, Table.get?_insert_self] at hget
        rw [← Option.some.inj hget]
        have hfind := isOrdinaryQuery_command hkey hok hcommand
        exact hfind
      · rw [if_neg hsame] at hkey
        unfold FrameInput.key at hsame
        rw [Table.get?_insert_of_ne _ _ hsame] at hget
        have hkept := get?_prunedPending _ _ _ hget
        rw [openRequest_pending] at hkept
        exact h key request hkey hkept
    · rw [heq, if_neg fun hopens => ?_]
      · intro key request hkey hget
        rw [eventsForCompletedRequest_pending, openRequest_pending] at hget
        exact h key request hkey hget
      · cases hmore.symm.trans hopens.2.2
    · rw [heq, if_neg fun hopens => hreply hopens.1]
      intro key request hkey hget
      rw [eventsForCompletedRequest_pending, Table.get?_erase] at hget
      split at hget
      · cases hget
      · exact h key request hkey hget

end Queries

/-! ### Replies -/

section Replies

variable {lib : External} {codecs : Decompressors} {maxMessageBytes : ℕ} {p : EventProcessor}
  {queries : PendingKey → Bool} {input input' : FrameInput}

/-- The activity of an answered request, as an event. -/
private def answerEvent (lib : External) (p : EventProcessor) (request : PendingRequest)
    (message : DecodedMessage) (durationUs : ℕ) : EventProcessor × DamEvent :=
  let activity := p.activityOf request (some (message, durationUs))
  p.eventFromSeed lib (activitySeed request.seed activity) (.mongodbActivity activity)

/-- The answer to a find is one activity, and changes nothing but the sequence number. -/
private theorem processMessage_find (host : Host) {raw : KernelEvent} (truncated : Bool)
    {message : DecodedMessage} {request : PendingRequest}
    (hwaiting : p.waiting raw.key message.responseTo = some request)
    (hname : request.command.name = "find") (hspeculative : request.command.speculativeAuth = false)
    (hresponse : message.responseTo ≠ 0) :
    p.processMessage lib host raw truncated message =
      Prod.map id ([·]) (answerEvent lib
        { p with pending := p.pending.erase (raw.tgid, raw.connectionKey, message.responseTo) }
        request message ((raw.timestampNs - request.seed.monotonicTimestampNs) / 1000)) := by
  have hcarries : commandCarriesAuthentication request.command = false := by
    unfold commandCarriesAuthentication
    rw [hname, hspeculative]
    decide +kernel
  have hauth : (isAuthCommand request.command.name || request.command.speculativeAuth) = false := by
    rw [hname, hspeculative]
    decide +kernel
  have hget : p.pending.get? (raw.tgid, raw.connectionKey, message.responseTo) = some request :=
    hwaiting
  unfold processMessage
  rw [if_neg hresponse]
  dsimp only
  rw [hget]
  dsimp only
  unfold eventsForCompletedRequest reportCompleted
  rw [hcarries, hauth]
  rfl

/-- Answers to a request make the same event when they report the same outcome. -/
private theorem answerEvent_eq_iff {request : PendingRequest} {message message' : DecodedMessage}
    (hrequestId : message'.requestId = message.requestId)
    (hwireBytes : message'.wireBytes = message.wireBytes) (durationUs : ℕ) :
    (answerEvent lib p request message durationUs).2 =
        (answerEvent lib p request message' durationUs).2 ↔
      reportedOutcome message = reportedOutcome message' := by
  have hactivity : p.activityOf request (some (message, durationUs)) =
      p.activityOf request (some (message', durationUs)) ↔
        reportedOutcome message = reportedOutcome message' := by
    unfold activityOf reportedOutcome
    simp only [Option.bind_some, Option.map_some, hrequestId, hwireBytes,
      MongodbActivity.mk.injEq, Prod.mk.injEq]
    tauto
  rw [← hactivity]
  constructor
  · intro hevent
    exact EventPayload.mongodbActivity.inj (congrArg DamEvent.payload hevent)
  · intro hsame
    unfold answerEvent
    rw [hsame]

/-- What a decoded legacy reply tells. -/
private theorem decodeFrame_reply {frame payload : Bytes} {message : DecodedMessage}
    (hpayload : framePayload codecs OP_REPLY frame = some payload)
    (hok : decodeFrame codecs frame maxMessageBytes = .ok message) :
    readI32 frame 4 = .ok message.requestId ∧ readI32 frame 8 = .ok message.responseTo ∧
      message.wireBytes = saturateU32 frame.length ∧ message.command = none ∧
      reportedOutcome message = Prod.map some id (replyOutcome payload) := by
  obtain ⟨requestId, responseTo, hrequestId, hresponseTo, hdecoded⟩ :=
    decodeFrame_payload (by decide) hpayload hok
  change decodeOpReply requestId responseTo frame.length payload _ = _ at hdecoded
  obtain ⟨rfl, rfl, hwireBytes, hcommand, houtcome⟩ := decodeOpReply_outcome hdecoded
  exact ⟨hrequestId, hresponseTo, hwireBytes, hcommand, houtcome⟩

/-- A message that answers nothing and has no command has no effect. -/
private theorem processMessage_nothing (host : Host) (raw : KernelEvent) (truncated : Bool)
    {message : DecodedMessage} (hresponse : message.responseTo = 0)
    (hcommand : message.command = none) :
    p.processMessage lib host raw truncated message = (p, []) := by
  unfold processMessage
  rw [if_pos hresponse, hcommand]

/-- Two answers to a waiting find lead to the same state, and to the same events exactly when they
report the same outcome. -/
private theorem processMessage_answer (host : Host) {raw raw' : KernelEvent} (truncated : Bool)
    {message message' : DecodedMessage} {request : PendingRequest}
    (hraw : raw'.key = raw.key ∧ raw'.timestampNs = raw.timestampNs)
    (hwaiting : p.waiting raw.key message.responseTo = some request)
    (hname : request.command.name = "find") (hspeculative : request.command.speculativeAuth = false)
    (hresponse : message.responseTo ≠ 0) (hresponseTo : message'.responseTo = message.responseTo)
    (hrequestId : message'.requestId = message.requestId)
    (hwireBytes : message'.wireBytes = message.wireBytes) :
    (p.processMessage lib host raw' truncated message').1 =
        (p.processMessage lib host raw truncated message).1 ∧
      (p.processMessage lib host raw' truncated message').2.length =
        (p.processMessage lib host raw truncated message).2.length ∧
      ((p.processMessage lib host raw truncated message).2 =
          (p.processMessage lib host raw' truncated message').2 ↔
        reportedOutcome message = reportedOutcome message') := by
  obtain ⟨hkey, htimestamp⟩ := hraw
  have hfirst : p.processMessage lib host raw truncated message = _ :=
    processMessage_find host truncated hwaiting hname hspeculative hresponse
  have hsecond : p.processMessage lib host raw' truncated message' = _ :=
    processMessage_find host truncated (by rw [hkey, hresponseTo]; exact hwaiting) hname
      hspeculative
      (by rw [hresponseTo]; exact hresponse)
  rw [show raw'.tgid = raw.tgid from congrArg Prod.fst hkey,
    show raw'.connectionKey = raw.connectionKey from congrArg Prod.snd hkey, hresponseTo,
    htimestamp] at hsecond
  rw [hfirst, hsecond]
  exact ⟨rfl, rfl, List.singleton_inj.trans (answerEvent_eq_iff hrequestId hwireBytes _)⟩

private theorem exists_of_isOk {α ε : Type} {x : Except ε α} (h : x.isOk) : ∃ a, x = .ok a := by
  cases x with
  | error e => cases h
  | ok a => exact ⟨a, rfl⟩

/-- Replies to a find that differ in their documents lead to the same state, and to the same
events exactly when they tell the same. -/
theorem processFrame_reply (htracked : Tracked p queries)
    (hanswers : AnswersQuery p queries input)
    (hok : (decodeFrame codecs input.frame maxMessageBytes).isOk)
    (hok' : (decodeFrame codecs input'.frame maxMessageBytes).isOk)
    (hdocuments : SameButDocuments codecs input input') :
    (p.processFrame lib codecs maxMessageBytes input').1 =
        (p.processFrame lib codecs maxMessageBytes input).1 ∧
      (p.processFrame lib codecs maxMessageBytes input').2.length =
        (p.processFrame lib codecs maxMessageBytes input).2.length ∧
      ((p.processFrame lib codecs maxMessageBytes input).2 =
          (p.processFrame lib codecs maxMessageBytes input').2 ↔
        TellSame codecs input.frame input'.frame) := by
  obtain ⟨message, hmessage⟩ := exists_of_isOk hok
  obtain ⟨message', hmessage'⟩ := exists_of_isOk hok'
  obtain ⟨payload, payload', hpayload, hpayload', -, -⟩ := hdocuments.payloads
  obtain ⟨hrequestId, hresponseTo, hwireBytes, hcommand, houtcome⟩ :=
    decodeFrame_reply hpayload hmessage
  obtain ⟨hrequestId', hresponseTo', hwireBytes', hcommand', houtcome'⟩ :=
    decodeFrame_reply hpayload' hmessage'
  have hheader : ∀ offset, offset + 4 ≤ 16 →
      readI32 input'.frame offset = readI32 input.frame offset := by
    intro offset hoffset
    have hlength := (decodeFrame_length hmessage).1
    have hlength' := (decodeFrame_length hmessage').1
    rw [← readI32_take (n := 16) (by rw [List.length_take]; omega), hdocuments.header,
      readI32_take (by rw [List.length_take]; omega)]
  have hsameId : message'.requestId = message.requestId :=
    Except.ok.inj (hrequestId'.symm.trans ((hheader 4 (by omega)).trans hrequestId))
  have hsameResponse : message'.responseTo = message.responseTo :=
    Except.ok.inj (hresponseTo'.symm.trans ((hheader 8 (by omega)).trans hresponseTo))
  have hsameBytes : message'.wireBytes = message.wireBytes := by
    rw [hwireBytes, hwireBytes', hdocuments.length]
  obtain ⟨data, hdata, hraw⟩ := hdocuments.raw
  unfold EventProcessor.processFrame TellSame
  rw [hmessage, hmessage', hdocuments.host, hdocuments.truncated]
  dsimp only
  by_cases hzero : message.responseTo = 0
  · rw [processMessage_nothing _ _ _ hzero hcommand,
      processMessage_nothing _ _ _ (hsameResponse.trans hzero) hcommand', hresponseTo, hzero]
    exact ⟨rfl, rfl, iff_of_true rfl (Or.inl rfl)⟩
  · obtain ⟨responseTo, hanswered, hquery, hwaiting⟩ := hanswers
    cases hresponseTo.symm.trans hanswered
    obtain ⟨request, hrequest⟩ := Option.isSome_iff_exists.mp hwaiting
    obtain ⟨hname, hspeculative⟩ := htracked _ request hquery hrequest
    obtain ⟨hstate, hlength, hevents⟩ := @processMessage_answer lib p input.host input.raw
      input'.raw input.truncated message message' request (by rw [hraw]; exact ⟨rfl, rfl⟩) hrequest
      hname hspeculative hzero hsameResponse hsameId hsameBytes
    refine ⟨hstate, hlength, hevents.trans ?_⟩
    rw [houtcome, houtcome', hresponseTo, or_iff_right (fun h => hzero (Except.ok.inj h))]
    constructor
    · intro hsame _ _ hfirst hsecond
      cases hpayload.symm.trans hfirst
      cases hpayload'.symm.trans hsecond
      obtain ⟨hok, hrest⟩ := Prod.ext_iff.mp hsame
      exact Prod.ext (Option.some.inj hok) hrest
    · intro hsame
      rw [hsame payload payload' hpayload hpayload']

/-! ### Runs -/

private theorem tellSame_refl (codecs : Decompressors) (frame : Bytes) :
    TellSame codecs frame frame := by
  refine Or.inr fun payload payload' hpayload hpayload' => ?_
  cases hpayload.symm.trans hpayload'
  rfl

/-- Runs that differ in replies to tracked queries only emit the same events exactly when all
these replies tell the same, and end in the same state. -/
theorem runFrames_replies {inputs inputs' : List FrameInput} (htracked : Tracked p queries)
    (h : SameButReplies lib codecs maxMessageBytes p queries inputs inputs') :
    (p.runFrames lib codecs maxMessageBytes inputs').1 =
        (p.runFrames lib codecs maxMessageBytes inputs).1 ∧
      ((p.runFrames lib codecs maxMessageBytes inputs).2 =
          (p.runFrames lib codecs maxMessageBytes inputs').2 ↔
        List.Forall₂ (fun input input' => TellSame codecs input.frame input'.frame)
          inputs inputs') := by
  induction h with
  | nil => exact ⟨rfl, iff_of_true rfl .nil⟩
  | @same p queries input rest rest' hrest ih =>
    obtain ⟨hstate, hevents⟩ := ih (htracked.processFrame input)
    refine ⟨hstate, ?_⟩
    rw [List.forall₂_cons, and_iff_right (tellSame_refl codecs input.frame), ← hevents]
    exact List.append_right_inj _
  | @reply p queries input input' rest rest' hanswers hok hok' hdocuments hrest ih =>
    obtain ⟨hstate, hevents⟩ := ih (htracked.processFrame input)
    obtain ⟨hsame, hlength, hfirst⟩ :=
      @processFrame_reply lib _ _ _ _ _ _ htracked hanswers hok hok' hdocuments
    unfold EventProcessor.runFrames
    dsimp only
    rw [hsame, List.forall₂_cons, ← hevents, ← hfirst]
    refine ⟨hstate, fun h => ?_, fun h => by rw [h.1, h.2]⟩
    exact List.append_inj h hlength.symm

end Replies

/-- Two runs that differ in the documents returned for ordinary queries emit the same events
exactly when, reply by reply, the documents tell the same outcome. -/
theorem replyContents_noninterference {lib : External} {codecs : Decompressors}
    {maxMessageBytes : ℕ} {p : EventProcessor} {inputs inputs' : List FrameInput}
    (h : SameButReplies lib codecs maxMessageBytes p (fun _ => false) inputs inputs') :
    (p.runFrames lib codecs maxMessageBytes inputs).2 =
        (p.runFrames lib codecs maxMessageBytes inputs').2 ↔
      List.Forall₂ (fun input input' => TellSame codecs input.frame input'.frame)
        inputs inputs' :=
  (runFrames_replies (fun _ _ hquery => absurd hquery Bool.false_ne_true) h).2

/-- A legacy query on the collection `t`. -/
def queryInput : FrameInput where
  host := .silent
  raw := .ofChunk 1000 7 8 0 []
  truncated := false
  frame := encodeOpQuery 1 "d.t" (encodeDocument [])

/-- Its reply with one document, of one integer. -/
def replyInput (key : String) (value : ℕ) : FrameInput where
  host := .silent
  raw := .ofChunk 2000 7 8 1 []
  truncated := false
  frame := encodeOpReply 2 1 8 [encodeDocument (encodeInt32 key value)]

/-- A run of the query and its reply. -/
def queryRun (key : String) (value : ℕ) : EventProcessor × List DamEvent :=
  (EventProcessor.new .sample).runFrames (.ofDigests sampleDigests) .rejecting 1000
    [queryInput, replyInput key value]

/-- Documents without status keys are not seen. -/
theorem queryRun_unseen : (queryRun "a" 5).2 = (queryRun "a" 7).2 := by
  have hanswers : AnswersQuery ((EventProcessor.new .sample).processFrame (.ofDigests sampleDigests)
      .rejecting 1000 queryInput).1 (trackQueries .rejecting 1000 (fun _ => false) queryInput)
      (replyInput "a" 5) := by
    refine ⟨1, ?_, ?_, ?_⟩ <;> decide +kernel
  have hpayload : framePayload .rejecting OP_REPLY (replyInput "a" 5).frame =
      some ((replyInput "a" 5).frame.drop 16) := by
    decide +kernel
  have hpayload' : framePayload .rejecting OP_REPLY (replyInput "a" 7).frame =
      some ((replyInput "a" 7).frame.drop 16) := by
    decide +kernel
  have hdocuments : SameButDocuments .rejecting (replyInput "a" 5) (replyInput "a" 7) :=
    ⟨rfl, rfl, ⟨_, _, rfl⟩, by decide +kernel, by decide +kernel,
      ⟨_, _, hpayload, hpayload', by decide +kernel, by decide +kernel⟩⟩
  refine (replyContents_noninterference
    (.same (.reply hanswers (by decide +kernel) (by decide +kernel) hdocuments .nil))).mpr
      (.cons (tellSame_refl _ _) (.cons (Or.inr fun payload payload' h h' => ?_) .nil))
  cases hpayload.symm.trans h
  cases hpayload'.symm.trans h'
  decide +kernel

/-- A code in a document of the collection is reported as the error of the query. -/
theorem queryRun_leaks :
    SameButReplies (.ofDigests sampleDigests) .rejecting 1000 (EventProcessor.new .sample)
        (fun _ => false) [queryInput, replyInput "code" 5] [queryInput, replyInput "code" 7] ∧
      (EventProcessor.new .sample).config.captureQueryContent = false ∧
      isOrdinaryQuery .rejecting queryInput.frame = true ∧
      ((queryRun "code" 5).2.filterMap DamEvent.activity?).map (·.errorCode) = [some 5] ∧
      ((queryRun "code" 7).2.filterMap DamEvent.activity?).map (·.errorCode) = [some 7] ∧
      (queryRun "code" 5).2 ≠ (queryRun "code" 7).2 := by
  have hanswers : AnswersQuery ((EventProcessor.new .sample).processFrame (.ofDigests sampleDigests)
      .rejecting 1000 queryInput).1 (trackQueries .rejecting 1000 (fun _ => false) queryInput)
      (replyInput "code" 5) := by
    refine ⟨1, ?_, ?_, ?_⟩ <;> decide +kernel
  have hpayload : framePayload .rejecting OP_REPLY (replyInput "code" 5).frame =
      some ((replyInput "code" 5).frame.drop 16) := by
    decide +kernel
  have hpayload' : framePayload .rejecting OP_REPLY (replyInput "code" 7).frame =
      some ((replyInput "code" 7).frame.drop 16) := by
    decide +kernel
  have hdocuments : SameButDocuments .rejecting (replyInput "code" 5) (replyInput "code" 7) :=
    ⟨rfl, rfl, ⟨_, _, rfl⟩, by decide +kernel, by decide +kernel,
      ⟨_, _, hpayload, hpayload', by decide +kernel, by decide +kernel⟩⟩
  have hfive :
      ((queryRun "code" 5).2.filterMap DamEvent.activity?).map (·.errorCode) = [some 5] := by
    decide +kernel
  have hseven :
      ((queryRun "code" 7).2.filterMap DamEvent.activity?).map (·.errorCode) = [some 7] := by
    decide +kernel
  refine ⟨.same (.reply hanswers (by decide +kernel) (by decide +kernel) hdocuments .nil), rfl,
    by decide +kernel, hfive, hseven, fun hsame => ?_⟩
  rw [hsame, hseven] at hfive
  cases hfive

end MongoDam.Observer
