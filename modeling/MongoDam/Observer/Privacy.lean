import MongoDam.Observer.Runs
import MongoDam.Protocol.Documents
import MongoDam.Protocol.NonInterference

/-!
# Query content does not reach metadata-only events

Frames that differ only in bytes no summary reads are decoded alike, up to the query
of the command. While query capture is off, the processor stores the query of a waiting request but
never reads it, and of a principal it reads the salted hash only. Two runs over
messages that differ in these alone emit the same events and end in the same state,
up to the stored queries.
-/

namespace MongoDam.Observer

open Lib Schema Protocol EventProcessor

/-- What the processor may see of a command: everything but its query, with the
principal hashed. -/
def commandMetadata (lib : External) (salt : Option String) (command : MongoCommand) :
    MongoCommand × Option String :=
  (eraseQuery (takeHashedPrincipal lib command salt).1, (takeHashedPrincipal lib command salt).2)

/-- The messages differ at most in the query of their commands, and in principals
with the same salted hash. -/
def SameMetadata (lib : External) (salt : Option String) (message message' : DecodedMessage) :
    Prop :=
  { message with command := none } = { message' with command := none } ∧
    message.command.map (commandMetadata lib salt) = message'.command.map (commandMetadata lib salt)

/-- A waiting request without its query. -/
def PendingRequest.eraseQuery (request : PendingRequest) : PendingRequest :=
  { request with command := Protocol.eraseQuery request.command }

/-- The processor with another table of pending requests. -/
def EventProcessor.withPending (p : EventProcessor) (pending : Table PendingKey PendingRequest) :
    EventProcessor :=
  { p with pending }

/-- The processor without the queries it stores. -/
def EventProcessor.eraseQueries (p : EventProcessor) : EventProcessor :=
  p.withPending (p.pending.mapVal PendingRequest.eraseQuery)

/-- One call of `processMessage`. -/
structure MessageInput where
  host : Host
  raw : KernelEvent
  truncated : Bool
  message : DecodedMessage

/-- The calls differ at most in what `SameMetadata` allows. -/
def SameInput (lib : External) (salt : Option String) (input input' : MessageInput) : Prop :=
  input.host = input'.host ∧ input.raw = input'.raw ∧ input.truncated = input'.truncated ∧
    SameMetadata lib salt input.message input'.message

namespace EventProcessor

/-- A run of `processMessage`. -/
def runMessages (lib : External) :
    EventProcessor → List MessageInput → EventProcessor × List DamEvent
  | p, [] => (p, [])
  | p, input :: rest =>
    let (p, events) := p.processMessage lib input.host input.raw input.truncated input.message
    let (p, more) := runMessages lib p rest
    (p, events ++ more)

variable {lib : External} {p : EventProcessor} {host : Host} {raw : KernelEvent}

/-! ### Operations that do not read the pending requests -/

private theorem socketEndpoints_withPending (p : EventProcessor) (host : Host)
    (pending : Table PendingKey PendingRequest) (tgid : ℕ) (fd : ℤ) :
    (p.withPending pending).socketEndpoints host tgid fd =
      Prod.map (·.withPending pending) id (p.socketEndpoints host tgid fd) := by
  unfold socketEndpoints
  dsimp only [withPending]
  split
  · rfl
  · split <;> rfl

private theorem updateConnection_withPending (p : EventProcessor)
    (pending : Table PendingKey PendingRequest) (key : ConnectionKey)
    (f : ConnectionState → ConnectionState) :
    (p.withPending pending).updateConnection key f =
      (p.updateConnection key f).withPending pending := rfl

private theorem connectionMetadata_withPending (p : EventProcessor) (host : Host)
    (raw : KernelEvent) (pending : Table PendingKey PendingRequest) :
    (p.withPending pending).connectionMetadata host raw =
      Prod.map (·.withPending pending) id (p.connectionMetadata host raw) := by
  by_cases hfd : 0 ≤ raw.fd
  · simp only [connectionMetadata, updateConnection_withPending, socketEndpoints_withPending, hfd,
      if_true]
    rfl
  · simp only [connectionMetadata, updateConnection_withPending, hfd, if_false]
    rfl

private theorem openRequest_withPending (p : EventProcessor) (host : Host) (raw : KernelEvent)
    (truncated : Bool) (message : DecodedMessage) (command : MongoCommand)
    (pending : Table PendingKey PendingRequest) :
    (p.withPending pending).openRequest lib host raw truncated message command =
      Prod.map (·.withPending pending) id
        (p.openRequest lib host raw truncated message command) := by
  simp only [openRequest, updateConnection_withPending, connectionMetadata_withPending]
  rfl

private theorem reportCompleted_eraseQuery (lib : External) (p : EventProcessor)
    (hcapture : p.config.captureQueryContent = false)
    (pending : Table PendingKey PendingRequest) (request : PendingRequest)
    (response : Option (DecodedMessage × ℕ)) (sessionPrincipal : Option String) :
    (p.withPending pending).reportCompleted lib request.eraseQuery response sessionPrincipal =
      Prod.map (·.withPending pending) id
        (p.reportCompleted lib request response sessionPrincipal) := by
  have hactivity : (p.withPending pending).activityOf request.eraseQuery response =
      p.activityOf request response := by
    simp only [activityOf, withPending, hcapture, Bool.false_eq_true, if_false]
    rfl
  have hname : request.eraseQuery.command.name = request.command.name := rfl
  have hspeculative : request.eraseQuery.command.speculativeAuth =
      request.command.speculativeAuth := rfl
  unfold reportCompleted
  rw [hactivity, hname, hspeculative]
  dsimp only
  split <;> rfl

/-- Completing a request reads its query only to capture it. -/
private theorem eventsForCompletedRequest_eraseQuery (lib : External) (p : EventProcessor)
    (hcapture : p.config.captureQueryContent = false)
    (pending : Table PendingKey PendingRequest) (request : PendingRequest)
    (response : Option (DecodedMessage × ℕ)) :
    (p.withPending pending).eventsForCompletedRequest lib request.eraseQuery response =
      Prod.map (·.withPending pending) id
        (p.eventsForCompletedRequest lib request response) := by
  have hcarries : commandCarriesAuthentication request.eraseQuery.command =
      commandCarriesAuthentication request.command := rfl
  unfold eventsForCompletedRequest
  rw [hcarries]
  split
  · exact reportCompleted_eraseQuery lib (p.updateConnection _ _) hcapture pending request
      response _
  · exact reportCompleted_eraseQuery lib p hcapture pending request response none

/-! ### Messages -/

private theorem withPending_eq_eraseQueries {pending : Table PendingKey PendingRequest}
    (h : p.pending = pending) :
    p.withPending (pending.mapVal PendingRequest.eraseQuery) = p.eraseQueries := by
  rw [eraseQueries, h]

/-- Without the query of its command, a message has the same effect and leaves the
request without its query. -/
private theorem processMessage_eraseQueries (hcapture : p.config.captureQueryContent = false)
    (truncated : Bool) (message : DecodedMessage) :
    p.eraseQueries.processMessage lib host raw truncated (eraseMessageQuery message) =
      Prod.map eraseQueries id (p.processMessage lib host raw truncated message) := by
  have hreplyTo : (eraseMessageQuery message).responseTo = message.responseTo := rfl
  unfold processMessage
  rw [hreplyTo]
  split
  · cases hcommand : message.command with
    | none =>
      simp only [eraseMessageQuery, hcommand, Option.map_none]
      rfl
    | some command =>
      have hopen : p.eraseQueries.openRequest lib host raw truncated (eraseMessageQuery message)
          (eraseQuery command) = Prod.map
            (·.withPending (p.pending.mapVal PendingRequest.eraseQuery)) PendingRequest.eraseQuery
            (p.openRequest lib host raw truncated message command) :=
        openRequest_withPending p host raw truncated (eraseMessageQuery message)
          (eraseQuery command) (p.pending.mapVal PendingRequest.eraseQuery)
      have hpending := p.openRequest_pending lib host raw truncated message command
      have hconfig := p.openRequest_config lib host raw truncated message command
      rw [show (eraseMessageQuery message).command = some (eraseQuery command) by
        simp only [eraseMessageQuery, hcommand, Option.map_some]]
      dsimp only
      rw [hopen]
      generalize p.openRequest lib host raw truncated message command = opened at hpending hconfig ⊢
      have hexpects : (Prod.map (·.withPending (p.pending.mapVal PendingRequest.eraseQuery))
          PendingRequest.eraseQuery opened).2.expectsResponse = opened.2.expectsResponse := rfl
      rw [hexpects]
      split
      · have hpruned := prunedPending_mapVal host (fun request : PendingRequest =>
          request.seed.monotonicTimestampNs) raw.timestampNs PendingRequest.eraseQuery
          (fun request => request.seed.monotonicTimestampNs) (fun _ => rfl) p.pending
        refine Prod.ext ?_ rfl
        refine congrArg opened.1.withPending ?_
        dsimp only [prunePendingRequests]
        rw [hpending, Table.mapVal_insert, hpruned]
        rfl
      · have hevents := eventsForCompletedRequest_eraseQuery lib opened.1
          (by rw [hconfig]; exact hcapture) (p.pending.mapVal PendingRequest.eraseQuery)
          opened.2 none
        refine Eq.trans hevents (Prod.ext ?_ rfl)
        exact withPending_eq_eraseQueries ((eventsForCompletedRequest_pending ..).trans hpending)
  · have hget : p.eraseQueries.pending.get? (raw.tgid, raw.connectionKey, message.responseTo) =
        (p.pending.get? (raw.tgid, raw.connectionKey, message.responseTo)).map
          PendingRequest.eraseQuery := Table.get?_mapVal ..
    dsimp only
    rw [hget]
    cases p.pending.get? (raw.tgid, raw.connectionKey, message.responseTo) with
    | none => rfl
    | some request =>
      have hevents := eventsForCompletedRequest_eraseQuery lib
        { p with pending := p.pending.erase (raw.tgid, raw.connectionKey, message.responseTo) }
        hcapture ((p.pending.mapVal PendingRequest.eraseQuery).erase
          (raw.tgid, raw.connectionKey, message.responseTo)) request
        (some (message, (raw.timestampNs - request.seed.monotonicTimestampNs) / 1000))
      refine Eq.trans ?_ (hevents.trans (Prod.ext ?_ rfl))
      · rfl
      · rw [Table.erase, ← Table.mapVal_filterKey]
        exact withPending_eq_eraseQueries (eventsForCompletedRequest_pending ..)

/-- Of a principal only the salted hash is read. -/
private theorem processMessage_sameMetadata (truncated : Bool) {message message' : DecodedMessage}
    (h : SameMetadata lib p.config.principalHashSalt message message') :
    p.processMessage lib host raw truncated (eraseMessageQuery message) =
      p.processMessage lib host raw truncated (eraseMessageQuery message') := by
  obtain ⟨hrest, hcommand⟩ := h
  rcases message with ⟨requestId, responseTo, wireBytes, flags, moreToCome, compressed, command,
    status⟩
  rcases message' with ⟨_, _, _, _, _, _, command', _⟩
  cases hrest
  dsimp only at hcommand
  cases command with
  | none =>
    cases command' with
    | none => rfl
    | some command' => cases hcommand
  | some command =>
    cases command' with
    | none => cases hcommand
    | some command' =>
      have hhashed : takeHashedPrincipal lib (eraseQuery command) p.config.principalHashSalt =
          takeHashedPrincipal lib (eraseQuery command') p.config.principalHashSalt :=
        Option.some.inj hcommand
      simp only [processMessage, eraseMessageQuery, Option.map_some, openRequest, hhashed]
      rfl

/-- Runs from states equal up to queries, over messages with the same metadata, emit
the same events and end in states equal up to queries. -/
theorem runMessages_sameMetadata {p p' : EventProcessor} {inputs inputs' : List MessageInput}
    (hcapture : p.config.captureQueryContent = false) (hstates : p.eraseQueries = p'.eraseQueries)
    (h : List.Forall₂ (SameInput lib p.config.principalHashSalt) inputs inputs') :
    (p.runMessages lib inputs).2 = (p'.runMessages lib inputs').2 ∧
      (p.runMessages lib inputs).1.eraseQueries = (p'.runMessages lib inputs').1.eraseQueries := by
  generalize hsalt : p.config.principalHashSalt = salt at h
  induction h generalizing p p' with
  | nil => exact ⟨rfl, hstates⟩
  | @cons input input' rest rest' hinput hrest ih =>
    obtain ⟨host, raw, truncated, message⟩ := input
    obtain ⟨host', raw', truncated', message'⟩ := input'
    obtain ⟨rfl, rfl, rfl, hmessage⟩ := hinput
    have hconfig : p'.config = p.config := (congrArg EventProcessor.config hstates).symm
    have hstep : Prod.map eraseQueries id (p.processMessage lib host raw truncated message) =
        Prod.map eraseQueries id (p'.processMessage lib host raw truncated message') := by
      rw [← processMessage_eraseQueries hcapture,
        ← processMessage_eraseQueries (hconfig ▸ hcapture),
        ← hstates]
      exact processMessage_sameMetadata truncated (hsalt ▸ hmessage)
    obtain ⟨hafter, hevents⟩ := Prod.ext_iff.mp hstep
    dsimp only [Prod.map_fst, Prod.map_snd, id] at hafter hevents
    have hconfigAfter : (p.processMessage lib host raw truncated message).1.config = p.config :=
      processMessage_config ..
    obtain ⟨hmore, hend⟩ := ih (hconfigAfter ▸ hcapture) hafter (hconfigAfter ▸ hsalt)
    simp only [runMessages]
    exact ⟨by rw [hevents, hmore], hend⟩

end EventProcessor

/-! ### Encoded commands -/

/-- The element has the same key, and the same value or one of the same type and size that no
summary reads. -/
def SameUnread (element element' : Cstring × BsonValue) : Prop :=
  element.1 = element'.1 ∧ element.2.elementType = element'.2.elementType ∧
    element.2.encode.length = element'.2.encode.length ∧
    (element.2 = element'.2 ∨ element.1.text ∉ summaryKeys)

section Encoded

variable {first : Cstring × BsonValue} {elements elements' : BsonElements}

private theorem elementsSimilar_encode (h : List.Forall₂ SameUnread elements elements')
    (hfits : (BsonValue.encodeElements elements).length < 2 ^ 31) :
    ElementsSimilar false (BsonValue.encodeElements elements)
      (BsonValue.encodeElements elements') := by
  induction h with
  | nil => exact .same _ _
  | @cons element element' rest rest' hsame _ ih =>
    obtain ⟨key, value⟩ := element
    obtain ⟨key', value'⟩ := element'
    obtain ⟨hkey, htype, hlength, hunread⟩ := hsame
    dsimp only at hkey htype hlength hunread
    subst hkey
    rw [encodeElements_cons, List.length_append, List.length_append] at hfits
    have hvalue := isValue_encode (by omega : value.encode.length < 2 ^ 31)
    have hvalue' := isValue_encode (by omega : value'.encode.length < 2 ^ 31)
    rw [← htype] at hvalue'
    rw [encodeElements_cons, encodeElements_cons, lead, lead, ← htype]
    exact .element (isKey_toUtf8 key) hvalue hvalue' hlength
      (hunread.imp (congrArg BsonValue.encode) fun hkey => ⟨rfl, hkey⟩) (ih (by omega))

private theorem documentSimilar_encode {elements elements' : Bytes}
    (h : ElementsSimilar true elements elements') (hfits : elements.length + 5 < 2 ^ 31) :
    DocumentSimilar (encodeDocument elements) (encodeDocument elements') := by
  have hread : readI32 (leBytes 4 (elements.length + 5)) 0 =
      .ok ((elements.length + 5 : ℕ) : ℤ) := by
    rw [← List.append_nil (leBytes 4 (elements.length + 5))]
    exact readI32_leBytes hfits []
  rw [encodeDocument, encodeDocument, ← h.length_eq, List.append_assoc, List.append_assoc]
  exact .intro (leBytes_length 4 _) hread h

private theorem frameSimilar_encode {sections sections' : Bytes}
    (h : SectionsSimilar sections sections') (hfits : sections.length + 20 < 2 ^ 31)
    (requestId responseTo flags : ℕ) :
    FrameSimilar (encodeOpMsg requestId responseTo flags sections)
      (encodeOpMsg requestId responseTo flags sections') := by
  have hlength : (leBytes 4 (sections.length + 20) ++ leBytes 4 requestId ++
      leBytes 4 responseTo ++ leBytes 4 OP_MSG.toNat).length = 16 := by
    simp only [List.length_append, leBytes_length]
  have hdeclared : readI32 (leBytes 4 (sections.length + 20) ++ leBytes 4 requestId ++
      leBytes 4 responseTo ++ leBytes 4 OP_MSG.toNat) 0 =
        .ok ((20 + sections.length : ℕ) : ℤ) := by
    simp only [List.append_assoc]
    rw [readI32_leBytes hfits, Nat.add_comm]
  have hopcode : readI32 (leBytes 4 (sections.length + 20) ++ leBytes 4 requestId ++
      leBytes 4 responseTo ++ leBytes 4 OP_MSG.toNat) 12 = .ok OP_MSG := by
    have hbehind := readI32_behind (leBytes 4 (sections.length + 20) ++ leBytes 4 requestId ++
      leBytes 4 responseTo) [] (by decide : OP_MSG.toNat < 2 ^ 31)
    simp only [List.length_append, leBytes_length, List.append_nil] at hbehind
    exact hbehind
  rw [encodeOpMsg, encodeOpMsg, ← h.length_eq, List.append_assoc,
    List.append_assoc _ (leBytes 4 flags)]
  exact .intro hlength (leBytes_length 4 _) hdeclared hopcode h

/-- A command from its elements. -/
def encodeCommand (requestId responseTo flags : ℕ) (elements : BsonElements) : Bytes :=
  encodeOpMsg requestId responseTo flags (encodeBody (BsonValue.encodeElements elements))

/-- Values of a command that no summary reads, behind its first element, reach nothing but its
query. -/
theorem decodeFrame_encodeCommand (h : List.Forall₂ SameUnread elements elements')
    (requestId responseTo flags : ℕ)
    (hfits : (encodeCommand requestId responseTo flags (first :: elements)).length < 2 ^ 31)
    (codecs : Decompressors) (maxMessageBytes : ℕ) :
    (decodeFrame codecs (encodeCommand requestId responseTo flags (first :: elements))
        maxMessageBytes).map eraseMessageQuery =
      (decodeFrame codecs (encodeCommand requestId responseTo flags (first :: elements'))
        maxMessageBytes).map eraseMessageQuery ∧
    ∀ n, (decodeFramePrefix codecs
        ((encodeCommand requestId responseTo flags (first :: elements)).take n)
        maxMessageBytes).map eraseMessageQuery =
      (decodeFramePrefix codecs
        ((encodeCommand requestId responseTo flags (first :: elements')).take n)
        maxMessageBytes).map eraseMessageQuery := by
  obtain ⟨key, value⟩ := first
  have hlength : (encodeCommand requestId responseTo flags ((key, value) :: elements)).length =
      (BsonValue.encodeElements ((key, value) :: elements)).length + 26 := by
    simp only [encodeCommand, encodeOpMsg, encodeBody, List.length_append, leBytes_length,
      List.length_cons, encodeDocument_length]
    omega
  have hparts := congrArg List.length (encodeElements_cons key value elements)
  rw [List.length_append, List.length_append] at hparts
  have hbehind := elementsSimilar_encode h (by omega)
  have helements : ElementsSimilar true (BsonValue.encodeElements ((key, value) :: elements))
      (BsonValue.encodeElements ((key, value) :: elements')) := by
    have hvalue := isValue_encode (by omega : value.encode.length < 2 ^ 31)
    rw [encodeElements_cons, encodeElements_cons, lead]
    exact .element (isKey_toUtf8 key) hvalue hvalue rfl (.inl rfl) hbehind
  have hsections := SectionsSimilar.body (documentSimilar_encode helements (by omega)) (.same [])
  rw [List.append_nil, List.append_nil] at hsections
  have hframe : FrameSimilar (encodeCommand requestId responseTo flags ((key, value) :: elements))
      (encodeCommand requestId responseTo flags ((key, value) :: elements')) := by
    refine frameSimilar_encode hsections ?_ requestId responseTo flags
    rw [List.length_cons, encodeDocument_length]
    omega
  exact ⟨decodeFrame_similar hframe codecs maxMessageBytes,
    decodeFramePrefix_similar hframe codecs maxMessageBytes⟩

end Encoded

/-- Skipped bytes reach nothing but the query of a decoded command, of a whole frame and
of its captured beginning; and while query capture is off, queries and principals with
the same hash reach neither the events nor the state beyond the stored queries. -/
theorem metadata_noninterference :
    (∀ (codecs : Decompressors) (frame frame' : Bytes) (maxMessageBytes : ℕ),
      FrameSimilar frame frame' →
        (decodeFrame codecs frame maxMessageBytes).map eraseMessageQuery =
            (decodeFrame codecs frame' maxMessageBytes).map eraseMessageQuery ∧
          ∀ n, (decodeFramePrefix codecs (frame.take n) maxMessageBytes).map eraseMessageQuery =
            (decodeFramePrefix codecs (frame'.take n) maxMessageBytes).map eraseMessageQuery) ∧
      ∀ (lib : External) (p p' : EventProcessor) (inputs inputs' : List MessageInput),
        p.config.captureQueryContent = false → p.eraseQueries = p'.eraseQueries →
        List.Forall₂ (SameInput lib p.config.principalHashSalt) inputs inputs' →
          (p.runMessages lib inputs).2 = (p'.runMessages lib inputs').2 ∧
            (p.runMessages lib inputs).1.eraseQueries =
              (p'.runMessages lib inputs').1.eraseQueries := by
  constructor
  · intro codecs frame frame' maxMessageBytes h
    exact ⟨decodeFrame_similar h codecs maxMessageBytes,
      decodeFramePrefix_similar h codecs maxMessageBytes⟩
  · intro lib p p' inputs inputs' hcapture hstates hinputs
    exact runMessages_sameMetadata hcapture hstates hinputs

/-- A find with a filter. -/
def filterFrame (text : String) : Bytes :=
  encodeOpMsg 1 0 0 (encodeBody (encodeString "find" "t" ++ encodeString "filter" text))

/-- The message of `filterFrame`. -/
def filterMessage (text : String) : DecodedMessage where
  requestId := 1
  responseTo := 0
  wireBytes := 52
  flags := 0
  moreToCome := false
  compressed := false
  command := some
    { name := "find"
      collection := some "t"
      query := some (.object [("filter", .string text), ("find", .string "t")]) }
  status := none

/-- Frames that differ in a filter are similar. -/
private theorem filterFrame_similar : FrameSimilar (filterFrame "a") (filterFrame "b") := by
  have hfilter : ElementsSimilar false
      (0x02 :: [102, 105, 108, 116, 101, 114, 0] ++ ([2, 0, 0, 0, 97, 0] ++ []))
      (0x02 :: [102, 105, 108, 116, 101, 114, 0] ++ ([2, 0, 0, 0, 98, 0] ++ [])) :=
    @ElementsSimilar.element _ _ _ _ _ _ _ "filter" (by decide +kernel) (by decide +kernel)
      (by decide +kernel) rfl (Or.inr ⟨rfl, by decide +kernel⟩) (.same _ _)
  have helements := @ElementsSimilar.element true 0x02 [102, 105, 110, 100, 0] [2, 0, 0, 0, 116, 0]
    [2, 0, 0, 0, 116, 0] _ _ "find" (by decide +kernel) (by decide +kernel) (by decide +kernel) rfl
    (Or.inl rfl) hfilter
  have hdocument := @DocumentSimilar.intro [31, 0, 0, 0] _ _ 0 rfl (by decide +kernel) helements
  have hframe :=
    @FrameSimilar.intro [52, 0, 0, 0, 1, 0, 0, 0, 0, 0, 0, 0, 221, 7, 0, 0] [0, 0, 0, 0]
    _ _ rfl rfl (by decide +kernel) (by decide +kernel) (.body hdocument (.same []))
  refine Eq.mpr (congrArg₂ FrameSimilar ?_ ?_) hframe
  · decide +kernel
  · decide +kernel

/-- Finds with different filters: their decoded beginnings agree up to the query, and
runs over them emit the same events and end in the same state up to the query. -/
theorem filterFrame_noninterference :
    FrameSimilar (filterFrame "a") (filterFrame "b") ∧
      decodeFrame .rejecting (filterFrame "a") 1000 = .ok (filterMessage "a") ∧
      decodeFrame .rejecting (filterFrame "b") 1000 = .ok (filterMessage "b") ∧
      (decodeFramePrefix .rejecting ((filterFrame "a").take 48) 1000).map eraseMessageQuery =
        (decodeFramePrefix .rejecting ((filterFrame "b").take 48) 1000).map eraseMessageQuery ∧
      ((EventProcessor.new .sample).runMessages (.ofDigests sampleDigests)
          [⟨.silent, .ofChunk 1 7 8 0 [], false, filterMessage "a"⟩]).1.eraseQueries =
        ((EventProcessor.new .sample).runMessages (.ofDigests sampleDigests)
          [⟨.silent, .ofChunk 1 7 8 0 [], false, filterMessage "b"⟩]).1.eraseQueries := by
  refine ⟨filterFrame_similar, by decide +kernel, by decide +kernel, ?_, ?_⟩
  · exact (metadata_noninterference.1 _ _ _ 1000 filterFrame_similar).2 48
  · have hinput : SameInput (.ofDigests sampleDigests) (some "salt")
        ⟨.silent, .ofChunk 1 7 8 0 [], false, filterMessage "a"⟩
        ⟨.silent, .ofChunk 1 7 8 0 [], false, filterMessage "b"⟩ := ⟨rfl, rfl, rfl, rfl, rfl⟩
    exact (metadata_noninterference.2 _ _ _ _ _ rfl rfl (.cons hinput .nil)).2

end MongoDam.Observer
