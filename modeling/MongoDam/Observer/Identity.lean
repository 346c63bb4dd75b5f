import MongoDam.Observer.Provenance

/-!
# The identity an authentication exchange settles

A connection takes the identity of an exchange from the request that completes it,
or else from the principal that was last presented on it. Continuation requests
(`saslContinue` and `getnonce` without speculative authentication) can present a
principal like any other request. This file compares a run with the same run
without the principals of its continuations: the identities agree as long as no
reply completes an exchange with a principal that a continuation presented.
-/

namespace MongoDam.Observer

open Lib Schema Protocol EventProcessor

/-- The request continues an exchange that another request started. -/
def isContinuation (command : MongoCommand) : Bool :=
  !command.speculativeAuth &&
    decide (toAsciiLowercase command.name ∈ ["saslcontinue", "getnonce"])

/-- A command without the principal of a continuation. -/
def eraseContinuationPrincipal (command : MongoCommand) : MongoCommand :=
  if isContinuation command then { command with principal := none } else command

/-- A message without the principal of a continuation. -/
def eraseContinuationMessage (decoded : DecodedMessage) : DecodedMessage :=
  { decoded with command := decoded.command.map eraseContinuationPrincipal }

namespace Call

/-- A call without the principal of a continuation. -/
def eraseContinuation : Call → Call
  | .message host raw truncated decoded =>
    .message host raw truncated (eraseContinuationMessage decoded)
  | .chunk raw => .chunk raw
  | .record host captured => .record host captured

/-- The call is an authentication request on the connection that presents a hashed
principal, a continuation or not. -/
def presentsHash (lib : External) (config : ProcessorConfig) (key : ConnectionKey)
    (continuation : Bool) : Call → Prop
  | .message _ raw _ decoded =>
    raw.key = key ∧ decoded.responseTo = 0 ∧ ∃ command, decoded.command = some command ∧
      commandCarriesAuthentication command ∧ isContinuation command = continuation ∧
      (takeHashedPrincipal lib command config.principalHashSalt).2.isSome
  | _ => False

/-- The call is a reply on the connection that answers the waiting authentication
request. -/
def answersLogin (p : EventProcessor) (key : ConnectionKey) (request : PendingRequest) :
    Call → Prop
  | .message _ raw _ decoded =>
    raw.key = key ∧ decoded.responseTo ≠ 0 ∧ p.waiting key decoded.responseTo = some request ∧
      commandCarriesAuthentication request.command
  | _ => False

/-- The status of the reply is a failure. -/
def fails : Call → Prop
  | .message _ _ _ decoded => decoded.status.bind (·.ok) = some false
  | _ => False

/-- The status of the reply completes the exchange of the request. -/
def completes (request : PendingRequest) : Call → Prop
  | .message _ _ _ decoded =>
    decoded.status.bind (·.ok) = some true ∧
      authenticationExchangeCompleted request.command (decoded.status.bind (·.authDone))
  | _ => False

/-- The call clears the principal that was presented on the connection. -/
def clearsPresented (p : EventProcessor) (key : ConnectionKey) (call : Call) : Prop :=
  call.forgets key ∨
    ∃ request, call.answersLogin p key request ∧ (call.fails ∨ call.completes request)

end Call

/-- The last principal presented on the connection, and not cleared since, was
presented by a continuation. -/
def PresentedByContinuation (lib : External) (config : ProcessorConfig) (calls : List Call)
    (key : ConnectionKey) : Prop :=
  ∃ before call after, calls = before ++ call :: after ∧
    call.presentsHash lib config key true ∧
    ∀ earlier later rest, after = earlier ++ later :: rest →
      ¬ later.presentsHash lib config key false ∧
        ¬ later.clearsPresented
          ((EventProcessor.new config).afterCalls lib (before ++ call :: earlier)) key

/-- After the calls, the reply completes an exchange with a principal that a
continuation presented: the request's own one, or the last one presented. -/
def TakesContinuation (lib : External) (config : ProcessorConfig) (calls : List Call)
    (reply : Call) : Prop :=
  ∃ key request, reply.answersLogin ((EventProcessor.new config).afterCalls lib calls) key request ∧
    reply.completes request ∧
    ((isContinuation request.command ∧ request.targetPrincipalHash.isSome) ∨
      (request.targetPrincipalHash = none ∧ PresentedByContinuation lib config calls key))

/-- No reply of the run completes an exchange with a principal that a continuation
presented. -/
def IdentityFromStart (lib : External) (config : ProcessorConfig) (calls : List Call) : Prop :=
  ∀ before reply after, calls = before ++ reply :: after →
    ¬ TakesContinuation lib config before reply

/-- The principals of the activities of a run, in order. -/
def activityPrincipals (lib : External) (config : ProcessorConfig) (calls : List Call) :
    List (Option String) :=
  (((EventProcessor.new config).emitted lib calls).filterMap DamEvent.activity?).map (·.principal)

/-! ### What the two runs share -/

/-- The part of a waiting request that both runs have. -/
structure RequestView where
  command : MongoCommand
  actorPrincipalHash : Option String
  connectionStateKey : ConnectionKey
  targetPrincipalHash : Option String
  timestampNs : ℕ

/-- The shared part of a waiting request: the hash of a continuation is left out. -/
def PendingRequest.view (request : PendingRequest) : RequestView where
  command := request.command
  actorPrincipalHash := request.actorPrincipalHash
  connectionStateKey := request.connectionStateKey
  targetPrincipalHash :=
    if isContinuation request.command then none else request.targetPrincipalHash
  timestampNs := request.seed.monotonicTimestampNs

/-- The processor `q` of the run without continuation principals agrees with the
processor `p` of the run itself. -/
structure Agrees (lib : External) (config : ProcessorConfig) (calls : List Call)
    (p q : EventProcessor) : Prop where
  pending : q.pending.mapVal PendingRequest.view = p.pending.mapVal PendingRequest.view
  erased : ∀ k request, q.pending.get? k = some request → isContinuation request.command →
    request.targetPrincipalHash = none
  authenticated : ∀ key, (q.connection key).authenticatedPrincipalHash =
    (p.connection key).authenticatedPrincipalHash
  presented : ∀ key, ¬ PresentedByContinuation lib config calls key →
    (q.connection key).pendingAuthPrincipalHash = (p.connection key).pendingAuthPrincipalHash

variable {lib : External} {config : ProcessorConfig} {calls : List Call} {call : Call}
  {p q : EventProcessor} {key : ConnectionKey}

/-- A call that neither presents nor clears a principal keeps who presented the last one. -/
private theorem presentedByContinuation_append
    (h : PresentedByContinuation lib config calls key)
    (hpresents : ¬ call.presentsHash lib config key false)
    (hclears : ¬ call.clearsPresented ((EventProcessor.new config).afterCalls lib calls) key) :
    PresentedByContinuation lib config (calls ++ [call]) key := by
  obtain ⟨before, start, after, rfl, hstart, hkept⟩ := h
  refine ⟨before, start, after ++ [call], by simp, hstart, ?_⟩
  intro earlier later rest hsplit
  rcases List.eq_nil_or_concat rest with rfl | ⟨rest, last, rfl⟩
  · obtain ⟨rfl, hlast⟩ := List.append_inj' hsplit rfl
    cases hlast
    exact ⟨hpresents, hclears⟩
  · rw [List.concat_eq_append, ← List.cons_append, ← List.append_assoc] at hsplit
    exact hkept earlier later rest (List.append_inj' hsplit rfl).1

/-! ### One step -/

/-- The runs see the same request wait, up to the hash of a continuation. -/
private theorem Agrees.waiting (h : Agrees lib config calls p q) (key : ConnectionKey)
    (requestId : ℤ) :
    (q.waiting key requestId).map PendingRequest.view =
      (p.waiting key requestId).map PendingRequest.view := by
  unfold EventProcessor.waiting
  rw [← Table.get?_mapVal, ← Table.get?_mapVal, h.pending]

/-- A call that neither presents nor clears a principal on the connection. -/
private theorem Agrees.presented_append
    (h : Agrees lib config calls ((EventProcessor.new config).afterCalls lib calls) q)
    (hpresents : ¬ call.presentsHash lib config key false)
    (hclears : ¬ call.clearsPresented ((EventProcessor.new config).afterCalls lib calls) key)
    (hnot : ¬ PresentedByContinuation lib config (calls ++ [call]) key) :
    (q.connection key).pendingAuthPrincipalHash =
      (((EventProcessor.new config).afterCalls lib calls).connection
        key).pendingAuthPrincipalHash :=
  h.presented key fun hbefore =>
    hnot (presentedByContinuation_append hbefore hpresents hclears)

/-- Pruning treats both runs alike. -/
private theorem prunedPending_view (host : Host) (nowNs : ℕ)
    (pending : Table PendingKey PendingRequest) :
    (prunedPending (fun request => request.seed.monotonicTimestampNs) host nowNs
        pending).mapVal PendingRequest.view =
      prunedPending RequestView.timestampNs host nowNs (pending.mapVal PendingRequest.view) := by
  rw [prunedPending_mapVal host _ nowNs PendingRequest.view RequestView.timestampNs]
  intro request
  rfl

private theorem agrees_chunk {raw : KernelEvent}
    (h : Agrees lib config calls ((EventProcessor.new config).afterCalls lib calls) q) :
    Agrees lib config (calls ++ [.chunk raw])
      ((Call.chunk raw).step lib ((EventProcessor.new config).afterCalls lib calls)).1
      ((Call.chunk raw).step lib q).1 := by
  have hpending : ∀ r : EventProcessor, ((Call.chunk raw).step lib r).1.pending = r.pending := by
    intro r
    obtain ⟨streams, hr⟩ := r.decodeChunk_fst lib raw
    simp only [Call.step, hr]
  refine ⟨?_, ?_, fun key => ?_, fun key hnot => ?_⟩
  · rw [hpending, hpending, h.pending]
  · rw [hpending]
    exact h.erased
  · rw [connection_chunk, connection_chunk, h.authenticated]
  · rw [connection_chunk, connection_chunk]
    refine h.presented_append id ?_ hnot
    rintro (hforgets | ⟨request, hanswers, -⟩)
    · exact hforgets
    · exact hanswers

private theorem agrees_record {host : Host} {captured : CapturedKernelEvent}
    (h : Agrees lib config calls ((EventProcessor.new config).afterCalls lib calls) q) :
    Agrees lib config (calls ++ [.record host captured])
      ((Call.record host captured).step lib ((EventProcessor.new config).afterCalls lib calls)).1
      ((Call.record host captured).step lib q).1 := by
  have hsession : ∀ (r : EventProcessor) (key : ConnectionKey),
      ((((Call.record host captured).step lib r).1.connection key).authenticatedPrincipalHash,
        (((Call.record host captured).step lib r).1.connection key).pendingAuthPrincipalHash) =
        if (Call.record host captured).forgets key then (none, none)
        else ((r.connection key).authenticatedPrincipalHash,
          (r.connection key).pendingAuthPrincipalHash) :=
    fun r key => r.session_record host captured key
  refine ⟨?_, ?_, fun key => ?_, fun key hnot => ?_⟩
  · rw [(EventProcessor.clears_record _ host captured).1,
      (EventProcessor.clears_record _ host captured).1,
      Table.mapVal_filterKey, Table.mapVal_filterKey, h.pending]
  · intro k request hget
    rw [(EventProcessor.clears_record _ host captured).1, Table.get?_filter,
      Option.filter_eq_some_iff] at hget
    exact h.erased k request hget.1
  · have hp := congrArg Prod.fst (hsession ((EventProcessor.new config).afterCalls lib calls) key)
    have hq := congrArg Prod.fst (hsession q key)
    dsimp only at hp hq
    rw [hp, hq]
    split
    · rfl
    · exact h.authenticated key
  · have hp := congrArg Prod.snd (hsession ((EventProcessor.new config).afterCalls lib calls) key)
    have hq := congrArg Prod.snd (hsession q key)
    dsimp only at hp hq
    rw [hp, hq]
    split
    · rfl
    · next hforgets =>
      refine h.presented_append id ?_ hnot
      rintro (hgone | ⟨request, hanswers, -⟩)
      · exact hforgets hgone
      · exact hanswers

section Messages

variable {host : Host} {raw : KernelEvent} {truncated : Bool} {decoded : DecodedMessage}

private theorem takeHashedPrincipal_erase (salt : Option String) (command : MongoCommand) :
    takeHashedPrincipal lib (eraseContinuationPrincipal command) salt =
      ((takeHashedPrincipal lib command salt).1,
        if isContinuation command then none else (takeHashedPrincipal lib command salt).2) := by
  unfold eraseContinuationPrincipal
  split <;> rfl

/-- Both runs open the same request, up to the hash of a continuation. -/
private theorem view_openRequest (h : Agrees lib config calls p q) (hconfig : q.config = p.config)
    (host : Host) (raw : KernelEvent) (truncated : Bool) (decoded : DecodedMessage)
    (command : MongoCommand) :
    (q.openRequest lib host raw truncated (eraseContinuationMessage decoded)
        (eraseContinuationPrincipal command)).2.view =
      (p.openRequest lib host raw truncated decoded command).2.view ∧
    (isContinuation (q.openRequest lib host raw truncated (eraseContinuationMessage decoded)
        (eraseContinuationPrincipal command)).2.command →
      (q.openRequest lib host raw truncated (eraseContinuationMessage decoded)
        (eraseContinuationPrincipal command)).2.targetPrincipalHash = none) := by
  have hp := p.openRequest_actor lib host raw truncated decoded command
  have hq := q.openRequest_actor lib host raw truncated (eraseContinuationMessage decoded)
    (eraseContinuationPrincipal command)
  have hcontinuation : ∀ principal, isContinuation { command with principal := principal } =
      isContinuation command := fun _ => rfl
  constructor
  · unfold PendingRequest.view
    rw [hp, hq, h.authenticated]
    simp only [openRequest, takeHashedPrincipal_erase, hconfig]
    simp only [takeHashedPrincipal, hcontinuation, RequestView.mk.injEq, true_and]
    refine ⟨?_, rfl⟩
    split <;> rfl
  · simp only [openRequest, takeHashedPrincipal_erase]
    intro hcommand
    exact if_pos hcommand

/-- The pending principal after a request with a command. -/
private theorem pendingAuth_openRequest (p : EventProcessor) (host : Host) (raw : KernelEvent)
    (truncated : Bool) (decoded : DecodedMessage) (command : MongoCommand) (key : ConnectionKey) :
    ((p.openRequest lib host raw truncated decoded command).1.connection
        key).pendingAuthPrincipalHash =
      if key = raw.key ∧ commandCarriesAuthentication command ∧
          (takeHashedPrincipal lib command p.config.principalHashSalt).2.isSome then
        (takeHashedPrincipal lib command p.config.principalHashSalt).2
      else (p.connection key).pendingAuthPrincipalHash := by
  rw [connection_openRequest]
  by_cases hkey : key = raw.key
  · subst hkey
    simp only [if_true, true_and, rememberPrincipal]
    split <;> rfl
  · simp only [hkey, if_false, false_and]

private theorem authenticated_openRequest (p : EventProcessor) (host : Host) (raw : KernelEvent)
    (truncated : Bool) (decoded : DecodedMessage) (command : MongoCommand) (key : ConnectionKey) :
    ((p.openRequest lib host raw truncated decoded command).1.connection
        key).authenticatedPrincipalHash = (p.connection key).authenticatedPrincipalHash := by
  rw [connection_openRequest]
  by_cases hkey : key = raw.key
  · subst hkey
    simp only [if_true, rememberPrincipal]
    split <;> rfl
  · simp only [hkey, if_false]

private theorem commandCarriesAuthentication_erase (command : MongoCommand) :
    commandCarriesAuthentication (eraseContinuationPrincipal command) =
      commandCarriesAuthentication command := by
  unfold eraseContinuationPrincipal
  split <;> rfl

/-- A message without a command changes nothing that the runs share. -/
private theorem agrees_request_none (hreply : decoded.responseTo = 0)
    (hcommand : decoded.command = none)
    (h : Agrees lib config calls ((EventProcessor.new config).afterCalls lib calls) q) :
    Agrees lib config (calls ++ [.message host raw truncated decoded])
      ((Call.message host raw truncated decoded).step lib
        ((EventProcessor.new config).afterCalls lib calls)).1
      ((Call.message host raw truncated decoded).eraseContinuation.step lib q).1 := by
  have hsame : eraseContinuationMessage decoded = decoded := by
    unfold eraseContinuationMessage
    rw [hcommand, Option.map_none, ← hcommand]
  have hpending : ∀ r : EventProcessor,
      ((Call.message host raw truncated decoded).step lib r).1.pending = r.pending := by
    intro r
    rw [pending_step_request hreply, hcommand]
  have hconnection : ∀ (r : EventProcessor) (key : ConnectionKey),
      ((Call.message host raw truncated decoded).step lib r).1.connection key =
        r.connection key := by
    intro r key
    rw [connection_step_request hreply, hcommand]
  rw [Call.eraseContinuation, hsame]
  refine ⟨?_, ?_, fun key => ?_, fun key hnot => ?_⟩
  · rw [hpending, hpending, h.pending]
  · rw [hpending]
    exact h.erased
  · rw [hconnection, hconnection, h.authenticated]
  · rw [hconnection, hconnection]
    refine h.presented_append ?_ ?_ hnot
    · rintro ⟨-, -, command, hsome, -⟩
      rw [hcommand] at hsome
      cases hsome
    · rintro (hforgets | ⟨request, hanswers, -⟩)
      · exact hforgets
      · exact hanswers.2.1 hreply

/-- A request with a command keeps the agreement. -/
private theorem agrees_request_some {command : MongoCommand} (hconfig : q.config = config)
    (hreply : decoded.responseTo = 0) (hcommand : decoded.command = some command)
    (h : Agrees lib config calls ((EventProcessor.new config).afterCalls lib calls) q) :
    Agrees lib config (calls ++ [.message host raw truncated decoded])
      ((Call.message host raw truncated decoded).step lib
        ((EventProcessor.new config).afterCalls lib calls)).1
      ((Call.message host raw truncated decoded).eraseContinuation.step lib q).1 := by
  have hreply' : (eraseContinuationMessage decoded).responseTo = 0 := hreply
  have hcommand' : (eraseContinuationMessage decoded).command =
      some (eraseContinuationPrincipal command) := by simp [eraseContinuationMessage, hcommand]
  have hpconfig : ((EventProcessor.new config).afterCalls lib calls).config = config := by
    rw [afterCalls_config]
    rfl
  obtain ⟨hview, herased⟩ :=
    view_openRequest h (hconfig.trans hpconfig.symm) host raw truncated decoded command
  have hmore' : (eraseContinuationMessage decoded).moreToCome = decoded.moreToCome := rfl
  rw [Call.eraseContinuation]
  refine ⟨?_, ?_, fun key => ?_, fun key hnot => ?_⟩
  · rw [pending_step_request hreply, pending_step_request hreply', hcommand, hcommand', hmore']
    by_cases hmore : decoded.moreToCome
    · simp only [hmore, if_true]
      exact h.pending
    · simp only [hmore, Bool.false_eq_true, if_false]
      rw [Table.mapVal_insert, Table.mapVal_insert, prunedPending_view, prunedPending_view,
        h.pending, hview]
      rfl
  · rw [pending_step_request hreply', hcommand', hmore']
    dsimp only
    split
    · exact h.erased
    · intro k request hget
      rw [Table.get?_insert] at hget
      split at hget
      · cases hget
        exact herased
      · exact h.erased k request (get?_prunedPending _ _ _ hget)
  · rw [connection_step_request hreply, connection_step_request hreply', hcommand, hcommand']
    dsimp only
    rw [authenticated_openRequest, authenticated_openRequest, h.authenticated]
  · rw [connection_step_request hreply, connection_step_request hreply', hcommand, hcommand']
    dsimp only
    rw [pendingAuth_openRequest, pendingAuth_openRequest, hconfig, hpconfig,
      takeHashedPrincipal_erase, commandCarriesAuthentication_erase]
    have hunpresented : ∀ continuation, (isContinuation command = continuation →
        ¬ (key = raw.key ∧ commandCarriesAuthentication command ∧
          (takeHashedPrincipal lib command config.principalHashSalt).2.isSome)) →
        ¬ (Call.message host raw truncated decoded).presentsHash lib config key continuation := by
      rintro continuation hnone ⟨hraw, -, command', hsome, hcarries, hcontinuation, hhash⟩
      rw [hcommand] at hsome
      cases hsome
      exact hnone hcontinuation ⟨hraw.symm, hcarries, hhash⟩
    have hnotClears : ¬ (Call.message host raw truncated decoded).clearsPresented
        ((EventProcessor.new config).afterCalls lib calls) key := by
      rintro (hforgets | ⟨request, hanswers, -⟩)
      · exact hforgets
      · exact hanswers.2.1 hreply
    by_cases hpresents : key = raw.key ∧ commandCarriesAuthentication command ∧
        (takeHashedPrincipal lib command config.principalHashSalt).2.isSome
    · by_cases hcontinuation : isContinuation command
      · refine absurd ⟨calls, _, [], rfl, ⟨hpresents.1.symm, hreply, command, hcommand,
          hpresents.2.1, hcontinuation, hpresents.2.2⟩, ?_⟩ hnot
        intro earlier later rest hsplit
        cases earlier <;> cases hsplit
      · simp [hpresents, hcontinuation]
    · rw [if_neg hpresents, if_neg]
      · exact h.presented_append (hunpresented false fun _ => hpresents) hnotClears hnot
      · rintro ⟨hkey, hcarries, hhash⟩
        refine hpresents ⟨hkey, hcarries, ?_⟩
        split at hhash
        · cases hhash
        · exact hhash

/-- Both runs settle the same identity, unless a continuation presented it. -/
private theorem sessionAuthPrincipal_eq {request request' : PendingRequest}
    (h : Agrees lib config calls p q) {requestId : ℤ}
    (hwaiting' : q.waiting key requestId = some request')
    (hview : request'.view = request.view)
    (hown : ¬ (isContinuation request.command ∧ request.targetPrincipalHash.isSome))
    (hlast : request.targetPrincipalHash = none →
      ¬ PresentedByContinuation lib config calls request.connectionStateKey) :
    q.sessionAuthPrincipal request' = p.sessionAuthPrincipal request := by
  have hcommand : request'.command = request.command := congrArg RequestView.command hview
  have hkey : request'.connectionStateKey = request.connectionStateKey :=
    congrArg RequestView.connectionStateKey hview
  have htarget : request'.targetPrincipalHash = request.targetPrincipalHash := by
    have htargets := congrArg RequestView.targetPrincipalHash hview
    simp only [PendingRequest.view, hcommand] at htargets
    by_cases hcontinuation : isContinuation request.command
    · have hnone : request.targetPrincipalHash = none := by
        simpa [hcontinuation] using hown
      rw [hnone]
      exact h.erased _ request' hwaiting' (hcommand ▸ hcontinuation)
    · simpa [hcontinuation] using htargets
  unfold sessionAuthPrincipal
  rw [htarget, hkey]
  cases hrequest : request.targetPrincipalHash with
  | some hash => rfl
  | none =>
    rw [Option.none_or, Option.none_or]
    exact h.presented _ (hlast hrequest)

/-- A reply keeps the agreement, unless it takes the principal of a continuation. -/
private theorem agrees_reply (hreply : decoded.responseTo ≠ 0)
    (hstart : ¬ TakesContinuation lib config calls (.message host raw truncated decoded))
    (h : Agrees lib config calls ((EventProcessor.new config).afterCalls lib calls) q) :
    Agrees lib config (calls ++ [.message host raw truncated decoded])
      ((Call.message host raw truncated decoded).step lib
        ((EventProcessor.new config).afterCalls lib calls)).1
      ((Call.message host raw truncated decoded).eraseContinuation.step lib q).1 := by
  have hreply' : (eraseContinuationMessage decoded).responseTo ≠ 0 := hreply
  have hresponse : (eraseContinuationMessage decoded).responseTo = decoded.responseTo := rfl
  have hstatus : (eraseContinuationMessage decoded).status = decoded.status := rfl
  have hnotPresents : ∀ key, ¬ (Call.message host raw truncated decoded).presentsHash lib config
      key false := fun key hpresents => hreply hpresents.2.1
  have hwaitings := h.waiting raw.key decoded.responseTo
  rw [Call.eraseContinuation]
  cases hwaiting : ((EventProcessor.new config).afterCalls lib calls).waiting raw.key
      decoded.responseTo with
  | none =>
    have hwaiting' : q.waiting raw.key decoded.responseTo = none := by
      simpa [hwaiting] using hwaitings
    refine ⟨?_, ?_, fun key => ?_, fun key hnot => ?_⟩
    · rw [pending_step_reply hreply, pending_step_reply hreply', hresponse, hwaiting, hwaiting']
      exact h.pending
    · rw [pending_step_reply hreply', hresponse, hwaiting']
      exact h.erased
    · rw [connection_step_reply hreply, connection_step_reply hreply', hresponse, hwaiting,
        hwaiting']
      exact h.authenticated key
    · rw [connection_step_reply hreply, connection_step_reply hreply', hresponse, hwaiting,
        hwaiting']
      refine h.presented_append (hnotPresents key) ?_ hnot
      rintro (hforgets | ⟨request, ⟨rfl, -, hsome, -⟩, -⟩)
      · exact hforgets
      · rw [hwaiting] at hsome
        cases hsome
  | some request =>
    obtain ⟨request', hwaiting', hview⟩ : ∃ request', q.waiting raw.key decoded.responseTo =
        some request' ∧ request'.view = request.view := by
      simpa [hwaiting] using hwaitings
    have hcommand : request'.command = request.command := congrArg RequestView.command hview
    have hkey' : request'.connectionStateKey = request.connectionStateKey :=
      congrArg RequestView.connectionStateKey hview
    have hkey := connectionStateKey_of_waiting hwaiting
    refine ⟨?_, ?_, fun key => ?_, fun key hnot => ?_⟩
    · rw [pending_step_reply hreply, pending_step_reply hreply', hresponse, hwaiting, hwaiting']
      dsimp only [Table.erase]
      rw [Table.mapVal_filterKey, Table.mapVal_filterKey, h.pending]
    · rw [pending_step_reply hreply', hresponse, hwaiting']
      intro k waiter hget
      rw [Table.get?_erase] at hget
      split at hget
      · cases hget
      · exact h.erased k waiter hget
    · rw [connection_step_reply hreply, connection_step_reply hreply', hresponse, hstatus,
        hwaiting, hwaiting']
      simp only [hcommand, hkey']
      split
      · next hsettles =>
        obtain ⟨hcarries, rfl⟩ := hsettles
        unfold settleAuthentication
        split
        · exact h.authenticated _
        · split
          · next hdone =>
            have hanswers : (Call.message host raw truncated decoded).answersLogin
                ((EventProcessor.new config).afterCalls lib calls) raw.key request :=
              ⟨rfl, hreply, hwaiting, hcarries⟩
            refine sessionAuthPrincipal_eq h hwaiting' hview (fun hown => ?_)
              fun hnone hlast => ?_
            · exact hstart ⟨raw.key, request, hanswers, hdone, .inl hown⟩
            · exact hstart ⟨raw.key, request, hanswers, hdone, .inr ⟨hnone, hkey ▸ hlast⟩⟩
          · exact h.authenticated _
      · exact h.authenticated key
    · rw [connection_step_reply hreply, connection_step_reply hreply', hresponse, hstatus,
        hwaiting, hwaiting']
      simp only [hcommand, hkey']
      have hanswered : ∀ waiter, (Call.message host raw truncated decoded).answersLogin
          ((EventProcessor.new config).afterCalls lib calls) key waiter →
            waiter = request ∧ commandCarriesAuthentication request.command ∧
              key = request.connectionStateKey := by
        rintro waiter ⟨rfl, -, hsome, hcarries⟩
        rw [hwaiting] at hsome
        cases hsome
        exact ⟨rfl, hcarries, hkey.symm⟩
      split
      · unfold settleAuthentication
        split
        · rfl
        · split
          · rfl
          · next hfails hcompletes =>
            refine h.presented_append (hnotPresents key) ?_ hnot
            rintro (hforgets | ⟨waiter, hanswers, hsettled⟩)
            · exact hforgets
            · obtain ⟨rfl, -, -⟩ := hanswered waiter hanswers
              exact hsettled.elim hfails hcompletes
      · next hsettles =>
        refine h.presented_append (hnotPresents key) ?_ hnot
        rintro (hforgets | ⟨waiter, hanswers, -⟩)
        · exact hforgets
        · exact hsettles (hanswered waiter hanswers).2

end Messages

private theorem agrees_step (hconfig : q.config = config)
    (hstart : ¬ TakesContinuation lib config calls call)
    (h : Agrees lib config calls ((EventProcessor.new config).afterCalls lib calls) q) :
    Agrees lib config (calls ++ [call])
      (call.step lib ((EventProcessor.new config).afterCalls lib calls)).1
      (call.eraseContinuation.step lib q).1 := by
  cases call with
  | chunk raw => exact agrees_chunk h
  | record host captured => exact agrees_record h
  | message host raw truncated decoded =>
    by_cases hreply : decoded.responseTo = 0
    · cases hcommand : decoded.command with
      | none => exact agrees_request_none hreply hcommand h
      | some command => exact agrees_request_some hconfig hreply hcommand h
    · exact agrees_reply hreply hstart h

/-- A call reports an activity with the same principal in both runs. -/
private theorem Agrees.activityPrincipals (h : Agrees lib config calls p q) (call : Call) :
    ((call.eraseContinuation.step lib q).2.filterMap DamEvent.activity?).map (·.principal) =
      ((call.step lib p).2.filterMap DamEvent.activity?).map (·.principal) := by
  have hactors : ((call.eraseContinuation.completed lib q).map (·.actorPrincipalHash)) =
      (call.completed lib p).map (·.actorPrincipalHash) := by
    cases call with
    | chunk raw => rfl
    | record host captured => rfl
    | message host raw truncated decoded =>
      by_cases hreply : decoded.responseTo = 0
      · simp only [Call.completed, Call.eraseContinuation, eraseContinuationMessage, hreply,
          if_true]
        split
        · cases decoded.command with
          | none => rfl
          | some command =>
            simp only [Option.map_some, openRequest_actor, h.authenticated]
        · rfl
      · have hviews := congrArg (Option.map RequestView.actorPrincipalHash)
          (h.waiting raw.key decoded.responseTo)
        simp only [Option.map_map, Function.comp_def, PendingRequest.view] at hviews
        simpa only [Call.completed, Call.eraseContinuation, eraseContinuationMessage, hreply,
          if_false] using hviews
  rw [step_activities, step_activities]
  have hprincipal : ∀ (r : EventProcessor) (c : Call),
      (((c.completed lib r).map
        (fun request => r.activityOf request (c.response request))).toList).map
        (·.principal) = ((c.completed lib r).map (·.actorPrincipalHash)).toList := by
    intro r c
    cases c.completed lib r <;> rfl
  rw [hprincipal, hprincipal, hactors]

/-! ### Runs -/

private theorem identityFromStart_append :
    IdentityFromStart lib config (calls ++ [call]) ↔
      IdentityFromStart lib config calls ∧ ¬ TakesContinuation lib config calls call := by
  constructor
  · intro h
    refine ⟨?_, h calls call [] rfl⟩
    rintro before reply after rfl
    exact h before reply (after ++ [call]) (by simp)
  · rintro ⟨hcalls, hcall⟩ before reply after hsplit
    rcases List.eq_nil_or_concat after with rfl | ⟨after, last, rfl⟩
    · obtain ⟨rfl, hlast⟩ := List.append_inj' hsplit rfl
      cases hlast
      exact hcall
    · rw [List.concat_eq_append, ← List.cons_append, ← List.append_assoc] at hsplit
      exact hcalls before reply after (List.append_inj' hsplit rfl).1

/-- A run agrees with the run without the principals of its continuations. -/
private theorem agrees_run (h : IdentityFromStart lib config calls) :
    Agrees lib config calls ((EventProcessor.new config).afterCalls lib calls)
        ((EventProcessor.new config).afterCalls lib (calls.map Call.eraseContinuation)) ∧
      activityPrincipals lib config (calls.map Call.eraseContinuation) =
        activityPrincipals lib config calls := by
  induction calls using List.reverseRecOn with
  | nil =>
    refine ⟨⟨rfl, ?_, fun _ => rfl, fun _ _ => rfl⟩, rfl⟩
    intro k request hget
    cases hget
  | append_singleton calls call ih =>
    obtain ⟨hbefore, hcall⟩ := identityFromStart_append.mp h
    obtain ⟨hagrees, hprincipals⟩ := ih hbefore
    have hconfig : ((EventProcessor.new config).afterCalls lib
        (calls.map Call.eraseContinuation)).config = config := by
      rw [afterCalls_config]
      rfl
    constructor
    · rw [List.map_append, afterCalls_append, afterCalls_append]
      exact agrees_step hconfig hcall hagrees
    · have hstep := hagrees.activityPrincipals call
      unfold activityPrincipals at hprincipals ⊢
      rw [List.map_append, emitted_append, emitted_append, List.filterMap_append,
        List.filterMap_append, List.map_append, List.map_append, hprincipals]
      simpa [emitted] using hstep

/-- Two runs that differ only in the principals of continuations authenticate the
same principals on every connection after every call, and report the same
principals, as long as no exchange is completed with a principal that a
continuation presented. -/
theorem authenticated_eq_of_identityFromStart {calls' : List Call}
    (hsame : calls.map Call.eraseContinuation = calls'.map Call.eraseContinuation)
    (hstart : IdentityFromStart lib config calls) (hstart' : IdentityFromStart lib config calls') :
    (∀ n key,
      (((EventProcessor.new config).afterCalls lib (calls.take n)).connection
        key).authenticatedPrincipalHash =
      (((EventProcessor.new config).afterCalls lib (calls'.take n)).connection
        key).authenticatedPrincipalHash) ∧
    activityPrincipals lib config calls = activityPrincipals lib config calls' := by
  have htake : ∀ {run : List Call} (n : ℕ), IdentityFromStart lib config run →
      IdentityFromStart lib config (run.take n) := by
    intro run n hrun before reply after hsplit
    refine hrun before reply (after ++ run.drop n) ?_
    rw [← List.cons_append, ← List.append_assoc, ← hsplit, List.take_append_drop]
  constructor
  · intro n key
    rw [← (agrees_run (htake n hstart)).1.authenticated key,
      ← (agrees_run (htake n hstart')).1.authenticated key, List.map_take, List.map_take, hsame]
  · rw [← (agrees_run hstart).2, ← (agrees_run hstart').2, hsame]

/-- An authentication request on the sample connection. -/
def loginRequest (name : String) (requestId : ℤ) (principal : Option String) : Call :=
  .message .silent (.ofChunk 1 7 8 0 []) false
    { requestId, responseTo := 0, wireBytes := 60, flags := 0, moreToCome := false
      compressed := false, status := none, command := some { name, principal } }

/-- A successful reply on the sample connection. -/
def loginReply (responseTo : ℤ) (done : Bool) : Call :=
  .message .silent (.ofChunk 1 7 8 1 []) false
    { requestId := 9, responseTo, wireBytes := 40, flags := 0, moreToCome := false
      compressed := false, command := none
      status := some { ok := some true, authDone := some done } }

/-- A nonce request with some principal, then a login of `alice`. -/
def nonceLogin (principal : Option String) : List Call :=
  [loginRequest "getnonce" 1 principal, loginRequest "authenticate" 2 (some "alice"),
    loginReply 2 true]

private theorem loginRequest_not_takes (name : String) (requestId : ℤ) (principal : Option String) :
    ¬ TakesContinuation lib config calls (loginRequest name requestId principal) := by
  rintro ⟨key, request, hanswers, -, -⟩
  exact hanswers.2.1 rfl

private theorem loginReply_not_takes (responseTo : ℤ) (done : Bool)
    (hwaiting : (((EventProcessor.new config).afterCalls lib calls).waiting (7, 8) responseTo).map
      (fun request => (isContinuation request.command, request.targetPrincipalHash.isSome)) =
        some (false, true)) :
    ¬ TakesContinuation lib config calls (loginReply responseTo done) := by
  rintro ⟨key, request, ⟨rfl, -, hrequest, -⟩, -, htakes⟩
  change ((EventProcessor.new config).afterCalls lib calls).waiting (7, 8) responseTo =
    some request at hrequest
  rw [hrequest] at hwaiting
  obtain ⟨hcontinuation, htarget⟩ : isContinuation request.command = false ∧
      request.targetPrincipalHash.isSome = true := by simpa using hwaiting
  rcases htakes with ⟨hown, -⟩ | ⟨hnone, -⟩
  · rw [hcontinuation] at hown
    cases hown
  · rw [hnone] at htarget
    cases htarget

private theorem nonceLogin_identityFromStart (principal : Option String)
    (hwaiting : ((((EventProcessor.new config).afterCalls lib
      ([] ++ [loginRequest "getnonce" 1 principal] ++
        [loginRequest "authenticate" 2 (some "alice")])).waiting (7, 8) 2).map (fun request =>
          (isContinuation request.command, request.targetPrincipalHash.isSome))) =
      some (false, true)) :
    IdentityFromStart lib config (nonceLogin principal) := by
  have hnil : IdentityFromStart lib config [] := by
    intro before reply after hsplit
    cases before <;> cases hsplit
  have hfirst := identityFromStart_append.mpr
    ⟨hnil, loginRequest_not_takes "getnonce" 1 principal⟩
  have hsecond := identityFromStart_append.mpr
    ⟨hfirst, loginRequest_not_takes "authenticate" 2 (some "alice")⟩
  exact identityFromStart_append.mpr ⟨hsecond, loginReply_not_takes 2 true hwaiting⟩

theorem nonceLogin_authenticated_eq :
    (nonceLogin none).map Call.eraseContinuation =
        (nonceLogin (some "bob")).map Call.eraseContinuation ∧
      IdentityFromStart (.ofDigests sampleDigests) .sample (nonceLogin none) ∧
      IdentityFromStart (.ofDigests sampleDigests) .sample (nonceLogin (some "bob")) ∧
      activityPrincipals (.ofDigests sampleDigests) .sample (nonceLogin none) =
        activityPrincipals (.ofDigests sampleDigests) .sample (nonceLogin (some "bob")) := by
  have hsame : (nonceLogin none).map Call.eraseContinuation =
      (nonceLogin (some "bob")).map Call.eraseContinuation := by rfl
  have hnone : IdentityFromStart (.ofDigests sampleDigests) .sample (nonceLogin none) :=
    nonceLogin_identityFromStart none (by decide +kernel)
  have hbob : IdentityFromStart (.ofDigests sampleDigests) .sample (nonceLogin (some "bob")) :=
    nonceLogin_identityFromStart (some "bob") (by decide +kernel)
  exact ⟨hsame, hnone, hbob, (authenticated_eq_of_identityFromStart hsame hnone hbob).2⟩

/-- A SCRAM exchange of `alice` whose continuation may present another principal. -/
def scramLogin (principal : Option String) : List Call :=
  [loginRequest "saslStart" 1 (some "alice"), loginReply 1 false,
    loginRequest "saslContinue" 2 principal, loginReply 2 true]

/-- The continuation decides the identity: with it the connection is `bob`, without
it the connection is `alice`. -/
theorem scramLogin_authenticated_ne :
    (scramLogin none).map Call.eraseContinuation =
        (scramLogin (some "bob")).map Call.eraseContinuation ∧
      (((EventProcessor.new .sample).afterCalls (.ofDigests sampleDigests)
          ((scramLogin none).take 4)).connection (7, 8)).authenticatedPrincipalHash ≠
        (((EventProcessor.new .sample).afterCalls (.ofDigests sampleDigests)
          ((scramLogin (some "bob")).take 4)).connection (7, 8)).authenticatedPrincipalHash := by
  exact ⟨by rfl, by decide +kernel⟩

end MongoDam.Observer
