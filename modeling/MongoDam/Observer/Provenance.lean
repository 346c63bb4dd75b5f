import Mathlib.Data.List.Induction
import MongoDam.Observer.Runs

/-!
# Where a waiting request comes from

A pending entry is inserted by a request that expects a response, and removed by
the message that answers it, by a close, by an exit or by pruning. Hence an entry
that is present after a run was opened by the last request of the run with its
identifier on its connection, and nothing touched it since.
-/

namespace MongoDam.Observer

open Lib Schema Protocol

namespace Call

/-- The connection a call is about. -/
def key : Call → ConnectionKey
  | .message _ raw _ _ => raw.key
  | .chunk raw => raw.key
  | .record _ captured => captured.raw.key

/-- The call is a request that will wait under the identifier on the connection. -/
def inserts (key : ConnectionKey) (requestId : ℤ) : Call → Prop
  | .message _ raw _ decoded =>
    raw.key = key ∧ decoded.requestId = requestId ∧ decoded.responseTo = 0 ∧
      decoded.command.isSome ∧ decoded.moreToCome = false
  | _ => False

/-- The call is a reply to the identifier on the connection. -/
def answers (key : ConnectionKey) (requestId : ℤ) : Call → Prop
  | .message _ raw _ decoded =>
    raw.key = key ∧ decoded.responseTo = requestId ∧ decoded.responseTo ≠ 0
  | _ => False

/-- The request a call opens. -/
def opens (lib : External) (p : EventProcessor) : Call → Option PendingRequest
  | .message host raw truncated decoded =>
    if decoded.responseTo = 0 then
      decoded.command.map
        (fun command => (p.openRequest lib host raw truncated decoded command).2)
    else none
  | _ => none

/-- Making room for a request drops the entry. -/
def evicts (lib : External) (p : EventProcessor) (key : ConnectionKey) (requestId : ℤ) :
    Call → Prop
  | .message host raw truncated decoded =>
    ∃ command, decoded.responseTo = 0 ∧ decoded.command = some command ∧
      decoded.moreToCome = false ∧ p.waiting key requestId ≠ none ∧
      ((p.openRequest lib host raw truncated decoded command).1.prunePendingRequests host
        raw.timestampNs).waiting key requestId = none
  | _ => False

/-- The request a call reports: a one-way request itself, or the one it answers. -/
def completed (lib : External) (p : EventProcessor) : Call → Option PendingRequest
  | .message host raw truncated decoded =>
    if decoded.responseTo = 0 then
      if decoded.moreToCome then
        decoded.command.map
          (fun command => (p.openRequest lib host raw truncated decoded command).2)
      else none
    else p.waiting raw.key decoded.responseTo
  | _ => none

/-- The response a call completes a request with. -/
def response (request : PendingRequest) : Call → Option (DecodedMessage × ℕ)
  | .message _ raw _ decoded =>
    if decoded.responseTo = 0 then none
    else some (decoded, (raw.timestampNs - request.seed.monotonicTimestampNs) / 1000)
  | _ => none

end Call

namespace EventProcessor

variable {lib : External} {p : EventProcessor} {key : ConnectionKey} {requestId : ℤ}
  {request : PendingRequest}

/-! ### One step -/

private theorem pendingKey_eq_iff {raw : KernelEvent} {r : ℤ} :
    (key.1, key.2, requestId) = (raw.tgid, raw.connectionKey, r) ↔
      raw.key = key ∧ r = requestId := by
  rcases key with ⟨tgid, connectionKey⟩
  simp only [KernelEvent.key, Prod.mk.injEq]
  constructor
  · rintro ⟨rfl, rfl, rfl⟩
    exact ⟨⟨rfl, rfl⟩, rfl⟩
  · rintro ⟨⟨rfl, rfl⟩, rfl⟩
    exact ⟨rfl, rfl, rfl⟩

/-- An entry present after a message was opened by it, or was there before and the
message neither replaced nor answered it. -/
private theorem waiting_message {host : Host} {raw : KernelEvent} {truncated : Bool}
    {decoded : DecodedMessage}
    (h : ((Call.message host raw truncated decoded).step lib p).1.waiting key requestId =
      some request) :
    ((Call.message host raw truncated decoded).inserts key requestId ∧
        (Call.message host raw truncated decoded).opens lib p = some request) ∨
      (p.waiting key requestId = some request ∧
        ¬ (Call.message host raw truncated decoded).inserts key requestId ∧
        ¬ (Call.message host raw truncated decoded).answers key requestId) := by
  simp only [Call.step] at h
  rcases p.processMessage_cases lib host raw truncated decoded with
    ⟨heq, hnone, hunknown⟩ | ⟨command, hreply, hcommand, hmore, heq⟩ |
    ⟨command, hreply, hcommand, hmore, heq⟩ | ⟨waiter, hreply, hwaiting, heq⟩
  · rw [heq] at h
    refine .inr ⟨h, ?_, ?_⟩
    · rintro ⟨-, -, hzero, hsome, -⟩
      rw [hnone hzero] at hsome
      cases hsome
    · rintro ⟨rfl, rfl, hne⟩
      rw [hunknown hne] at h
      cases h
  · rw [heq] at h
    simp only [waiting, Table.get?_insert] at h
    split at h
    · next hkey =>
      rw [pendingKey_eq_iff] at hkey
      refine .inl ⟨⟨hkey.1, hkey.2, hreply, by rw [hcommand]; rfl, hmore⟩, ?_⟩
      simpa [Call.opens, hreply, hcommand] using h
    · next hkey =>
      rw [pendingKey_eq_iff] at hkey
      have hbefore := get?_prunedPending _ _ _ h
      rw [openRequest_pending] at hbefore
      exact .inr ⟨hbefore, fun hins => hkey ⟨hins.1, hins.2.1⟩, fun hans => hans.2.2 hreply⟩
  · simp only [heq, waiting, eventsForCompletedRequest_pending, openRequest_pending] at h
    refine .inr ⟨h, fun hins => ?_, fun hans => hans.2.2 hreply⟩
    have := hins.2.2.2.2
    rw [hmore] at this
    cases this
  · rw [heq] at h
    simp only [waiting, eventsForCompletedRequest_pending, Table.get?_erase] at h
    split at h
    · cases h
    · next hkey =>
      rw [pendingKey_eq_iff] at hkey
      exact .inr ⟨h, fun hins => hreply hins.2.2.1, fun hans => hkey ⟨hans.1, hans.2.1⟩⟩

/-- An entry present after a call was opened by it, or was there before and the call
did not touch it. -/
theorem waiting_step {call : Call}
    (h : (call.step lib p).1.waiting key requestId = some request) :
    (call.inserts key requestId ∧ call.opens lib p = some request) ∨
      (p.waiting key requestId = some request ∧ ¬ call.inserts key requestId ∧
        ¬ call.answers key requestId ∧ ¬ call.forgets key) := by
  classical
  cases call with
  | message host raw truncated decoded =>
    rcases waiting_message h with hopened | ⟨hkept, hinserts, hanswers⟩
    · exact .inl hopened
    · exact .inr ⟨hkept, hinserts, hanswers, id⟩
  | chunk raw =>
    rw [waiting_chunk] at h
    exact .inr ⟨h, id, id, id⟩
  | record host captured =>
    rw [waiting_record] at h
    split at h
    · cases h
    · next hforgets => exact .inr ⟨h, id, id, hforgets⟩

/-- An entry survives a call that does not replace, answer, forget or evict it. -/
theorem waiting_step_of_untouched {call : Call} (hwaiting : p.waiting key requestId = some request)
    (hinserts : ¬ call.inserts key requestId) (hanswers : ¬ call.answers key requestId)
    (hforgets : ¬ call.forgets key) (hevicts : ¬ call.evicts lib p key requestId) :
    (call.step lib p).1.waiting key requestId = some request := by
  classical
  cases call with
  | chunk raw => rw [waiting_chunk, hwaiting]
  | record host captured => rw [waiting_record, if_neg hforgets, hwaiting]
  | message host raw truncated decoded =>
    simp only [Call.step]
    rcases p.processMessage_cases lib host raw truncated decoded with
      ⟨heq, -, -⟩ | ⟨command, hreply, hcommand, hmore, heq⟩ |
      ⟨command, hreply, hcommand, hmore, heq⟩ | ⟨waiter, hreply, -, heq⟩
    · rw [heq, hwaiting]
    · have hkey : ¬ (key.1, key.2, requestId) =
          (raw.tgid, raw.connectionKey, decoded.requestId) := by
        rw [pendingKey_eq_iff]
        rintro ⟨hraw, hid⟩
        exact hinserts ⟨hraw, hid, hreply, by rw [hcommand]; rfl, hmore⟩
      have hpresent : ((p.openRequest lib host raw truncated decoded command).1.prunePendingRequests
          host raw.timestampNs).waiting key requestId ≠ none := by
        intro hnone
        exact hevicts ⟨command, hreply, hcommand, hmore, by rw [hwaiting]; simp, hnone⟩
      obtain ⟨kept, hkept⟩ := Option.ne_none_iff_exists'.mp hpresent
      have hbefore := get?_prunedPending _ _ _ hkept
      rw [openRequest_pending, show p.pending.get? _ = some request from hwaiting] at hbefore
      rw [heq]
      simp only [waiting, Table.get?_insert, if_neg hkey]
      exact hkept.trans hbefore.symm
    · simp only [heq, waiting, eventsForCompletedRequest_pending, openRequest_pending]
      exact hwaiting
    · have hkey : ¬ (key.1, key.2, requestId) =
          (raw.tgid, raw.connectionKey, decoded.responseTo) := by
        rw [pendingKey_eq_iff]
        rintro ⟨hraw, hid⟩
        exact hanswers ⟨hraw, hid, hreply⟩
      simp only [heq, waiting, eventsForCompletedRequest_pending, Table.get?_erase, if_neg hkey]
      exact hwaiting

/-- What an inserting call leaves waiting is the request it opens. -/
theorem waiting_step_of_inserts {call : Call} (h : call.inserts key requestId) :
    (call.step lib p).1.waiting key requestId = call.opens lib p := by
  cases call with
  | chunk raw => cases h
  | record host captured => cases h
  | message host raw truncated decoded =>
    obtain ⟨hraw, hid, hreply, hsome, hmore⟩ := h
    obtain ⟨command, hcommand⟩ := Option.isSome_iff_exists.mp hsome
    simp only [Call.step, Call.opens, hreply, hcommand, if_true, Option.map_some]
    rcases p.processMessage_cases lib host raw truncated decoded with
      ⟨-, hnone, -⟩ | ⟨command', -, hcommand', -, heq⟩ | ⟨command', -, -, hmore', -⟩ |
      ⟨waiter, hreply', -, -⟩
    · rw [hnone hreply] at hcommand
      cases hcommand
    · rw [hcommand] at hcommand'
      cases hcommand'
      have hkey : (key.1, key.2, requestId) = (raw.tgid, raw.connectionKey, decoded.requestId) :=
        pendingKey_eq_iff.mpr ⟨hraw, hid⟩
      rw [heq]
      simp only [waiting, hkey, Table.get?_insert_self]
    · rw [hmore] at hmore'
      cases hmore'
    · exact absurd hreply hreply'

/-! ### Connection states -/

/-- A one-way request reports without a response, so it settles nothing. -/
private theorem settleAuthentication_none (command : MongoCommand) (principal : Option String)
    (authDone : Option Bool) (state : ConnectionState) :
    settleAuthentication command principal none authDone state = state := by
  simp [settleAuthentication]

/-- A request only remembers its principal. -/
theorem connection_step_request {host : Host} {raw : KernelEvent} {truncated : Bool}
    {decoded : DecodedMessage} (hreply : decoded.responseTo = 0) (j : ConnectionKey) :
    ((Call.message host raw truncated decoded).step lib p).1.connection j =
      match decoded.command with
      | none => p.connection j
      | some command =>
        (p.openRequest lib host raw truncated decoded command).1.connection j := by
  simp only [Call.step]
  rcases p.processMessage_cases lib host raw truncated decoded with
    ⟨heq, hnone, -⟩ | ⟨command, -, hcommand, -, heq⟩ |
    ⟨command, -, hcommand, -, heq⟩ | ⟨waiter, hne, -, -⟩
  · rw [heq, hnone hreply]
  · rw [heq, hcommand]
    simp only [connection, prunePendingRequests_connections]
  · rw [heq, hcommand]
    simp only [connection_eventsForCompletedRequest, Option.bind_none, settleAuthentication_none]
    split <;> rfl
  · exact absurd hreply hne

/-- A reply settles the connection of the request it answers. -/
theorem connection_step_reply {host : Host} {raw : KernelEvent} {truncated : Bool}
    {decoded : DecodedMessage} (hreply : decoded.responseTo ≠ 0) (j : ConnectionKey) :
    ((Call.message host raw truncated decoded).step lib p).1.connection j =
      match p.waiting raw.key decoded.responseTo with
      | none => p.connection j
      | some request =>
        if commandCarriesAuthentication request.command ∧ j = request.connectionStateKey then
          settleAuthentication request.command (p.sessionAuthPrincipal request)
            (decoded.status.bind (·.ok)) (decoded.status.bind (·.authDone)) (p.connection j)
        else p.connection j := by
  simp only [Call.step]
  rcases p.processMessage_cases lib host raw truncated decoded with
    ⟨heq, -, hunknown⟩ | ⟨command, hzero, -, -, -⟩ |
    ⟨command, hzero, -, -, -⟩ | ⟨request, -, hwaiting, heq⟩
  · rw [heq, hunknown hreply]
  · exact absurd hzero hreply
  · exact absurd hzero hreply
  · rw [heq, hwaiting]
    simp only [connection_eventsForCompletedRequest]
    rfl

/-- What a request does to the table of pending requests. -/
theorem pending_step_request {host : Host} {raw : KernelEvent} {truncated : Bool}
    {decoded : DecodedMessage} (hreply : decoded.responseTo = 0) :
    ((Call.message host raw truncated decoded).step lib p).1.pending =
      match decoded.command with
      | none => p.pending
      | some command =>
        if decoded.moreToCome then p.pending
        else
          (prunedPending (fun request => request.seed.monotonicTimestampNs) host raw.timestampNs
            p.pending).insert (raw.tgid, raw.connectionKey, decoded.requestId)
            (p.openRequest lib host raw truncated decoded command).2 := by
  simp only [Call.step]
  rcases p.processMessage_cases lib host raw truncated decoded with
    ⟨heq, hnone, -⟩ | ⟨command, -, hcommand, hmore, heq⟩ |
    ⟨command, -, hcommand, hmore, heq⟩ | ⟨waiter, hne, -, -⟩
  · rw [heq, hnone hreply]
  · rw [heq, hcommand]
    simp only [prunePendingRequests, openRequest_pending, hmore, Bool.false_eq_true, if_false]
  · rw [heq, hcommand]
    simp only [eventsForCompletedRequest_pending, openRequest_pending, hmore, if_true]
  · exact absurd hreply hne

/-- What a reply does to the table of pending requests. -/
theorem pending_step_reply {host : Host} {raw : KernelEvent} {truncated : Bool}
    {decoded : DecodedMessage} (hreply : decoded.responseTo ≠ 0) :
    ((Call.message host raw truncated decoded).step lib p).1.pending =
      match p.waiting raw.key decoded.responseTo with
      | none => p.pending
      | some _ => p.pending.erase (raw.tgid, raw.connectionKey, decoded.responseTo) := by
  simp only [Call.step]
  rcases p.processMessage_cases lib host raw truncated decoded with
    ⟨heq, -, hunknown⟩ | ⟨command, hzero, -, -, -⟩ |
    ⟨command, hzero, -, -, -⟩ | ⟨request, -, hwaiting, heq⟩
  · rw [heq, hunknown hreply]
  · exact absurd hzero hreply
  · exact absurd hzero hreply
  · rw [heq, hwaiting]
    simp only [eventsForCompletedRequest_pending]

/-! ### Runs -/

/-- An entry that waits after a run was opened by a request of the run, and no later
call replaced, answered or forgot it. -/
theorem waiting_origin {config : ProcessorConfig} {calls : List Call}
    (h : ((EventProcessor.new config).afterCalls lib calls).waiting key requestId =
      some request) :
    ∃ before call after, calls = before ++ call :: after ∧ call.inserts key requestId ∧
      call.opens lib ((EventProcessor.new config).afterCalls lib before) = some request ∧
      ∀ later ∈ after, ¬ later.inserts key requestId ∧ ¬ later.answers key requestId ∧
        ¬ later.forgets key := by
  induction calls using List.reverseRecOn with
  | nil =>
    rw [afterCalls_nil, waiting_new] at h
    cases h
  | append_singleton calls call ih =>
    rw [afterCalls_append] at h
    rcases waiting_step h with ⟨hinserts, hopens⟩ | ⟨hkept, huntouched⟩
    · refine ⟨calls, call, [], rfl, hinserts, hopens, ?_⟩
      rintro later hlater
      cases hlater
    · obtain ⟨before, opener, after, rfl, hinserts, hopens, hlater⟩ := ih hkept
      refine ⟨before, opener, after ++ [call], by simp, hinserts, hopens, ?_⟩
      intro later hmem
      rcases List.mem_append.mp hmem with hmem | hmem
      · exact hlater later hmem
      · rw [List.mem_singleton] at hmem
        rw [hmem]
        exact huntouched

/-- The fields of the request a call opens that identify it. -/
theorem opens_spec {call : Call} (h : call.opens lib p = some request) :
    request.connectionStateKey = call.key ∧
      request.actorPrincipalHash = (p.connection call.key).authenticatedPrincipalHash := by
  cases call with
  | chunk raw => cases h
  | record host captured => cases h
  | message host raw truncated decoded =>
    simp only [Call.opens] at h
    split at h
    · obtain ⟨command, -, rfl⟩ := Option.map_eq_some_iff.mp h
      exact ⟨rfl, p.openRequest_actor lib host raw truncated decoded command⟩
    · cases h

theorem key_of_inserts {call : Call} (h : call.inserts key requestId) : call.key = key := by
  cases call with
  | chunk raw => cases h
  | record host captured => cases h
  | message host raw truncated decoded => exact h.1

theorem requestId_of_opens {call : Call} (hinserts : call.inserts key requestId)
    (hopens : call.opens lib p = some request) : request.requestId = requestId := by
  cases call with
  | chunk raw => cases hopens
  | record host captured => cases hopens
  | message host raw truncated decoded =>
    simp only [Call.opens, hinserts.2.2.1, if_true] at hopens
    obtain ⟨command, -, rfl⟩ := Option.map_eq_some_iff.mp hopens
    exact hinserts.2.1

/-- A waiting request belongs to the connection it waits on. -/
theorem connectionStateKey_of_waiting {config : ProcessorConfig} {calls : List Call}
    (h : ((EventProcessor.new config).afterCalls lib calls).waiting key requestId =
      some request) : request.connectionStateKey = key := by
  obtain ⟨before, call, after, -, hinserts, hopens, -⟩ := waiting_origin h
  rw [(opens_spec hopens).1, key_of_inserts hinserts]

/-! ### Activities -/

/-- A call emits one activity when it completes a request, and none otherwise. -/
theorem step_activities (call : Call) :
    (call.step lib p).2.filterMap DamEvent.activity? =
      ((call.completed lib p).map
        (fun request => p.activityOf request (call.response request))).toList := by
  cases call with
  | chunk raw => rfl
  | record host captured => exact processRecord_activities ..
  | message host raw truncated decoded =>
    simp only [Call.step, Call.completed, Call.response]
    rcases p.processMessage_cases lib host raw truncated decoded with
      ⟨heq, hnone, hunknown⟩ | ⟨command, hreply, hcommand, hmore, heq⟩ |
      ⟨command, hreply, hcommand, hmore, heq⟩ | ⟨waiter, hreply, hwaiting, heq⟩
    · by_cases hreply : decoded.responseTo = 0
      · simp [heq, hreply, hnone hreply]
      · simp [heq, hreply, hunknown hreply]
    · simp [heq, hreply, hmore]
    · simp only [heq, hreply, hmore, hcommand, if_true, Option.map_some, Option.toList_some,
        eventsForCompletedRequest_activities]
      simp [activityOf]
    · simp only [heq, hreply, hwaiting, if_false, Option.map_some, Option.toList_some,
        eventsForCompletedRequest_activities]
      rfl

end EventProcessor

end MongoDam.Observer
