import MongoDam.Lib.Trace
import MongoDam.Observer.Provenance

/-!
# Requests and replies

A request that expects a response waits in the table of pending requests until a
reply with its identifier arrives on its connection. The result of this file says
when the reply then reports the request, once and with the fields of both
messages: exactly when the identifier is not zero, since a message that answers
identifier zero is read as a request.
-/

namespace MongoDam.Observer

open Lib Schema Protocol EventProcessor

/-- The processor after the first `n` calls of a run. -/
def stateAt (lib : External) (config : ProcessorConfig) (calls : List Call) (n : ℕ) :
    EventProcessor :=
  (EventProcessor.new config).afterCalls lib (calls.take n)

/-- The `j`-th call of the run reports the request of the `i`-th call: it is that
one-way request itself, or it removes the entry that the request left in the table
and that stood there ever since, on whatever connection. -/
def Reports (lib : External) (config : ProcessorConfig) (calls : List Call) (i j : ℕ) : Prop :=
  ∃ call request, calls[j]? = some call ∧
    call.completed lib (stateAt lib config calls j) = some request ∧
    ((i = j ∧ call.opens lib (stateAt lib config calls j) = some request) ∨
      (i < j ∧ ∃ opener pendingKey, calls[i]? = some opener ∧
        opener.opens lib (stateAt lib config calls i) = some request ∧
        (∀ m, i < m → m ≤ j →
          (stateAt lib config calls m).pending.get? pendingKey = some request) ∧
        (stateAt lib config calls (j + 1)).pending.get? pendingKey = none))

/-- The call is a message on the connection that responds to the identifier. -/
def Call.respondsTo (key : ConnectionKey) (requestId : ℤ) : Call → Prop
  | .message _ raw _ decoded => raw.key = key ∧ decoded.responseTo = requestId
  | _ => False

/-- A request that waits on a connection, a later message that responds to it, and
in between nothing that closes the connection, ends the process, reuses or answers
the identifier, or evicts the request. -/
structure Exchange (lib : External) (config : ProcessorConfig) (before : List Call)
    (request : Call) (between : List Call) (reply : Call) (key : ConnectionKey)
    (requestId : ℤ) : Prop where
  inserts : request.inserts key requestId
  responds : reply.respondsTo key requestId
  untouched : ∀ earlier call later, between = earlier ++ call :: later →
    ¬ call.forgets key ∧ ¬ call.inserts key requestId ∧ ¬ call.answers key requestId ∧
      ¬ call.evicts lib
        ((EventProcessor.new config).afterCalls lib (before ++ request :: earlier)) key requestId

/-- The activity carries the fields of the request and of the reply. -/
def carriesExchange (activity : MongodbActivity) : Call → Call → Prop
  | .message _ _ _ request, .message _ _ _ reply =>
    some activity.command = request.command.map (·.name) ∧
      some activity.database = request.command.map (·.database) ∧
      some activity.collection = request.command.map (·.collection) ∧
      activity.requestId = request.requestId ∧ activity.requestBytes = request.wireBytes ∧
      activity.responseId = some reply.requestId ∧ activity.responseBytes = some reply.wireBytes ∧
      activity.succeeded = reply.status.bind (·.ok) ∧
      activity.errorCode = reply.status.bind (·.code) ∧
      activity.errorName = reply.status.bind (·.codeName) ∧
      activity.affectedDocuments = reply.status.bind (·.affectedCount)
  | _, _ => False

/-- The run reports the request at the reply and nowhere else, with the fields of both. -/
def ReportedOnce (lib : External) (config : ProcessorConfig) (before : List Call)
    (request : Call) (between : List Call) (reply : Call) (after : List Call) : Prop :=
  (∀ j, Reports lib config (before ++ request :: between ++ reply :: after) before.length j ↔
      j = (before ++ request :: between).length) ∧
    ∃ activity,
      (reply.step lib ((EventProcessor.new config).afterCalls lib
        (before ++ request :: between))).2.filterMap DamEvent.activity? = [activity] ∧
      carriesExchange activity request reply

variable {lib : External} {config : ProcessorConfig} {p : EventProcessor} {key : ConnectionKey}
  {requestId : ℤ}

/-! ### Positions in the run -/

section Positions

variable {before between after : List Call} {request reply : Call}

private theorem stateAt_before :
    stateAt lib config (before ++ request :: between ++ reply :: after) before.length =
      (EventProcessor.new config).afterCalls lib before := by
  simp [stateAt]

private theorem stateAt_between {n : ℕ} (hn : n ≤ between.length) :
    stateAt lib config (before ++ request :: between ++ reply :: after) (before.length + 1 + n) =
      (EventProcessor.new config).afterCalls lib (before ++ request :: between.take n) := by
  have hlength : before.length + 1 + n ≤ (before ++ request :: between).length := by
    simp only [List.length_append, List.length_cons]
    omega
  rw [stateAt, List.take_append_of_le_length hlength, List.take_append, List.take_of_length_le
    (by omega), show before.length + 1 + n - before.length = n + 1 by omega, List.take_succ_cons]

private theorem stateAt_after :
    stateAt lib config (before ++ request :: between ++ reply :: after)
        ((before ++ request :: between).length + 1) =
      (reply.step lib ((EventProcessor.new config).afterCalls lib
        (before ++ request :: between))).1 := by
  rw [stateAt, List.take_append, List.take_of_length_le (by omega),
    show (before ++ request :: between).length + 1 - (before ++ request :: between).length = 1 by
      omega]
  simp

end Positions

/-! ### The waiting request -/

/-- The entry of the request stands through every prefix of the calls in between. -/
private theorem Exchange.waiting {before between : List Call} {request reply : Call}
    {opened : PendingRequest} (h : Exchange lib config before request between reply key requestId)
    (hopens : request.opens lib ((EventProcessor.new config).afterCalls lib before) = some opened)
    {earlier later : List Call} (hsplit : between = earlier ++ later) :
    ((EventProcessor.new config).afterCalls lib (before ++ request :: earlier)).waiting key
      requestId = some opened := by
  induction earlier using List.reverseRecOn generalizing later with
  | nil =>
    rw [afterCalls_append]
    exact (waiting_step_of_inserts h.inserts).trans hopens
  | append_singleton earlier call ih =>
    have hcall : between = earlier ++ call :: later := by rw [hsplit]; simp
    obtain ⟨hforgets, hinserts, hanswers, hevicts⟩ := h.untouched earlier call later hcall
    rw [← List.cons_append, ← List.append_assoc, afterCalls_append]
    exact waiting_step_of_untouched (ih hcall) hinserts hanswers hforgets hevicts

private theorem expectsResponse_of_inserts {call : Call} {opened : PendingRequest}
    (hinserts : call.inserts key requestId) (hopens : call.opens lib p = some opened) :
    opened.expectsResponse = true := by
  cases call with
  | chunk raw => cases hopens
  | record host captured => cases hopens
  | message host raw truncated decoded =>
    simp only [Call.opens, hinserts.2.2.1, if_true] at hopens
    obtain ⟨command, -, rfl⟩ := Option.map_eq_some_iff.mp hopens
    simp [openRequest, hinserts.2.2.2.2]

/-- A message that responds to identifier zero reports itself at most. -/
private theorem expectsResponse_of_completed {call : Call} {completed : PendingRequest}
    (hresponds : call.respondsTo key 0) (hcompleted : call.completed lib p = some completed) :
    completed.expectsResponse = false := by
  cases call with
  | chunk raw => cases hcompleted
  | record host captured => cases hcompleted
  | message host raw truncated decoded =>
    simp only [Call.completed, hresponds.2, if_true] at hcompleted
    split at hcompleted
    · next hmore =>
      obtain ⟨command, -, rfl⟩ := Option.map_eq_some_iff.mp hcompleted
      simp [openRequest, hmore]
    · cases hcompleted

private theorem completed_of_inserts {call : Call} (hinserts : call.inserts key requestId) :
    call.completed lib p = none := by
  cases call with
  | chunk raw => rfl
  | record host captured => rfl
  | message host raw truncated decoded =>
    simp [Call.completed, hinserts.2.2.1, hinserts.2.2.2.2]

private theorem opens_of_inserts (lib : External) (p : EventProcessor) {call : Call}
    (hinserts : call.inserts key requestId) :
    ∃ opened, call.opens lib p = some opened := by
  cases call with
  | chunk raw => cases hinserts
  | record host captured => cases hinserts
  | message host raw truncated decoded =>
    obtain ⟨command, hcommand⟩ := Option.isSome_iff_exists.mp hinserts.2.2.2.1
    simp only [Call.opens, hinserts.2.2.1, hcommand, if_true, Option.map_some]
    exact ⟨_, rfl⟩

/-- A reply to an identifier other than zero completes and removes what waits under it. -/
private theorem completed_of_respondsTo (lib : External) (p : EventProcessor) {call : Call}
    (hresponds : call.respondsTo key requestId)
    (hzero : requestId ≠ 0) :
    call.completed lib p = p.waiting key requestId ∧
      (call.step lib p).1.waiting key requestId = none := by
  have hanswers : call.answers key requestId := by
    cases call with
    | chunk raw => cases hresponds
    | record host captured => cases hresponds
    | message host raw truncated decoded =>
      exact ⟨hresponds.1, hresponds.2, by rw [hresponds.2]; exact hzero⟩
  constructor
  · cases call with
    | chunk raw => cases hresponds
    | record host captured => cases hresponds
    | message host raw truncated decoded =>
      simp only [Call.completed, hresponds.1, hresponds.2, hzero, if_false]
  · cases hwaiting : (call.step lib p).1.waiting key requestId with
    | none => rfl
    | some left =>
      rcases waiting_step hwaiting with ⟨hinserts, -⟩ | ⟨-, -, hnot, -⟩
      · cases call with
        | chunk raw => cases hinserts
        | record host captured => cases hinserts
        | message host raw truncated decoded => exact absurd hinserts.2.2.1 hanswers.2.2
      · exact absurd hanswers hnot

/-- The activity of the completed request carries the fields of both messages. -/
private theorem carriesExchange_activityOf {q : EventProcessor} {request reply : Call}
    {opened : PendingRequest} (hopens : request.opens lib p = some opened)
    (hresponds : reply.respondsTo key requestId) (hzero : requestId ≠ 0) :
    carriesExchange (q.activityOf opened (reply.response opened)) request reply := by
  cases request with
  | chunk raw => cases hopens
  | record host captured => cases hopens
  | message host raw truncated decoded =>
    cases reply with
    | chunk raw => cases hresponds
    | record host captured => cases hresponds
    | message host' raw' truncated' decoded' =>
      simp only [Call.opens] at hopens
      split at hopens
      · obtain ⟨command, hcommand, rfl⟩ := Option.map_eq_some_iff.mp hopens
        simp [carriesExchange, activityOf, Call.response, openRequest, takeHashedPrincipal,
          hcommand, hresponds.2, hzero]
      · cases hopens

/-! ### Reports -/

section Reports

variable {before between after : List Call} {request reply : Call} {opened : PendingRequest}

/-- An entry that is the request of an exchange stands under the exchange's own key. -/
private theorem Exchange.pendingKey_eq
    (h : Exchange lib config before request between reply key requestId)
    (hopens : request.opens lib ((EventProcessor.new config).afterCalls lib before) = some opened)
    {calls : List Call} {pendingKey : PendingKey}
    (hget : ((EventProcessor.new config).afterCalls lib calls).pending.get? pendingKey =
      some opened) : pendingKey = (key.1, key.2, requestId) := by
  obtain ⟨tgid, connectionKey, id⟩ := pendingKey
  have hwaiting : ((EventProcessor.new config).afterCalls lib calls).waiting
      (tgid, connectionKey) id = some opened := hget
  have hkey := connectionStateKey_of_waiting hwaiting
  obtain ⟨start, opener, later, -, hinserts, hopens', -⟩ := waiting_origin hwaiting
  rw [← requestId_of_opens hinserts hopens', requestId_of_opens h.inserts hopens]
  rw [(opens_spec hopens).1, key_of_inserts h.inserts] at hkey
  rw [hkey]

/-- The reply reports the request. -/
private theorem Exchange.reports
    (h : Exchange lib config before request between reply key requestId) (hzero : requestId ≠ 0)
    (hopens : request.opens lib ((EventProcessor.new config).afterCalls lib before) =
      some opened) :
    Reports lib config (before ++ request :: between ++ reply :: after) before.length
      (before ++ request :: between).length := by
  have hlength : (before ++ request :: between).length = before.length + 1 + between.length := by
    simp only [List.length_append, List.length_cons]
    omega
  have hstate : stateAt lib config (before ++ request :: between ++ reply :: after)
      (before ++ request :: between).length =
        (EventProcessor.new config).afterCalls lib (before ++ request :: between) := by
    rw [hlength, stateAt_between (Nat.le_refl _), List.take_length]
  obtain ⟨hcompleted, hgone⟩ := completed_of_respondsTo lib
    ((EventProcessor.new config).afterCalls lib (before ++ request :: between)) h.responds hzero
  refine ⟨reply, opened, by simp, ?_, .inr ⟨by omega, request, (key.1, key.2, requestId), by simp,
    ?_, ?_, ?_⟩⟩
  · rw [hstate, hcompleted]
    exact h.waiting hopens (List.append_nil between).symm
  · rw [stateAt_before]
    exact hopens
  · intro m hm hmj
    obtain ⟨n, rfl⟩ := Nat.exists_eq_add_of_lt hm
    rw [show before.length + n + 1 = before.length + 1 + n by omega,
      stateAt_between (by omega)]
    exact h.waiting hopens (List.take_append_drop n between).symm
  · rw [stateAt_after]
    exact hgone

/-- No other call reports the request. -/
private theorem Exchange.eq_of_reports
    (h : Exchange lib config before request between reply key requestId) (hzero : requestId ≠ 0)
    (hopens : request.opens lib ((EventProcessor.new config).afterCalls lib before) = some opened)
    {j : ℕ} (hreports : Reports lib config (before ++ request :: between ++ reply :: after)
      before.length j) : j = (before ++ request :: between).length := by
  have hlength : (before ++ request :: between).length = before.length + 1 + between.length := by
    simp only [List.length_append, List.length_cons]
    omega
  obtain ⟨call, completed, hcall, hcompleted, hself | hlater⟩ := hreports
  · obtain ⟨rfl, -⟩ := hself
    rw [List.append_assoc, List.getElem?_append_right (Nat.le_refl _), Nat.sub_self] at hcall
    cases hcall
    rw [completed_of_inserts h.inserts] at hcompleted
    cases hcompleted
  · obtain ⟨hlt, opener, pendingKey, hopener, hopens', hstands, hgone⟩ := hlater
    rw [List.append_assoc, List.getElem?_append_right (Nat.le_refl _), Nat.sub_self] at hopener
    cases hopener
    rw [stateAt_before, hopens] at hopens'
    cases hopens'
    have hkey := h.pendingKey_eq hopens (hstands (before.length + 1) (by omega) hlt)
    subst hkey
    by_contra hne
    rcases Nat.lt_or_gt_of_ne hne with hearlier | hafter
    · obtain ⟨n, rfl⟩ := Nat.exists_eq_add_of_lt hlt
      rw [show before.length + n + 1 + 1 = before.length + 1 + (n + 1) by omega,
        stateAt_between (by omega)] at hgone
      have hwaiting := h.waiting hopens (List.take_append_drop (n + 1) between).symm
      rw [EventProcessor.waiting, hgone] at hwaiting
      cases hwaiting
    · have hstill := hstands ((before ++ request :: between).length + 1) (by omega) hafter
      rw [stateAt_after] at hstill
      have hremoved := (completed_of_respondsTo lib
        ((EventProcessor.new config).afterCalls lib (before ++ request :: between))
        h.responds hzero).2
      rw [EventProcessor.waiting, hstill] at hremoved
      cases hremoved

/-- A message that responds to identifier zero does not report the request. -/
private theorem Exchange.not_reports_zero
    (h : Exchange lib config before request between reply key 0)
    (hopens : request.opens lib ((EventProcessor.new config).afterCalls lib before) =
      some opened) :
    ¬ Reports lib config (before ++ request :: between ++ reply :: after) before.length
      (before ++ request :: between).length := by
  rintro ⟨call, completed, hcall, hcompleted, hself | hlater⟩
  · have := hself.1
    simp only [List.length_append, List.length_cons] at this
    omega
  · obtain ⟨-, opener, pendingKey, hopener, hopens', -, -⟩ := hlater
    rw [List.getElem?_append_right (Nat.le_refl _), Nat.sub_self] at hcall
    rw [List.append_assoc, List.getElem?_append_right (Nat.le_refl _), Nat.sub_self] at hopener
    cases hcall
    cases hopener
    rw [stateAt_before, hopens] at hopens'
    cases hopens'
    have hexpects := expectsResponse_of_inserts h.inserts hopens
    rw [expectsResponse_of_completed h.responds hcompleted] at hexpects
    cases hexpects

end Reports

/-- A waiting request is reported at the message that responds to it, once and with
the fields of both, if and only if its identifier is not zero. -/
theorem reportedOnce_iff {before between after : List Call} {request reply : Call}
    (h : Exchange lib config before request between reply key requestId) :
    ReportedOnce lib config before request between reply after ↔ requestId ≠ 0 := by
  obtain ⟨opened, hopens⟩ :=
    opens_of_inserts lib ((EventProcessor.new config).afterCalls lib before) h.inserts
  constructor
  · rintro ⟨hreports, -⟩ rfl
    exact h.not_reports_zero hopens ((hreports _).mpr rfl)
  · intro hzero
    refine ⟨fun j => ⟨h.eq_of_reports hzero hopens, ?_⟩,
      activityOf ((EventProcessor.new config).afterCalls lib (before ++ request :: between)) opened
        (reply.response opened), ?_, carriesExchange_activityOf hopens h.responds hzero⟩
    · rintro rfl
      exact h.reports hzero hopens
    · rw [step_activities, (completed_of_respondsTo lib _ h.responds hzero).1,
        h.waiting hopens (List.append_nil between).symm]
      rfl

/-- A `find` request, as decoded from its frame. -/
def findRequest (requestId : ℤ) : Call :=
  .message .silent (.ofChunk 1 7 8 0 []) false
    { requestId, responseTo := 0, wireBytes := 49, flags := 0, moreToCome := false
      compressed := false, status := none
      command := some { name := "find", database := some "d", collection := some "c" } }

/-- The reply `{ok: 1}` to a request other than zero, as decoded from its frame. -/
def okReply (responseTo : ℤ) : Call :=
  .message .silent (.ofChunk 2 7 8 1 []) false
    { requestId := 9, responseTo, wireBytes := 34, flags := 0, moreToCome := false
      compressed := false, command := none, status := some { ok := some true } }

/-- The reply `{ok: 1}` to request zero: it decodes as a command named `ok`. -/
def okReplyToZero : Call :=
  .message .silent (.ofChunk 2 7 8 1 []) false
    { requestId := 9, responseTo := 0, wireBytes := 34, flags := 0, moreToCome := false
      compressed := false, command := some { name := "ok" }, status := none }

/-- Another request and its reply, and a reply to request 5 on another connection. -/
def interleaved : List Call :=
  [findRequest 6,
    .message .silent (.ofChunk 2 7 9 1 []) false
      { requestId := 9, responseTo := 5, wireBytes := 34, flags := 0, moreToCome := false
        compressed := false, command := none, status := some { ok := some true } },
    okReply 6]

private theorem untouched_interleaved :
    ∀ earlier call later, interleaved = earlier ++ call :: later →
      ¬ call.forgets (7, 8) ∧ ¬ call.inserts (7, 8) 5 ∧ ¬ call.answers (7, 8) 5 ∧
        ¬ call.evicts (.ofDigests sampleDigests)
          ((EventProcessor.new .sample).afterCalls (.ofDigests sampleDigests)
            ([] ++ findRequest 5 :: earlier)) (7, 8) 5 := by
  refine forall_split_cons ?_ (forall_split_cons ?_ (forall_split_cons ?_ forall_split_nil))
  · -- the table has room for the other request
    refine ⟨nofun, fun hinserts => absurd hinserts.2.1 (by decide),
      fun hanswers => hanswers.2.2 rfl, ?_⟩
    rintro ⟨command, -, hcommand, -, -, hnone⟩
    cases hcommand
    exact absurd hnone (by decide +kernel)
  · exact ⟨nofun, fun hinserts => absurd hinserts.1 (by decide),
      fun hanswers => absurd hanswers.1 (by decide), fun ⟨_, hzero, _⟩ => absurd hzero (by decide)⟩
  · exact ⟨nofun, fun hinserts => absurd hinserts.2.1 (by decide),
      fun hanswers => absurd hanswers.2.1 (by decide),
      fun ⟨_, hzero, _⟩ => absurd hzero (by decide)⟩

theorem findRequest_reportedOnce :
    Exchange (.ofDigests sampleDigests) .sample [] (findRequest 5) interleaved (okReply 5) (7, 8)
        5 ∧
      ReportedOnce (.ofDigests sampleDigests) .sample [] (findRequest 5) interleaved (okReply 5)
        [] := by
  have h : Exchange (.ofDigests sampleDigests) .sample [] (findRequest 5) interleaved (okReply 5)
      (7, 8) 5 :=
    ⟨⟨rfl, rfl, rfl, rfl, rfl⟩, ⟨rfl, rfl⟩, untouched_interleaved⟩
  exact ⟨h, (reportedOnce_iff h).mpr (by decide)⟩

/-- A request with identifier zero is never reported: its reply is read as a request. -/
theorem findRequest_zero_not_reportedOnce :
    Exchange (.ofDigests sampleDigests) .sample [] (findRequest 0) [] okReplyToZero (7, 8) 0 ∧
      ¬ ReportedOnce (.ofDigests sampleDigests) .sample [] (findRequest 0) [] okReplyToZero [] := by
  refine ⟨⟨⟨rfl, rfl, rfl, rfl, rfl⟩, ⟨rfl, rfl⟩, forall_split_nil⟩, ?_⟩
  rintro ⟨-, activity, hactivity, -⟩
  have hnone : (okReplyToZero.step (.ofDigests sampleDigests)
      ((EventProcessor.new .sample).afterCalls (.ofDigests sampleDigests)
        ([] ++ findRequest 0 :: []))).2.filterMap DamEvent.activity? = [] := by
    rw [step_activities]
    rfl
  rw [hnone] at hactivity
  cases hactivity

end MongoDam.Observer
