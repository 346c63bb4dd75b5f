import MongoDam.Observer.Provenance
import MongoDam.Protocol.Encode

/-!
# Attribution of activities to principals

An activity names a principal only if its connection authenticated that principal
before the request was opened. The invariant follows a principal hash through the
processor: it enters as the pending principal or in a waiting request when an
authentication request presents it, and it becomes the authenticated principal when
a reply finishes the exchange. A close or an exit clears every step of the way.
-/

namespace MongoDam.Observer

open Lib Schema Protocol

namespace Call

/-- The call is an authentication request on the connection whose principal hashes
to `hash`. -/
def presents (lib : External) (config : ProcessorConfig) (key : ConnectionKey)
    (hash : String) : Call → Prop
  | .message _ raw _ decoded =>
    raw.key = key ∧ decoded.responseTo = 0 ∧ ∃ command principal salt,
      decoded.command = some command ∧ commandCarriesAuthentication command ∧
      command.principal = some principal ∧ config.principalHashSalt = some salt ∧
      hashPrincipal lib salt principal = hash
  | _ => False

/-- The call is a successful reply on the connection to a pending authentication
request, and completes the exchange. -/
def finishes (p : EventProcessor) (key : ConnectionKey) : Call → Prop
  | .message _ raw _ decoded =>
    raw.key = key ∧ decoded.responseTo ≠ 0 ∧ ∃ request status,
      p.waiting key decoded.responseTo = some request ∧
      commandCarriesAuthentication request.command ∧ decoded.status = some status ∧
      status.ok = some true ∧ authenticationExchangeCompleted request.command status.authDone
  | _ => False

end Call

open EventProcessor

/-- In the run the connection authenticated the principal with this hash, and was
neither closed nor lost its process since the principal was presented. -/
def AuthenticatedIn (lib : External) (config : ProcessorConfig) (key : ConnectionKey)
    (hash : String) (calls : List Call) : Prop :=
  ∃ before login between finish after,
    calls = before ++ login :: between ++ finish :: after ∧
      login.presents lib config key hash ∧
      finish.finishes ((EventProcessor.new config).afterCalls lib (before ++ login :: between))
        key ∧
      ∀ call ∈ between ++ finish :: after, ¬ call.forgets key

/-- In the run the principal was presented on the connection, which was neither
closed nor lost its process since. -/
def PresentedIn (lib : External) (config : ProcessorConfig) (key : ConnectionKey)
    (hash : String) (calls : List Call) : Prop :=
  ∃ before login after, calls = before ++ login :: after ∧
    login.presents lib config key hash ∧ ∀ call ∈ after, ¬ call.forgets key

/-- The event is the report of the activity of a request: the request call emits it
itself, or a later reply to it on its connection does. -/
def ReportsRequest (lib : External) (config : ProcessorConfig) (before : List Call)
    (request : Call) (after : List Call) (event : DamEvent) : Prop :=
  let p := (EventProcessor.new config).afterCalls lib before
  ∃ opened activity, request.opens lib p = some opened ∧ event.activity? = some activity ∧
    ((request.completed lib p = some opened ∧ event ∈ (request.step lib p).2 ∧
        activity = p.activityOf opened none) ∨
      ∃ between reply rest, after = between ++ reply :: rest ∧
        let q := (EventProcessor.new config).afterCalls lib (before ++ request :: between)
        reply.answers request.key opened.requestId ∧ reply.completed lib q = some opened ∧
          event ∈ (reply.step lib q).2 ∧ activity = q.activityOf opened (reply.response opened))

variable {lib : External} {config : ProcessorConfig} {p : EventProcessor} {key : ConnectionKey}
  {hash : String}

theorem PresentedIn.append {calls : List Call} {call : Call}
    (h : PresentedIn lib config key hash calls) (hforgets : ¬ call.forgets key) :
    PresentedIn lib config key hash (calls ++ [call]) := by
  obtain ⟨before, login, after, rfl, hpresents, hlater⟩ := h
  refine ⟨before, login, after ++ [call], by simp, hpresents, ?_⟩
  intro later hmem
  rcases List.mem_append.mp hmem with hmem | hmem
  · exact hlater later hmem
  · rw [List.mem_singleton.mp hmem]
    exact hforgets

theorem AuthenticatedIn.append {calls : List Call} {call : Call}
    (h : AuthenticatedIn lib config key hash calls) (hforgets : ¬ call.forgets key) :
    AuthenticatedIn lib config key hash (calls ++ [call]) := by
  obtain ⟨before, login, between, finish, after, rfl, hpresents, hfinishes, hlater⟩ := h
  refine ⟨before, login, between, finish, after ++ [call], by simp, hpresents, hfinishes, ?_⟩
  intro later hmem
  rw [← List.cons_append, ← List.append_assoc] at hmem
  rcases List.mem_append.mp hmem with hmem | hmem
  · exact hlater later hmem
  · rw [List.mem_singleton.mp hmem]
    exact hforgets

/-- Finishing after the principal was presented authenticates it. -/
theorem PresentedIn.finish {calls : List Call} {call : Call}
    (h : PresentedIn lib config key hash calls)
    (hfinishes : call.finishes ((EventProcessor.new config).afterCalls lib calls) key)
    (hforgets : ¬ call.forgets key) : AuthenticatedIn lib config key hash (calls ++ [call]) := by
  obtain ⟨before, login, after, rfl, hpresents, hlater⟩ := h
  refine ⟨before, login, after, call, [], by simp, hpresents, hfinishes, ?_⟩
  intro later hmem
  rcases List.mem_append.mp hmem with hmem | hmem
  · exact hlater later hmem
  · rw [List.mem_singleton.mp hmem]
    exact hforgets

/-! ### One step -/

private theorem presents_of_targetHash {host : Host} {raw : KernelEvent} {truncated : Bool}
    {decoded : DecodedMessage} {command : MongoCommand} (hreply : decoded.responseTo = 0)
    (hcommand : decoded.command = some command) (hcarries : commandCarriesAuthentication command)
    (hhash : (takeHashedPrincipal lib command config.principalHashSalt).2 = some hash) :
    (Call.message host raw truncated decoded).presents lib config raw.key hash := by
  obtain ⟨principal, hprincipal, hmap⟩ := Option.bind_eq_some_iff.mp hhash
  obtain ⟨salt, hsalt, heq⟩ := Option.map_eq_some_iff.mp hmap
  exact ⟨rfl, hreply, command, principal, salt, hcommand, hcarries, hprincipal, hsalt, heq⟩

/-- An opened authentication request that carries a principal hash presents it. -/
private theorem presents_of_opens {call : Call} {request : PendingRequest}
    (hopens : call.opens lib p = some request)
    (hcarries : commandCarriesAuthentication request.command)
    (hhash : request.targetPrincipalHash = some hash) :
    call.presents lib p.config call.key hash := by
  cases call with
  | chunk raw => cases hopens
  | record host captured => cases hopens
  | message host raw truncated decoded =>
    simp only [Call.opens] at hopens
    split at hopens
    · next hreply =>
      obtain ⟨command, hcommand, rfl⟩ := Option.map_eq_some_iff.mp hopens
      exact presents_of_targetHash hreply hcommand hcarries hhash
    · cases hopens

/-- A pending principal was pending before, or the call presents it. -/
private theorem pendingAuth_step {call : Call}
    (h : ((call.step lib p).1.connection key).pendingAuthPrincipalHash = some hash) :
    ((p.connection key).pendingAuthPrincipalHash = some hash ∧ ¬ call.forgets key) ∨
      call.presents lib p.config key hash := by
  classical
  cases call with
  | chunk raw =>
    rw [connection_chunk] at h
    exact .inl ⟨h, id⟩
  | record host captured =>
    change (ConnectionState.session _).2 = some hash at h
    rw [session_record] at h
    split at h
    · cases h
    · next hforgets => exact .inl ⟨h, hforgets⟩
  | message host raw truncated decoded =>
    by_cases hreply : decoded.responseTo = 0
    · rw [connection_step_request hreply] at h
      cases hcommand : decoded.command with
      | none =>
        rw [hcommand] at h
        exact .inl ⟨h, id⟩
      | some command =>
        simp only [hcommand, connection_openRequest] at h
        split at h
        · next hkey =>
          subst hkey
          unfold rememberPrincipal at h
          split at h
          · next hremembers =>
            exact .inr (presents_of_targetHash hreply hcommand hremembers.1 h)
          · exact .inl ⟨h, id⟩
        · exact .inl ⟨h, id⟩
    · rw [connection_step_reply hreply] at h
      refine .inl ⟨?_, id⟩
      split at h
      · exact h
      · unfold settleAuthentication at h
        grind

/-- An authenticated principal was authenticated before, or the call finishes an
exchange that settles it. -/
private theorem authenticated_step {call : Call}
    (hkeyed : ∀ requestId request, p.waiting call.key requestId = some request →
      request.connectionStateKey = call.key)
    (h : ((call.step lib p).1.connection key).authenticatedPrincipalHash = some hash) :
    ((p.connection key).authenticatedPrincipalHash = some hash ∧ ¬ call.forgets key) ∨
      (call.finishes p key ∧ ¬ call.forgets key ∧ ∃ requestId request,
        p.waiting key requestId = some request ∧ commandCarriesAuthentication request.command ∧
        p.sessionAuthPrincipal request = some hash) := by
  classical
  cases call with
  | chunk raw =>
    rw [connection_chunk] at h
    exact .inl ⟨h, id⟩
  | record host captured =>
    change (ConnectionState.session _).1 = some hash at h
    rw [session_record] at h
    split at h
    · cases h
    · next hforgets => exact .inl ⟨h, hforgets⟩
  | message host raw truncated decoded =>
    by_cases hreply : decoded.responseTo = 0
    · rw [connection_step_request hreply] at h
      refine .inl ⟨?_, id⟩
      split at h
      · exact h
      · simp only [connection_openRequest] at h
        unfold rememberPrincipal at h
        grind
    · rw [connection_step_reply hreply] at h
      split at h
      · exact .inl ⟨h, id⟩
      · next request hwaiting =>
        have hkey := hkeyed _ _ hwaiting
        split at h
        · next hsettles =>
          obtain ⟨hcarries, rfl⟩ := hsettles
          unfold settleAuthentication at h
          split at h
          · exact .inl ⟨h, id⟩
          · split at h
            · next hdone =>
              obtain ⟨hok, hcompleted⟩ := hdone
              obtain ⟨status, hstatus, hstatusOk⟩ := Option.bind_eq_some_iff.mp hok
              rw [hstatus] at hcompleted
              refine .inr ⟨⟨hkey.symm, hreply, request, status, ?_, hcarries, hstatus, hstatusOk,
                hcompleted⟩, id, decoded.responseTo, request, ?_, hcarries, h⟩ <;>
              · rw [hkey]
                exact hwaiting
            · exact .inl ⟨h, id⟩
        · exact .inl ⟨h, id⟩

/-! ### Runs -/

/-- The pending principal of a connection was presented since it was last forgotten. -/
theorem pendingAuth_presented {calls : List Call}
    (h :
      (((EventProcessor.new config).afterCalls lib calls).connection key).pendingAuthPrincipalHash =
        some hash) : PresentedIn lib config key hash calls := by
  induction calls using List.reverseRecOn with
  | nil => cases h
  | append_singleton calls call ih =>
    rw [afterCalls_append] at h
    rcases pendingAuth_step h with ⟨hbefore, hforgets⟩ | hpresents
    · exact (ih hbefore).append hforgets
    · rw [afterCalls_config] at hpresents
      refine ⟨calls, call, [], rfl, hpresents, ?_⟩
      rintro later hlater
      cases hlater

/-- A waiting authentication request presented its principal since the connection
was last forgotten. -/
theorem waiting_presented {calls : List Call} {requestId : ℤ} {request : PendingRequest}
    (hwaiting : ((EventProcessor.new config).afterCalls lib calls).waiting key requestId =
      some request) (hcarries : commandCarriesAuthentication request.command)
    (hhash : request.targetPrincipalHash = some hash) : PresentedIn lib config key hash calls := by
  obtain ⟨before, login, after, rfl, hinserts, hopens, hlater⟩ := waiting_origin hwaiting
  have hpresents := presents_of_opens hopens hcarries hhash
  rw [afterCalls_config, key_of_inserts hinserts] at hpresents
  exact ⟨before, login, after, rfl, hpresents, fun later hmem => (hlater later hmem).2.2⟩

/-- The authenticated principal of a connection completed an authentication since
the connection was last forgotten. -/
theorem authenticated_of_run {calls : List Call}
    (h : (((EventProcessor.new config).afterCalls lib calls).connection
      key).authenticatedPrincipalHash = some hash) : AuthenticatedIn lib config key hash calls := by
  induction calls using List.reverseRecOn with
  | nil => cases h
  | append_singleton calls call ih =>
    rw [afterCalls_append] at h
    rcases authenticated_step (fun _ _ => connectionStateKey_of_waiting) h with
      ⟨hbefore, hforgets⟩ | ⟨hfinishes, hforgets, requestId, request, hwaiting, hcarries, hhash⟩
    · exact (ih hbefore).append hforgets
    · refine PresentedIn.finish ?_ hfinishes hforgets
      rw [sessionAuthPrincipal, Option.or_eq_some_iff] at hhash
      rcases hhash with htarget | ⟨-, hpending⟩
      · exact waiting_presented hwaiting hcarries htarget
      · rw [connectionStateKey_of_waiting hwaiting] at hpending
        exact pendingAuth_presented hpending

/-- Every activity of a run reports a request of the run. -/
theorem activity_reported {records : List Record} {event : DamEvent} {activity : MongodbActivity}
    (hevent : event ∈ (EventProcessor.new config).emittedRecords lib records)
    (hactivity : event.activity? = some activity) :
    ∃ before request after,
      (EventProcessor.new config).trace lib records = before ++ request :: after ∧
        ReportsRequest lib config before request after event := by
  rw [emittedRecords_eq_emitted] at hevent
  obtain ⟨before, call, after, htrace, hmem⟩ := mem_emitted hevent
  have hreported : activity ∈ (call.step lib ((EventProcessor.new config).afterCalls lib
      before)).2.filterMap DamEvent.activity? := List.mem_filterMap.mpr ⟨event, hmem, hactivity⟩
  rw [step_activities, Option.mem_toList, Option.map_eq_some_iff] at hreported
  obtain ⟨opened, hcompleted, rfl⟩ := hreported
  cases call with
  | chunk raw => cases hcompleted
  | record host captured => cases hcompleted
  | message host raw truncated decoded =>
    by_cases hreply : decoded.responseTo = 0
    · have hopens : (Call.message host raw truncated decoded).opens lib
          ((EventProcessor.new config).afterCalls lib before) = some opened := by
        simp only [Call.completed, hreply, if_true] at hcompleted
        split at hcompleted
        · simpa only [Call.opens, hreply, if_true] using hcompleted
        · cases hcompleted
      refine ⟨before, _, after, htrace, opened, _, hopens, hactivity, .inl ⟨hcompleted, hmem, ?_⟩⟩
      simp only [Call.response, hreply, if_true]
    · have hwaiting := hcompleted
      simp only [Call.completed, hreply, if_false] at hwaiting
      obtain ⟨start, request, between, rfl, hinserts, hopens, -⟩ := waiting_origin hwaiting
      refine ⟨start, request, between ++ Call.message host raw truncated decoded :: after, ?_,
        opened, _, hopens, hactivity, .inr ⟨between, _, after, rfl, ?_, hcompleted, hmem, rfl⟩⟩
      · rw [htrace]
        simp
      · exact ⟨(key_of_inserts hinserts).symm, (requestId_of_opens hinserts hopens).symm, hreply⟩

/-- Every activity that names a principal reports a request of a connection that had
authenticated this principal before the request, and was neither closed nor lost its
process in between. -/
theorem activity_principal_authenticated {records : List Record} {event : DamEvent}
    {activity : MongodbActivity}
    (hevent : event ∈ (EventProcessor.new config).emittedRecords lib records)
    (hactivity : event.activity? = some activity) (hprincipal : activity.principal = some hash) :
    ∃ before request after,
      (EventProcessor.new config).trace lib records = before ++ request :: after ∧
        ReportsRequest lib config before request after event ∧
        AuthenticatedIn lib config request.key hash before := by
  obtain ⟨before, request, after, htrace, hreports⟩ := activity_reported hevent hactivity
  refine ⟨before, request, after, htrace, hreports, ?_⟩
  obtain ⟨opened, reported, hopens, hreported, hcompleted⟩ := hreports
  have hactor : reported.principal = opened.actorPrincipalHash := by
    rcases hcompleted with ⟨-, -, rfl⟩ | ⟨between, reply, rest, -, -, -, -, rfl⟩
    · rfl
    · rfl
  rw [hactivity] at hreported
  cases hreported
  apply authenticated_of_run
  rw [← (opens_spec hopens).2, ← hactor, hprincipal]

/-- A login of `alice` and a one-way `find` after it. -/
def loginRecords : List Record :=
  let login := encodeOpMsg 1 0 0 (encodeBody
    (encodeInt32 "authenticate" 1 ++ encodeString "user" "alice" ++ encodeString "$db" "a"))
  let reply := encodeOpMsg 9 1 0 (encodeBody (encodeInt32 "ok" 1))
  let find := encodeOpMsg 2 0 2 (encodeBody (encodeString "find" "c" ++ encodeString "$db" "d"))
  [(fun _ => .silent, { raw := .ofChunk 1 7 8 0 login }),
    (fun _ => .silent, { raw := .ofChunk 1 7 8 1 reply }),
    (fun _ => .silent, { raw := .ofChunk 1 7 8 0 find })]

/-- The `find` after the login names `alice`. -/
theorem loginRecords_principal_authenticated :
    ∃ event activity,
      event ∈ (EventProcessor.new .sample).emittedRecords (.ofDigests sampleDigests) loginRecords ∧
      event.activity? = some activity ∧ activity.principal = some aliceHash ∧
      ∃ before request after,
        (EventProcessor.new .sample).trace (.ofDigests sampleDigests) loginRecords =
          before ++ request :: after ∧
        ReportsRequest (.ofDigests sampleDigests) .sample before request after event ∧
        AuthenticatedIn (.ofDigests sampleDigests) .sample request.key aliceHash before := by
  have hprincipals : (((EventProcessor.new .sample).emittedRecords (.ofDigests sampleDigests)
      loginRecords).filterMap DamEvent.activity?).map (·.principal) =
        [none, some aliceHash] := by decide +kernel
  have hmem : some aliceHash ∈ (((EventProcessor.new .sample).emittedRecords
      (.ofDigests sampleDigests) loginRecords).filterMap DamEvent.activity?).map (·.principal) := by
    rw [hprincipals]
    simp
  obtain ⟨activity, hreported, hprincipal⟩ := List.mem_map.mp hmem
  obtain ⟨event, hevent, hactivity⟩ := List.mem_filterMap.mp hreported
  exact ⟨event, activity, hevent, hactivity, hprincipal,
    activity_principal_authenticated hevent hactivity hprincipal⟩

end MongoDam.Observer
