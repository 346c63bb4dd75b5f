import MongoDam.Observer.Provenance

/-!
# What every event carries

Every event of a run carries the identity of the configuration: the four assignment
ids, the sensor and the node. A request keeps the capture metadata of the record it came
with until it is answered. Whether an event is metadata only is decided when it is
built, and agrees with what it contains.
-/

namespace MongoDam.Observer

open Lib Schema Protocol

/-- A seed that was made under the configuration. -/
structure EventSeed.StampedBy (config : ProcessorConfig) (seed : EventSeed) : Prop where
  sensorId : seed.capture.sensorId = config.sensorId
  nodeName : seed.capture.nodeName = config.nodeName
  metadataOnly : seed.capture.metadataOnly = true

/-- An event that was made under the configuration. -/
structure StampedBy (config : ProcessorConfig) (event : DamEvent) : Prop where
  schemaVersion : event.schemaVersion = EVENT_SCHEMA_VERSION
  eventId : isBlank event.eventId = false
  customerId : event.customerId = config.customerId
  tenantId : event.tenantId = config.tenantId
  sourceId : event.sourceId = config.sourceId
  regionalCellId : event.regionalCellId = config.regionalCellId
  sensorId : event.capture.sensorId = config.sensorId
  nodeName : event.capture.nodeName = config.nodeName
  captureConsistent : event.captureConsistent = true

/-- A text that starts with a letter is not blank. -/
theorem isBlank_append {lead : String} (text : String) (h : isBlank lead = false) :
    isBlank (lead ++ text) = false := by
  unfold isBlank at h ⊢
  rw [String.toList_append, List.all_append, h, Bool.false_and]

namespace EventProcessor

variable {lib : External} {p : EventProcessor} {config : ProcessorConfig} {seed : EventSeed}

private theorem eventFromSeed_stampedBy {payload : EventPayload} (hconfig : p.config = config)
    (hsensor : seed.capture.sensorId = config.sensorId)
    (hnode : seed.capture.nodeName = config.nodeName)
    (hconsistent : (p.eventFromSeed lib seed payload).2.captureConsistent = true) :
    StampedBy config (p.eventFromSeed lib seed payload).2 := by
  subst hconfig
  exact ⟨rfl, isBlank_append _ (by decide), rfl, rfl, rfl, rfl, hsensor, hnode, hconsistent⟩

/-- A payload that can hold no query content. -/
private def plain : EventPayload → Bool
  | .mongodbActivity _ => false
  | _ => true

/-- An event that is no activity is metadata only. -/
private theorem plain_stampedBy {payload : EventPayload} (hconfig : p.config = config)
    (hseed : seed.StampedBy config) (hplain : plain payload = true) :
    StampedBy config (p.eventFromSeed lib seed payload).2 := by
  refine eventFromSeed_stampedBy hconfig hseed.sensorId hseed.nodeName ?_
  cases payload with
  | mongodbActivity activity => cases hplain
  | _ => exact hseed.metadataOnly

/-- An activity is metadata only exactly when it has no query. -/
private theorem activity_stampedBy {activity : MongodbActivity} (hconfig : p.config = config)
    (hseed : seed.StampedBy config) :
    StampedBy config
      (p.eventFromSeed lib (activitySeed seed activity) (.mongodbActivity activity)).2 := by
  have hcapture : (activitySeed seed activity).capture.sensorId = seed.capture.sensorId ∧
      (activitySeed seed activity).capture.nodeName = seed.capture.nodeName ∧
      (activity.query.isSome != (activitySeed seed activity).capture.metadataOnly) = true := by
    unfold activitySeed
    cases hquery : activity.query.isSome with
    | true => exact ⟨rfl, rfl, rfl⟩
    | false => exact ⟨rfl, rfl, by simp [hseed.metadataOnly]⟩
  obtain ⟨hsensor, hnode, hconsistent⟩ := hcapture
  exact eventFromSeed_stampedBy hconfig (hsensor.trans hseed.sensorId)
    (hnode.trans hseed.nodeName) hconsistent

/-! ### Completed requests -/

private theorem reportCompleted_stampedBy {request : PendingRequest}
    {response : Option (DecodedMessage × ℕ)} {sessionPrincipal : Option String} {event : DamEvent}
    (hconfig : p.config = config) (hseed : request.seed.StampedBy config)
    (h : event ∈ (p.reportCompleted lib request response sessionPrincipal).2) :
    StampedBy config event := by
  unfold reportCompleted at h
  dsimp only at h
  split at h
  · rcases List.mem_pair.mp h with rfl | rfl
    · exact activity_stampedBy hconfig hseed
    · have hafter : (p.eventFromSeed lib (activitySeed request.seed (p.activityOf request response))
          (.mongodbActivity (p.activityOf request response))).1.config = config := hconfig
      exact plain_stampedBy hafter hseed rfl
  · rw [List.mem_singleton] at h
    subst h
    exact activity_stampedBy hconfig hseed

private theorem completed_stampedBy {request : PendingRequest}
    {response : Option (DecodedMessage × ℕ)} {event : DamEvent} (hconfig : p.config = config)
    (hseed : request.seed.StampedBy config)
    (h : event ∈ (p.eventsForCompletedRequest lib request response).2) :
    StampedBy config event := by
  unfold eventsForCompletedRequest at h
  dsimp only at h
  split at h
  · refine reportCompleted_stampedBy ?_ hseed h
    exact hconfig
  · exact reportCompleted_stampedBy hconfig hseed h

/-- The seed of a request that is opened for a message. -/
private theorem openRequest_stampedBy {host : Host} {raw : KernelEvent} {truncated : Bool}
    {message : DecodedMessage} {command : MongoCommand} (hconfig : p.config = config) :
    (p.openRequest lib host raw truncated message command).2.seed.StampedBy config := by
  subst hconfig
  exact ⟨rfl, rfl, rfl⟩

/-- The seed of a request that a call opens. -/
private theorem opens_stampedBy {call : Call} {request : PendingRequest}
    (hconfig : p.config = config) (h : call.opens lib p = some request) :
    request.seed.StampedBy config := by
  cases call with
  | chunk raw => cases h
  | record host captured => cases h
  | message host raw truncated decoded =>
    simp only [Call.opens] at h
    split at h
    · obtain ⟨command, -, rfl⟩ := Option.map_eq_some_iff.mp h
      exact openRequest_stampedBy hconfig
    · cases h

/-! ### Other records -/

private theorem event_stampedBy {host : Host} {raw : KernelEvent} {truncated : Bool}
    {payload : EventPayload} (hconfig : p.config = config)
    (hplain : plain payload = true) :
    StampedBy config (p.event lib host raw truncated payload).2 := by
  refine plain_stampedBy hconfig ?_ hplain
  subst hconfig
  exact ⟨rfl, rfl, rfl⟩

private theorem latency_stampedBy {host : Host} {captured : CapturedKernelEvent} {event : DamEvent}
    (h : event ∈ (p.processLatency lib host captured).2) : StampedBy p.config event := by
  unfold processLatency at h
  dsimp only at h
  split at h
  · rw [List.mem_singleton] at h
    subst h
    exact event_stampedBy rfl rfl
  · split at h
    · cases h
    · rw [List.mem_singleton] at h
      subst h
      exact event_stampedBy rfl rfl

private theorem connection_stampedBy {host : Host} {captured : CapturedKernelEvent}
    {event : DamEvent} (h : event ∈ (p.processConnection lib host captured).2) :
    StampedBy p.config event := by
  unfold processConnection at h
  dsimp only at h
  split at h
  · cases h
  · rw [List.mem_singleton] at h
    subst h
    refine event_stampedBy ?_ rfl
    split
    · exact connectionMetadata_config ..
    · exact connectionMetadata_config ..

private theorem profile_stampedBy {host : Host} {captured : CapturedKernelEvent} {event : DamEvent}
    (h : event ∈ (p.processProfile lib host captured).2) : StampedBy p.config event := by
  unfold processProfile at h
  dsimp only at h
  split at h
  · rw [List.mem_singleton] at h
    subst h
    exact event_stampedBy rfl rfl
  · split at h
    · rw [List.mem_singleton] at h
      subst h
      exact event_stampedBy rfl rfl
    · cases h

private theorem lifecycle_stampedBy {host : Host} {captured : CapturedKernelEvent}
    {event : DamEvent} (h : event ∈ (p.processLifecycle lib host captured).2) :
    StampedBy p.config event := by
  unfold processLifecycle at h
  dsimp only at h
  split at h
  · rw [List.mem_singleton] at h
    subst h
    refine event_stampedBy ?_ rfl
    split
    · rfl
    · rfl
  · cases h

private theorem dns_stampedBy {host : Host} {captured : CapturedKernelEvent} {event : DamEvent}
    (h : event ∈ (p.processDns lib host captured).2.toOption.getD []) :
    StampedBy p.config event := by
  unfold processDns at h
  dsimp only at h
  split at h
  · cases h
  · simp only [Except.toOption, Option.getD_some, List.mem_singleton] at h
    subst h
    refine event_stampedBy ?_ rfl
    rw [connectionMetadata_config]
    split
    · rfl
    · rfl

private theorem record_stampedBy {host : Host} {captured : CapturedKernelEvent} {event : DamEvent}
    (h : event ∈ (p.processRecord lib host captured).2.toOption.getD []) :
    StampedBy p.config event := by
  unfold processRecord at h
  dsimp only at h
  split at h
  · exact latency_stampedBy h
  split at h
  · exact connection_stampedBy h
  split at h
  · exact profile_stampedBy h
  split at h
  · exact lifecycle_stampedBy h
  split at h
  · exact dns_stampedBy h
  · cases h

/-! ### Runs -/

/-- Every event of a run carries the identity of the configuration. -/
theorem emitted_stampedBy {calls : List Call} {event : DamEvent}
    (h : event ∈ (EventProcessor.new config).emitted lib calls) : StampedBy config event := by
  obtain ⟨before, call, after, rfl, hstep⟩ := mem_emitted h
  have hconfig : ∀ before, ((EventProcessor.new config).afterCalls lib before).config = config :=
    fun before => afterCalls_config ..
  cases call with
  | chunk raw => cases hstep
  | record host captured => exact hconfig before ▸ record_stampedBy hstep
  | message host raw truncated decoded =>
    simp only [Call.step] at hstep
    rcases processMessage_cases lib ((EventProcessor.new config).afterCalls lib before) host raw
      truncated decoded with ⟨heq, -, -⟩ | ⟨command, -, -, -, heq⟩ | ⟨command, -, -, -, heq⟩ |
      ⟨waiter, -, hwaiting, heq⟩
    · rw [heq] at hstep
      cases hstep
    · rw [heq] at hstep
      cases hstep
    · rw [heq] at hstep
      refine completed_stampedBy ?_ (openRequest_stampedBy (hconfig before)) hstep
      exact (openRequest_config ..).trans (hconfig before)
    · rw [heq] at hstep
      obtain ⟨start, opener, between, rfl, -, hopens, -⟩ := waiting_origin hwaiting
      have hseed : waiter.seed.StampedBy config := opens_stampedBy (hconfig start) hopens
      refine completed_stampedBy ?_ hseed hstep
      exact hconfig (start ++ opener :: between)

end EventProcessor

end MongoDam.Observer
