import Mathlib.Data.List.Dedup
import MongoDam.Observer.Kernel

/-!
# What is reported

Two options name the types of the events and the MongoDB commands that are reported, each
as names between commas. An event that is not enabled goes no further than the processor's
task.
-/

namespace MongoDam.Observer

open Lib Schema

def SUPPORTED_EVENT_TYPES : List String :=
  ["mongodb_activity", "mongodb_connection", "mongodb_auth", "dns_activity", "host_io", "profile",
    "process_lifecycle", "sensor_health"]

/-- `str::trim`. -/
def trim (text : List Char) : List Char :=
  ((text.dropWhile isWhitespace).reverse.dropWhile isWhitespace).reverse

/-- The names between the commas of an option; blank ones are left out. -/
def selectedNames (raw : String) : List String :=
  (((raw.toList.splitOn ',').map trim).filter (· ≠ [])).map String.ofList

/-- The names of the enabled event types, or nothing when all are. The set of the names is
searched in an order of its own. -/
def parseEnabledEventTypes (order : VisitOrder String) (raw : String) :
    Except String (Option (List String)) :=
  let selected := (selectedNames raw).dedup
  if selected = [] then
    .error "enabled_event_types must contain all or at least one event type"
  else if "all" ∈ selected then
    if selected.length = 1 then .ok none
    else .error "enabled_event_types cannot combine all with named event types"
  else
    match (order.visit selected).find? (fun eventType => eventType ∉ SUPPORTED_EVENT_TYPES) with
    | some eventType => .error ("unsupported enabled event type: " ++ eventType)
    | none => .ok (some selected)

def eventTypeIsEnabled (enabled : Option (List String)) (eventType : String) : Bool :=
  match enabled with
  | none => true
  | some eventTypes => eventType ∈ eventTypes

/-- The names of the enabled commands in lower case, or nothing when all are. -/
def parseEnabledMongodbCommands (raw : String) : Except String (Option (List String)) :=
  let selected := ((selectedNames raw).map toAsciiLowercase).dedup
  if selected = [] then
    .error "enabled_mongodb_commands must contain all or at least one command"
  else if "all" ∈ selected then
    if selected.length = 1 then .ok none
    else .error "enabled_mongodb_commands cannot combine all with named commands"
  else if selected.all (fun command => command.toList.all fun c => c.isAlphanum || c = '_') then
    .ok (some selected)
  else .error "enabled_mongodb_commands contains an invalid command name"

def eventTypeName : EventPayload → String
  | .mongodbActivity _ => "mongodb_activity"
  | .mongodbConnection _ => "mongodb_connection"
  | .mongodbAuth _ => "mongodb_auth"
  | .dnsActivity _ => "dns_activity"
  | .hostIo _ => "host_io"
  | .profile _ => "profile"
  | .processLifecycle _ => "process_lifecycle"
  | .sensorHealth _ => "sensor_health"

def eventIsEnabled (enabledEventTypes enabledMongodbCommands : Option (List String))
    (payload : EventPayload) : Bool :=
  if eventTypeIsEnabled enabledEventTypes (eventTypeName payload) then
    match payload with
    | .mongodbActivity activity =>
      match enabledMongodbCommands with
      | none => true
      | some commands => toAsciiLowercase activity.command ∈ commands
    | _ => true
  else false

/-! ### What the options select -/

/-- An option selects a name: it lists the name, or it lists `all`. -/
def Selects (names : List String) (name : String) : Prop := "all" ∈ names ∨ name ∈ names

/-- An accepted list of event types enables exactly the types it selects. -/
theorem eventTypeIsEnabled_iff {order : VisitOrder String} {raw : String}
    {enabled : Option (List String)} (h : parseEnabledEventTypes order raw = .ok enabled)
    (eventType : String) :
    eventTypeIsEnabled enabled eventType = true ↔ Selects (selectedNames raw) eventType := by
  unfold parseEnabledEventTypes at h
  simp only at h
  split at h
  · cases h
  split at h
  · next hall =>
    split at h
    · cases h
      simp [eventTypeIsEnabled, Selects, List.mem_dedup.mp hall]
    · cases h
  · next hall =>
    split at h
    · cases h
    · cases h
      rw [List.mem_dedup] at hall
      simp [eventTypeIsEnabled, Selects, hall]

/-- An accepted list of commands enables exactly the commands it selects, in whatever case. -/
private theorem commandIsEnabled_iff {raw : String} {enabled : Option (List String)}
    (h : parseEnabledMongodbCommands raw = .ok enabled) (command : String) :
    eventTypeIsEnabled enabled command = true ↔
      Selects ((selectedNames raw).map toAsciiLowercase) command := by
  unfold parseEnabledMongodbCommands at h
  simp only at h
  split at h
  · cases h
  split at h
  · next hall =>
    split at h
    · cases h
      simp [eventTypeIsEnabled, Selects, List.mem_dedup.mp hall]
    · cases h
  · next hall =>
    split at h
    · cases h
      rw [List.mem_dedup] at hall
      simp [eventTypeIsEnabled, Selects, hall]
    · cases h

/-- The payload of an event that the options select. -/
structure Selected (rawTypes rawCommands : String) (payload : EventPayload) : Prop where
  eventType : Selects (selectedNames rawTypes) (eventTypeName payload)
  command : ∀ activity, payload = .mongodbActivity activity →
    Selects ((selectedNames rawCommands).map toAsciiLowercase) (toAsciiLowercase activity.command)

/-- Accepted options enable exactly what they select. -/
theorem eventIsEnabled_iff {order : VisitOrder String} {rawTypes rawCommands : String}
    {types commands : Option (List String)}
    (htypes : parseEnabledEventTypes order rawTypes = .ok types)
    (hcommands : parseEnabledMongodbCommands rawCommands = .ok commands)
    (payload : EventPayload) :
    eventIsEnabled types commands payload = true ↔ Selected rawTypes rawCommands payload := by
  have hname := eventTypeIsEnabled_iff htypes (eventTypeName payload)
  constructor
  · intro h
    unfold eventIsEnabled at h
    split at h
    · next henabled =>
      refine ⟨hname.mp henabled, ?_⟩
      rintro activity rfl
      exact (commandIsEnabled_iff hcommands _).mp h
    · cases h
  · intro h
    unfold eventIsEnabled
    rw [if_pos (hname.mpr h.eventType)]
    cases payload with
    | mongodbActivity activity => exact (commandIsEnabled_iff hcommands _).mpr (h.command _ rfl)
    | _ => rfl

end MongoDam.Observer
