import Mathlib.Data.List.DropRight
import MongoDam.Observer.Endpoints
import MongoDam.Observer.Origins
import MongoDam.Protocol.Encode

/-!
# The TCP figures of a connection

The kernel reports round trip times and retransmissions in records of their own, and
the processor keeps the last round trip time and the number of retransmissions with the
connection. An event carries both as they were at the record it was made from: what
was measured since the connection, or its process, last ended. A descriptor or a key that
is used again starts afresh.
-/

namespace MongoDam.Observer

open Lib Schema Protocol

structure TcpFigures where
  tcpSrttUs : Option ℕ := none
  retransmits : ℕ := 0
  deriving DecidableEq, Repr

def ConnectionState.figures (state : ConnectionState) : TcpFigures where
  tcpSrttUs := state.tcpSrttUs
  retransmits := state.retransmits

/-- The round trip time that the record reports of the connection. -/
def rttSample? (key : ConnectionKey) (raw : KernelEvent) : Option ℕ :=
  if raw.eventType = EVENT_CONNECTION ∧ raw.operation = OP_TCP_RTT ∧ raw.key = key then
    some (min (raw.durationNs / 1000) (2 ^ 32 - 1))
  else none

/-- The record reports a retransmission on the connection. -/
def isRetransmission (key : ConnectionKey) (raw : KernelEvent) : Bool :=
  raw.eventType = EVENT_CONNECTION ∧ raw.operation = OP_TCP_RETRANSMIT ∧ raw.key = key

/-- The record ends the connection, or its process. -/
def endsConnection (key : ConnectionKey) (raw : KernelEvent) : Bool :=
  closesConnection raw key ∨ exitsProcess raw key.1

/-- The records since the connection last ended. -/
def lifetime (key : ConnectionKey) (raws : List KernelEvent) : List KernelEvent :=
  raws.rtakeWhile fun raw => !endsConnection key raw

/-- The last round trip time, and the number of retransmissions. -/
def measured (key : ConnectionKey) (raws : List KernelEvent) : TcpFigures where
  tcpSrttUs := (raws.filterMap (rttSample? key)).getLast?
  retransmits := min (raws.countP (isRetransmission key)) (2 ^ 32 - 1)

/-- The event carries the figures. -/
structure TcpFigures.CarriedBy (figures : TcpFigures) (connection : ConnectionMetadata) :
    Prop where
  tcpSrttUs : connection.tcpSrttUs = figures.tcpSrttUs
  retransmits : connection.retransmits =
    if 0 < figures.retransmits then some figures.retransmits else none

/-! ### One record after the other -/

namespace TcpFigures

variable {key : ConnectionKey} {raw : KernelEvent} {figures : TcpFigures}

/-- What a record adds to the figures. -/
def add (key : ConnectionKey) (figures : TcpFigures) (raw : KernelEvent) : TcpFigures where
  tcpSrttUs := (rttSample? key raw).or figures.tcpSrttUs
  retransmits :=
    if isRetransmission key raw then min (figures.retransmits + 1) (2 ^ 32 - 1)
    else figures.retransmits

/-- The figures after a record. -/
def after (key : ConnectionKey) (figures : TcpFigures) (raw : KernelEvent) : TcpFigures :=
  if endsConnection key raw then {} else figures.add key raw

theorem measured_concat (raws : List KernelEvent) :
    measured key (raws ++ [raw]) = (measured key raws).add key raw := by
  unfold measured add
  rw [List.filterMap_append, List.getLast?_append, List.countP_append, List.countP_singleton]
  congr 1
  · cases h : rttSample? key raw <;> simp [h]
  · dsimp only
    split <;> omega

theorem lifetime_concat (raws : List KernelEvent) :
    lifetime key (raws ++ [raw]) =
      if endsConnection key raw then [] else lifetime key raws ++ [raw] := by
  rw [lifetime, List.rtakeWhile_concat]
  cases endsConnection key raw <;> rfl

/-- The figures after some records are those measured since the last end. -/
theorem foldl_after (raws : List KernelEvent) :
    raws.foldl (TcpFigures.after key) {} = measured key (lifetime key raws) := by
  induction raws using List.reverseRecOn with
  | nil => rfl
  | append_singleton raws raw ih =>
    rw [List.foldl_concat, ih, lifetime_concat, after]
    split
    · rfl
    · exact (measured_concat _).symm

/-- A record that is not one of a connection adds nothing. -/
theorem add_of_ne (htype : raw.eventType ≠ EVENT_CONNECTION) : figures.add key raw = figures := by
  simp [add, rttSample?, isRetransmission, htype]

/-- A chunk changes nothing. -/
theorem after_of_chunk (htype : raw.eventType = EVENT_IO_CHUNK) :
    figures.after key raw = figures := by
  have hends : endsConnection key raw = false := by
    simp [endsConnection, closesConnection, exitsProcess, htype, EVENT_IO_CHUNK, EVENT_CONNECTION,
      EVENT_PROCESS]
  rw [after, hends]
  apply add_of_ne
  rw [htype]
  decide

/-- What `processConnection` measures. -/
theorem figures_measureConnection (state : ConnectionState)
    (htype : raw.eventType = EVENT_CONNECTION) :
    (EventProcessor.measureConnection raw state).figures = state.figures.add raw.key raw := by
  have hdifferent : OP_TCP_RTT ≠ OP_TCP_RETRANSMIT := by decide
  unfold EventProcessor.measureConnection add rttSample? isRetransmission
  by_cases hrtt : raw.operation = OP_TCP_RTT
  · simp [htype, hrtt, hdifferent, ConnectionState.figures]
  · by_cases hretransmit : raw.operation = OP_TCP_RETRANSMIT
    · simp [htype, hretransmit, hdifferent.symm, ConnectionState.figures]
    · simp [hrtt, hretransmit, ConnectionState.figures]

end TcpFigures

/-! ### The processor keeps these figures -/

namespace EventProcessor

variable {lib : External} {p : EventProcessor} {key : ConnectionKey} {host : Host}

section Records

variable {captured : CapturedKernelEvent}

/-- A record that neither measures nor ends anything leaves the figures alone. -/
private theorem after_of_quiet {raw : KernelEvent} {figures : TcpFigures}
    (hconnection : raw.eventType ≠ EVENT_CONNECTION)
    (hexit : ¬ exitsProcess raw key.1) : figures.after key raw = figures := by
  have hends : endsConnection key raw = false := by
    simp [endsConnection, closesConnection, hconnection, hexit]
  rw [TcpFigures.after, hends]
  exact TcpFigures.add_of_ne hconnection

private theorem figures_latency :
    (p.processLatency lib host captured).1.connection key = p.connection key := by
  unfold processLatency
  dsimp only
  split
  · rfl
  · split <;> rfl

private theorem figures_profile :
    (p.processProfile lib host captured).1.connection key = p.connection key := by
  unfold processProfile
  dsimp only
  split
  · rfl
  · split <;> rfl

private theorem figures_dns :
    (p.processDns lib host captured).1.connection key = p.connection key := by
  unfold processDns
  dsimp only
  split
  · rfl
  · refine (connection_connectionMetadata ..).trans ?_
    split <;> rfl

private theorem figures_lifecycle (htype : captured.raw.eventType = EVENT_PROCESS) :
    ((p.processLifecycle lib host captured).1.connection key).figures =
      (p.connection key).figures.after key captured.raw := by
  have hconnection : captured.raw.eventType ≠ EVENT_CONNECTION := by
    rw [htype]
    decide
  unfold processLifecycle
  dsimp only
  by_cases hexit : captured.raw.operation = OP_PROCESS_EXIT
  · simp only [hexit, or_true, if_true]
    refine (congrArg ConnectionState.figures (connection_forgetProcess ..)).trans ?_
    by_cases htgid : key.1 = captured.raw.tgid
    · have hends : endsConnection key captured.raw = true := by
        simp [endsConnection, exitsProcess, htype, hexit, htgid]
      rw [if_pos htgid, TcpFigures.after, hends]
      rfl
    · rw [if_neg htgid, after_of_quiet hconnection fun h => htgid h.2.2.symm]
  · rw [after_of_quiet hconnection fun h => hexit h.2.1]
    simp only [hexit, or_false, if_false]
    split <;> rfl

/-- A record of another connection leaves the figures alone. -/
private theorem after_of_other {raw : KernelEvent} {figures : TcpFigures}
    (htype : raw.eventType = EVENT_CONNECTION) (hother : raw.key ≠ key) :
    figures.after key raw = figures := by
  have hends : endsConnection key raw = false := by
    simp [endsConnection, closesConnection, exitsProcess, htype, hother, EVENT_CONNECTION,
      EVENT_PROCESS]
  rw [TcpFigures.after, hends]
  simp [TcpFigures.add, rttSample?, isRetransmission, hother]

private theorem figures_connection (htype : captured.raw.eventType = EVENT_CONNECTION) :
    ((p.processConnection lib host captured).1.connection key).figures =
      (p.connection key).figures.after key captured.raw := by
  have hexit : ∀ tgid, ¬ exitsProcess captured.raw tgid := by
    simp [exitsProcess, htype, EVENT_CONNECTION, EVENT_PROCESS]
  have hmeasured : ∀ other, ((p.updateConnection captured.raw.key
      (measureConnection captured.raw)).connection other).figures =
        if other = captured.raw.key then
          (p.connection captured.raw.key).figures.add captured.raw.key captured.raw
        else (p.connection other).figures := by
    intro other
    rw [connection_updateConnection]
    split
    · exact TcpFigures.figures_measureConnection _ htype
    · rfl
  unfold processConnection
  dsimp only
  by_cases hkey : key = captured.raw.key
  · subst hkey
    by_cases hclose : captured.raw.operation = OP_TCP_CLOSE
    · have hreport : connectionReport captured.raw = some ("closed", none, none) := by
        simp [connectionReport, hclose, OP_TCP_CONNECT, OP_TCP_ACCEPT, OP_TCP_CLOSE]
      have hends : endsConnection captured.raw.key captured.raw = true := by
        simp [endsConnection, closesConnection, htype, hclose]
      simp only [hreport, hclose, if_true, TcpFigures.after, hends]
      refine (congrArg ConnectionState.figures (connection_forgetConnection ..)).trans ?_
      rw [if_pos rfl]
      rfl
    · have hends : endsConnection captured.raw.key captured.raw = false := by
        simp [endsConnection, closesConnection, hclose, hexit]
      have hadded := hmeasured captured.raw.key
      rw [if_pos rfl] at hadded
      simp only [hclose, if_false, TcpFigures.after, hends, Bool.false_eq_true]
      split
      · exact hadded
      · exact (congrArg ConnectionState.figures (connection_connectionMetadata ..)).trans hadded
  · rw [after_of_other htype (Ne.symm hkey)]
    have hsame := hmeasured key
    rw [if_neg hkey] at hsame
    split
    · exact hsame
    · refine Eq.trans ?_ hsame
      split
      · refine (congrArg ConnectionState.figures (connection_forgetConnection ..)).trans ?_
        rw [if_neg hkey]
        exact congrArg ConnectionState.figures (connection_connectionMetadata ..)
      · exact congrArg ConnectionState.figures (connection_connectionMetadata ..)

/-- A record that is no chunk is one step of the figures. -/
theorem figures_record : ((p.processRecord lib host captured).1.connection key).figures =
    (p.connection key).figures.after key captured.raw := by
  have hquiet : captured.raw.eventType ≠ EVENT_CONNECTION →
      captured.raw.eventType ≠ EVENT_PROCESS → ∀ q : EventProcessor,
        q.connection key = p.connection key →
          (q.connection key).figures = (p.connection key).figures.after key captured.raw := by
    intro hconnection hprocess q hsame
    rw [hsame, after_of_quiet hconnection fun h => hprocess h.1]
  unfold processRecord succeed
  dsimp only
  by_cases hlatency : captured.raw.eventType = EVENT_SYSCALL_LATENCY
  · rw [if_pos hlatency]
    exact hquiet (by rw [hlatency]; decide) (by rw [hlatency]; decide) _ figures_latency
  rw [if_neg hlatency]
  by_cases hconnection : captured.raw.eventType = EVENT_CONNECTION
  · rw [if_pos hconnection]
    exact figures_connection hconnection
  rw [if_neg hconnection]
  by_cases hprofile : captured.raw.eventType = EVENT_PROFILE
  · rw [if_pos hprofile]
    exact hquiet hconnection (by rw [hprofile]; decide) _ figures_profile
  rw [if_neg hprofile]
  by_cases hprocess : captured.raw.eventType = EVENT_PROCESS
  · rw [if_pos hprocess]
    exact figures_lifecycle hprocess
  rw [if_neg hprocess]
  split
  · exact hquiet hconnection hprocess _ figures_dns
  · exact hquiet hconnection hprocess _ rfl

end Records

/-! ### Calls -/

section Messages

variable {raw : KernelEvent} {truncated : Bool} {decoded : DecodedMessage}

private theorem figures_rememberPrincipal (command : MongoCommand) (principal : Option String)
    (state : ConnectionState) :
    (rememberPrincipal command principal state).figures = state.figures := by
  unfold rememberPrincipal
  split <;> rfl

private theorem figures_settleAuthentication (command : MongoCommand) (principal : Option String)
    (succeeded authDone : Option Bool) (state : ConnectionState) :
    (settleAuthentication command principal succeeded authDone state).figures = state.figures := by
  unfold settleAuthentication
  split
  · rfl
  · split <;> rfl

private theorem figures_opened (command : MongoCommand) :
    ((p.openRequest lib host raw truncated decoded command).1.connection key).figures =
      (p.connection key).figures := by
  rw [connection_openRequest]
  split
  · next hkey => rw [hkey, figures_rememberPrincipal]
  · rfl

private theorem figures_completed (request : PendingRequest)
    (response : Option (DecodedMessage × ℕ)) :
    ((p.eventsForCompletedRequest lib request response).1.connection key).figures =
      (p.connection key).figures := by
  rw [connection_eventsForCompletedRequest]
  split
  · exact figures_settleAuthentication ..
  · rfl

/-- No message changes the figures. -/
private theorem figures_message :
    ((p.processMessage lib host raw truncated decoded).1.connection key).figures =
      (p.connection key).figures := by
  rcases p.processMessage_cases lib host raw truncated decoded with
    ⟨heq, -, -⟩ | ⟨command, -, -, -, heq⟩ | ⟨command, -, -, -, heq⟩ | ⟨request, -, -, heq⟩ <;>
    rw [heq]
  · exact figures_opened command
  · exact (figures_completed ..).trans (figures_opened command)
  · exact figures_completed ..

end Messages

end EventProcessor

/-- The record that a call handles as a whole. -/
def Call.ownRecord : Call → List KernelEvent
  | .record _ captured => [captured.raw]
  | _ => []

theorem Call.key_eq (call : Call) : call.key = call.raw.key := by
  cases call <;> rfl

namespace EventProcessor

variable {lib : External} {p : EventProcessor} {key : ConnectionKey} {host : Host}

/-- What a call does with the figures. -/
theorem figures_step (call : Call) : ((call.step lib p).1.connection key).figures =
    call.ownRecord.foldl (TcpFigures.after key) (p.connection key).figures := by
  cases call with
  | chunk raw => exact congrArg ConnectionState.figures (connection_chunk ..)
  | message host raw truncated decoded => exact figures_message
  | record host captured => exact figures_record

theorem figures_afterCalls (calls : List Call) :
    ((p.afterCalls lib calls).connection key).figures =
      (calls.flatMap Call.ownRecord).foldl (TcpFigures.after key) (p.connection key).figures := by
  induction calls generalizing p with
  | nil => rfl
  | cons call rest ih =>
    rw [afterCalls_cons, ih, figures_step, List.flatMap_cons, List.foldl_append]

/-! ### What the events carry -/

/-- The metadata of a connection carry its figures. -/
theorem connectionMetadata_carries (raw : KernelEvent) :
    (p.connection raw.key).figures.CarriedBy (p.connectionMetadata host raw).2 := by
  unfold connectionMetadata
  exact ⟨rfl, rfl⟩

/-- The event is made from the record, and carries the figures if it carries any. -/
structure MadeWith (raw : KernelEvent) (figures : TcpFigures) (event : DamEvent) : Prop where
  record : FromRecord raw event
  carries : ∀ connection, connectionOf event = some connection → figures.CarriedBy connection

variable {event : DamEvent}

private theorem connection_carries {captured : CapturedKernelEvent}
    (htype : captured.raw.eventType = EVENT_CONNECTION)
    (hevent : event ∈ (p.processConnection lib host captured).2)
    {connection : ConnectionMetadata} (hconnection : connectionOf event = some connection) :
    ((p.connection captured.raw.key).figures.add captured.raw.key captured.raw).CarriedBy
      connection := by
  have hmeasured := connection_updateConnection p captured.raw.key captured.raw.key
    (measureConnection captured.raw)
  rw [if_pos rfl] at hmeasured
  unfold processConnection at hevent
  dsimp only at hevent
  split at hevent
  · cases hevent
  · obtain rfl := List.mem_singleton.mp hevent
    obtain rfl := Option.some.inj hconnection
    rw [← TcpFigures.figures_measureConnection _ htype, ← hmeasured]
    exact connectionMetadata_carries captured.raw

private theorem dns_carries {captured : CapturedKernelEvent}
    (hevent : event ∈ (p.processDns lib host captured).2.toOption.getD [])
    {connection : ConnectionMetadata} (hconnection : connectionOf event = some connection) :
    (p.connection captured.raw.key).figures.CarriedBy connection := by
  have hcarries : ∀ pendingDns : Table DnsKey PendingDnsQuery,
      (p.connection captured.raw.key).figures.CarriedBy
        (connectionMetadata { p with pendingDns } host captured.raw).2 :=
    fun pendingDns => connectionMetadata_carries (p := { p with pendingDns }) captured.raw
  unfold processDns at hevent
  dsimp only at hevent
  split at hevent
  · cases hevent
  · obtain rfl := List.mem_singleton.mp hevent
    obtain rfl := Option.some.inj hconnection
    dsimp only
    split <;> exact hcarries _

/-- The events of a record carry what was measured up to it. -/
private theorem record_carries {captured : CapturedKernelEvent}
    (hevent : event ∈ (p.processRecord lib host captured).2.toOption.getD []) :
    MadeWith captured.raw
      ((p.connection captured.raw.key).figures.add captured.raw.key captured.raw) event := by
  refine ⟨(makes_record lib p).fromRecord hevent, fun connection hconnection => ?_⟩
  unfold processRecord succeed at hevent
  dsimp only at hevent
  split at hevent
  · unfold processLatency at hevent
    dsimp only [Except.toOption, Option.getD_some] at hevent
    split at hevent
    · cases List.mem_singleton.mp hevent
      cases hconnection
    · split at hevent
      · cases hevent
      · cases List.mem_singleton.mp hevent
        cases hconnection
  split at hevent
  · next htype => exact connection_carries htype hevent hconnection
  split at hevent
  · unfold processProfile at hevent
    dsimp only [Except.toOption, Option.getD_some] at hevent
    split at hevent
    · cases List.mem_singleton.mp hevent
      cases hconnection
    · split at hevent
      · cases List.mem_singleton.mp hevent
        cases hconnection
      · cases hevent
  split at hevent
  · unfold processLifecycle at hevent
    dsimp only [Except.toOption, Option.getD_some] at hevent
    split at hevent
    · cases List.mem_singleton.mp hevent
      cases hconnection
    · cases hevent
  split at hevent
  · next hother _ _ _ =>
    rw [TcpFigures.add_of_ne hother]
    exact dns_carries hevent hconnection
  · cases hevent

/-- The events of a completed request carry the figures it was opened with. -/
private theorem completed_carries {request : PendingRequest}
    {response : Option (DecodedMessage × ℕ)} {raw : KernelEvent} {figures : TcpFigures}
    (hevent : event ∈ (p.eventsForCompletedRequest lib request response).2)
    (hseed : request.seed.FromRecord raw) (hcarries : figures.CarriedBy request.connection) :
    MadeWith raw figures event := by
  have hmakes : Makes lib [raw] p (p.eventsForCompletedRequest lib request response).1
      (p.eventsForCompletedRequest lib request response).2 :=
    makes_completed rfl rfl ⟨raw, List.mem_singleton_self raw, hseed⟩
  refine ⟨hmakes.fromRecord hevent, fun connection hconnection => ?_⟩
  rwa [(eventsForCompletedRequest_spec lib p request response).2 event hevent connection
    hconnection]

/-- A request is opened with the figures of its connection. -/
private theorem opens_carries {call : Call} {request : PendingRequest}
    (h : call.opens lib p = some request) :
    (p.connection call.key).figures.CarriedBy request.connection := by
  cases call with
  | chunk raw => cases h
  | record host captured => cases h
  | message host raw truncated decoded =>
    simp only [Call.opens] at h
    split at h
    · obtain ⟨command, -, rfl⟩ := Option.map_eq_some_iff.mp h
      have hupdated := connection_updateConnection p raw.key raw.key (rememberPrincipal
        (takeHashedPrincipal lib command p.config.principalHashSalt).1
        (takeHashedPrincipal lib command p.config.principalHashSalt).2)
      rw [if_pos rfl] at hupdated
      have hsame := congrArg ConnectionState.figures hupdated
      rw [figures_rememberPrincipal] at hsame
      change (p.connection raw.key).figures.CarriedBy _
      rw [← hsame]
      exact connectionMetadata_carries raw
    · cases h

/-- The events of a call are made from its own record, or from that of the request it
completes. -/
private theorem call_carries {call : Call} (hevent : event ∈ (call.step lib p).2) :
    ((∀ requestId, ¬ call.answers call.key requestId) ∧ MadeWith call.raw
        (call.ownRecord.foldl (TcpFigures.add call.key) (p.connection call.key).figures) event) ∨
      ∃ requestId request, call.answers call.key requestId ∧
        p.waiting call.key requestId = some request ∧
        ∀ raw figures, request.seed.FromRecord raw → figures.CarriedBy request.connection →
          MadeWith raw figures event := by
  cases call with
  | chunk raw => cases hevent
  | record host captured => exact .inl ⟨fun _ => id, record_carries hevent⟩
  | message host raw truncated decoded =>
    simp only [Call.step] at hevent
    rcases p.processMessage_cases lib host raw truncated decoded with
      ⟨heq, -, -⟩ | ⟨command, -, -, -, heq⟩ | ⟨command, hreply, hcommand, -, heq⟩ |
      ⟨request, hanswer, hwaiting, heq⟩ <;> rw [heq] at hevent
    · cases hevent
    · cases hevent
    · have hopens : (Call.message host raw truncated decoded).opens lib p =
          some (p.openRequest lib host raw truncated decoded command).2 := by
        simp [Call.opens, hreply, hcommand]
      exact .inl ⟨fun requestId hanswers => hanswers.2.2 hreply,
        completed_carries hevent (opens_fromRecord hopens) (opens_carries hopens)⟩
    · exact .inr ⟨decoded.responseTo, request, ⟨rfl, rfl, hanswer⟩, hwaiting,
        fun _ _ => completed_carries hevent⟩

/-! ### Runs -/

/-- The calls of a record are all about it. Those of a chunk change no figures, and any other
record is handled as a whole. -/
theorem callsOf_cases (lib : External) (p : EventProcessor) (record : Record) :
    (record.2.raw.eventType = EVENT_IO_CHUNK ∧
        ∀ call ∈ p.callsOf lib record, call.raw = record.2.raw ∧ call.ownRecord = []) ∨
      p.callsOf lib record = [.record (record.1 0) record.2] := by
  unfold callsOf
  split
  · next htype =>
    refine .inl ⟨htype, fun call hcall => ?_⟩
    rcases List.mem_cons.mp hcall with rfl | hmessage
    · exact ⟨rfl, rfl⟩
    · split at hmessage
      · cases hmessage
      · obtain ⟨entry, -, rfl⟩ := List.mem_map.mp hmessage
        exact ⟨rfl, rfl⟩
  · exact .inr rfl

/-- Each call of a run is one of the calls of a record, in the state the records before it led
to. -/
theorem trace_eq_append {records : List Record} {before after : List Call} {call : Call}
    (h : p.trace lib records = before ++ call :: after) :
    ∃ older record later first rest, records = older ++ record :: later ∧
      before = p.trace lib older ++ first ∧
      (p.afterRecords lib older).callsOf lib record = first ++ call :: rest := by
  induction records generalizing p before with
  | nil => simp [trace] at h
  | cons record records ih =>
    rw [trace] at h
    rcases List.append_eq_append_iff.mp h with ⟨more, hbefore, hafter⟩ | ⟨more, hcalls, hrest⟩
    · obtain ⟨older, found, later, first, rest, rfl, rfl, hfound⟩ := ih hafter
      exact ⟨record :: older, found, later, first, rest, rfl, by rw [hbefore, trace,
        List.append_assoc], hfound⟩
    · cases more with
      | nil =>
        obtain ⟨older, found, later, first, rest, rfl, hempty, hfound⟩ :=
          ih (show _ = [] ++ call :: after from hrest.symm)
        refine ⟨record :: older, found, later, first, rest, rfl, ?_, hfound⟩
        rw [List.append_nil] at hcalls
        rw [trace, List.append_assoc, ← hempty, List.append_nil, hcalls]
      | cons next more =>
        obtain ⟨rfl, -⟩ := List.cons.inj hrest
        exact ⟨[], record, records, before, more, rfl, rfl, hcalls⟩

/-- The figures after the calls of a run are those after its records. -/
theorem foldl_trace (figures : TcpFigures) (records : List Record) :
    ((p.trace lib records).flatMap Call.ownRecord).foldl (TcpFigures.after key) figures =
      (records.map (·.2.raw)).foldl (TcpFigures.after key) figures := by
  induction records generalizing p figures with
  | nil => rfl
  | cons record rest ih =>
    rw [trace, List.flatMap_append, List.foldl_append, List.map_cons, List.foldl_cons, ih]
    congr 1
    rcases p.callsOf_cases lib record with ⟨htype, hcalls⟩ | hcalls
    · rw [TcpFigures.after_of_chunk htype, List.flatMap_eq_nil_iff.mpr fun call hcall =>
        (hcalls call hcall).2]
      rfl
    · rw [hcalls]
      rfl

variable {config : ProcessorConfig}

/-- The call, at its place in the run of the records, is one of the calls of the record. -/
def IsCallOf (lib : External) (p : EventProcessor) (earlier : List Call) (call : Call)
    (older : List Record) (record : Record) : Prop :=
  ∃ first rest, earlier = p.trace lib older ++ first ∧
    (p.afterRecords lib older).callsOf lib record = first ++ call :: rest

/-- The call that an event of a call takes its figures at: the call itself, or, when it is a
reply, the one that opened the request it answers, which has waited since. -/
inductive FiguresFrom (lib : External) (p : EventProcessor) (before : List Call) (call : Call) :
    List Call → Call → Prop
  | itself (hnone : ∀ requestId, ¬ call.answers call.key requestId) :
      FiguresFrom lib p before call before call
  | opener {requestId request earlier opener since}
      (hsplit : before = earlier ++ opener :: since)
      (hanswers : call.answers call.key requestId)
      (hinserts : opener.inserts call.key requestId)
      (hopens : opener.opens lib (p.afterCalls lib earlier) = some request)
      (hwaited : ∀ first rest, since = first ++ rest →
        (p.afterCalls lib (earlier ++ opener :: first)).waiting call.key requestId =
          some request) :
      FiguresFrom lib p before call earlier opener

/-- The figures that a call adds its own record to are those of the record it is a call of. -/
private theorem figures_of_trace {records : List Record} {before after : List Call} {call : Call}
    (h : (EventProcessor.new config).trace lib records = before ++ call :: after) :
    ∃ older record later, records = older ++ record :: later ∧
      IsCallOf lib (EventProcessor.new config) before call older record ∧
      call.raw = record.2.raw ∧
      call.ownRecord.foldl (TcpFigures.add call.key)
          ((((EventProcessor.new config).afterCalls lib before).connection call.key).figures) =
        measured record.2.raw.key
          (lifetime record.2.raw.key (older.map (·.2.raw)) ++ [record.2.raw]) := by
  obtain ⟨older, record, later, first, rest, rfl, rfl, hcalls⟩ := trace_eq_append h
  have hfigures : ∀ j, (((EventProcessor.new config).afterCalls lib
      ((EventProcessor.new config).trace lib older)).connection j).figures =
        measured j (lifetime j (older.map (·.2.raw))) := by
    intro j
    rw [figures_afterCalls, foldl_trace, ← TcpFigures.foldl_after]
    rfl
  refine ⟨older, record, later, rfl, ⟨first, rest, rfl, hcalls⟩, ?_⟩
  rw [afterCalls_append, figures_afterCalls, hfigures, Call.key_eq]
  rcases callsOf_cases lib ((EventProcessor.new config).afterRecords lib older) record with
    ⟨htype, hall⟩ | hwhole
  · have hfirst : first.flatMap Call.ownRecord = [] :=
      List.flatMap_eq_nil_iff.mpr fun other hother =>
        (hall other (by rw [hcalls]; exact List.mem_append_left _ hother)).2
    obtain ⟨hraw, hown⟩ := hall call (by rw [hcalls]; simp)
    have hquiet : record.2.raw.eventType ≠ EVENT_CONNECTION := by
      rw [htype]
      decide
    rw [hfirst, hown, hraw, TcpFigures.measured_concat, TcpFigures.add_of_ne hquiet]
    exact ⟨rfl, rfl⟩
  · rw [hwhole] at hcalls
    obtain ⟨rfl, rfl, -⟩ : first = [] ∧ call = .record (record.1 0) record.2 ∧ rest = [] := by
      cases first with
      | nil => simpa using hcalls.symm
      | cons head tail => simp at hcalls
    rw [TcpFigures.measured_concat]
    exact ⟨rfl, rfl⟩

/-- Every event that is about a connection is made from a record of the run: the one whose call
emits it or, for a reply, the one that opened the request. It carries the last round trip time
and the number of retransmissions that were reported since the connection of that record, or its
process, last ended before it. -/
theorem figures_measured (lib : External) (config : ProcessorConfig) (records : List Record)
    {before after : List Call} {call : Call} {event : DamEvent} {connection : ConnectionMetadata}
    (htrace : (EventProcessor.new config).trace lib records = before ++ call :: after)
    (hevent : event ∈ (call.step lib ((EventProcessor.new config).afterCalls lib before)).2)
    (hconnection : connectionOf event = some connection) :
    ∃ earlier source older record later,
      FiguresFrom lib (EventProcessor.new config) before call earlier source ∧
      records = older ++ record :: later ∧
      IsCallOf lib (EventProcessor.new config) earlier source older record ∧
      FromRecord record.2.raw event ∧
      (measured record.2.raw.key (lifetime record.2.raw.key (older.map (·.2.raw)) ++
        [record.2.raw])).CarriedBy connection := by
  rcases call_carries hevent with ⟨hnone, hmade⟩ | ⟨requestId, request, hanswers, hwaiting, hmade⟩
  · obtain ⟨older, record, later, hsplit, hcall, hraw, hfigures⟩ := figures_of_trace htrace
    rw [hfigures, hraw] at hmade
    exact ⟨before, call, older, record, later, .itself hnone, hsplit, hcall, hmade.record,
      hmade.carries connection hconnection⟩
  · -- the figures of a request that waited are those at the record that opened it
    obtain ⟨earlier, opener, since, rfl, hinserts, hopens, hwaited⟩ := waiting_since hwaiting
    have hnothing : opener.ownRecord = [] := by
      cases opener with
      | record host captured => cases hopens
      | _ => rfl
    rw [List.append_assoc, List.cons_append] at htrace
    obtain ⟨older, record, later, hsplit, hcall, hraw, hfigures⟩ := figures_of_trace htrace
    rw [hnothing] at hfigures
    have hfrom := hmade opener.raw _ (opens_fromRecord hopens) (opens_carries hopens)
    rw [hraw] at hfrom
    refine ⟨earlier, opener, older, record, later,
      .opener rfl hanswers hinserts hopens hwaited, hsplit, hcall, hfrom.record, ?_⟩
    rw [← hfigures]
    exact hfrom.carries connection hconnection

/-- A report of a connection's figures. -/
def figureRecord (operation durationNs : ℕ) : Record :=
  (fun _ => .silent,
    { raw := { KernelEvent.ofChunk 1 7 8 0 [] with
        eventType := EVENT_CONNECTION, operation, durationNs } })

/-- A round trip time of five microseconds, a request, a retransmission and the reply. -/
def measuredFind : List Record :=
  let find := encodeOpMsg 1 0 0 (encodeBody (encodeString "find" "c" ++ encodeString "$db" "d"))
  let reply := encodeOpMsg 9 1 0 (encodeBody (encodeInt32 "ok" 1))
  [figureRecord OP_TCP_RTT 5000, (fun _ => .silent, { raw := .ofChunk 1 7 8 0 find }),
    figureRecord OP_TCP_RETRANSMIT 0, (fun _ => .silent, { raw := .ofChunk 2 7 8 1 reply })]

/-- The calls of the run. -/
def measuredCalls : List Call :=
  (EventProcessor.new .sample).trace (.ofDigests []) measuredFind

theorem measuredCalls_ne_nil : measuredCalls ≠ [] := by decide +kernel

private theorem measuredFind_emitted :
    ∃ event ∈ ((measuredCalls.getLast measuredCalls_ne_nil).step (.ofDigests [])
        ((EventProcessor.new .sample).afterCalls (.ofDigests []) measuredCalls.dropLast)).2,
      (connectionOf event).map (fun connection =>
        (connection.tcpSrttUs, connection.retransmits)) = some (some 5, none) := by
  decide +kernel

/-- The event of the request, put out at the reply, carries the round trip time, and not the
retransmission that came after the request. -/
theorem measuredFind_figures :
    ∃ event ∈ ((measuredCalls.getLast measuredCalls_ne_nil).step (.ofDigests [])
        ((EventProcessor.new .sample).afterCalls (.ofDigests []) measuredCalls.dropLast)).2,
      ∃ connection, connectionOf event = some connection ∧
        (connection.tcpSrttUs, connection.retransmits) = (some 5, none) ∧
        ∃ earlier source older record later,
          FiguresFrom (.ofDigests []) (EventProcessor.new .sample) measuredCalls.dropLast
            (measuredCalls.getLast measuredCalls_ne_nil) earlier source ∧
          measuredFind = older ++ record :: later ∧
          IsCallOf (.ofDigests []) (EventProcessor.new .sample) earlier source older record ∧
          FromRecord record.2.raw event ∧
          (measured record.2.raw.key (lifetime record.2.raw.key (older.map (·.2.raw)) ++
            [record.2.raw])).CarriedBy connection := by
  obtain ⟨event, hevent, hfigures⟩ := measuredFind_emitted
  obtain ⟨connection, hconnection, hcarried⟩ := Option.map_eq_some_iff.mp hfigures
  have htrace : (EventProcessor.new .sample).trace (.ofDigests []) measuredFind =
      measuredCalls.dropLast ++ measuredCalls.getLast measuredCalls_ne_nil :: [] :=
    (List.dropLast_concat_getLast measuredCalls_ne_nil).symm
  exact ⟨event, hevent, connection, hconnection, hcarried,
    figures_measured (.ofDigests []) .sample measuredFind htrace hevent hconnection⟩

end EventProcessor

end MongoDam.Observer
