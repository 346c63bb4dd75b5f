import MongoDam.Lib.Fairness
import MongoDam.Observer.Flow

/-!
# Ending the observer

When the thread of the ring buffer has ended, what is still on its way gets to the end of it:
as long as the processor's task and the batcher both get on again and again, the batcher makes
its last batch, and nothing that was taken is missing from the batches then.
-/

namespace MongoDam.Observer

open Lib Schema

/-- The parties that get on by themselves. -/
inductive Party where
  | processor
  | batcher

def RuntimeStep.party? : RuntimeStep → Option Party
  | .process _ => some .processor
  | .receive _ => some .batcher
  | _ => none

namespace Runtime

/-- What is on its way: the records, and then the events, nearer ones counting for less. -/
def underWay (r : Runtime) : ℕ × ℕ :=
  (r.kernelEvents.queue.length, 3 * r.emitting.length + 2 * r.sending.toList.length +
    r.damEvents.queue.length + r.processing.toNat + r.batching.toNat)

/-- The batcher gets on unless it waits for the processor's task. -/
def due (r : Runtime) : Party :=
  if r.processing = true ∧ r.damEvents.queue = [] then .processor else .batcher

/-- Less is on its way. -/
abbrev Less : ℕ × ℕ → ℕ × ℕ → Prop := Prod.Lex (· < ·) (· < ·)

section Shutdown

variable {lib : External} {serde : Serde} {config : RuntimeConfig} {first : Batcher} {r : Runtime}
  {history : History}

/-- The processor's task gets on, unless the second channel is full. -/
private theorem process_less (hclosed : r.ringOpen = false) (hprocessing : r.processing = true)
    (hbatching : r.batching = true) (hosts : ℕ → Host) :
    Less (underWay (r.process lib config hosts).1) (underWay r) ∨
      r.process lib config hosts = (r, []) ∧ r.damEvents.queue ≠ [] := by
  unfold Runtime.process
  rw [if_pos hprocessing]
  cases hsending : r.sending with
  | some event =>
    dsimp only [sendEvent]
    rw [if_pos hbatching]
    cases hsent : r.damEvents.trySend event with
    | none =>
      right
      refine ⟨rfl, fun hempty => ?_⟩
      have hfull := Channel.trySend_eq_none hsent
      rw [hempty] at hfull
      cases hfull
    | some damEvents =>
      left
      apply Prod.Lex.right
      simp only [Channel.queue_of_trySend hsent, hsending, Option.toList, List.length_append,
        List.length_cons, List.length_nil]
      omega
  | none =>
    left
    cases hemitting : r.emitting with
    | cons event rest =>
      dsimp only [nextEvent]
      split
      · apply Prod.Lex.right
        simp only [hsending, hemitting, Option.toList, List.length_cons, List.length_nil]
        omega
      · apply Prod.Lex.right
        simp only [hemitting, List.length_cons]
        omega
    | nil =>
      dsimp only [takeRecord]
      cases hreceived : r.kernelEvents.recv with
      | none =>
        dsimp only
        rw [if_neg (by simp [hclosed])]
        apply Prod.Lex.right
        simp only [hprocessing, Bool.toNat_true, Bool.toNat_false]
        omega
      | some received =>
        obtain ⟨captured, kernelEvents⟩ := received
        have hshorter : kernelEvents.queue.length < r.kernelEvents.queue.length := by
          rw [Channel.queue_of_recv hreceived]
          exact Nat.lt_succ_self _
        dsimp only
        rcases r.processor.process lib hosts captured with ⟨processor, result⟩
        cases result with
        | ok events => exact Prod.Lex.left _ _ hshorter
        | error error => exact Prod.Lex.left _ _ hshorter

/-- The batcher gets on, unless it waits for the processor's task. -/
private theorem receive_less (hbatching : r.batching = true) (call : SpoolCall) :
    (r.receive lib serde config call).1.batching = false ∨
      Less (underWay (r.receive lib serde config call).1) (underWay r) ∨
      r.receive lib serde config call = (r, []) ∧ due r = .processor := by
  unfold Runtime.receive
  rw [if_pos hbatching]
  cases hreceived : r.damEvents.recv with
  | some received =>
    obtain ⟨event, damEvents⟩ := received
    right
    left
    apply Prod.Lex.right
    simp only [batcherTurn, Channel.queue_of_recv hreceived, List.length_cons]
    omega
  | none =>
    dsimp only
    split
    · next hprocessing =>
      right
      right
      exact ⟨rfl, if_pos ⟨hprocessing, Channel.queue_of_recv_none hreceived⟩⟩
    · left
      rfl

/-- The thread of the ring buffer does not start again. -/
private theorem ringOpen_step (hclosed : r.ringOpen = false) (s : RuntimeStep) :
    (r.step lib serde config s).1.ringOpen = false := by
  unfold Runtime.step
  cases s with
  | ring bytes stackTraces =>
    dsimp only
    rw [if_neg (by simp [hclosed])]
    exact hclosed
  | ringEnds => rfl
  | process hosts =>
    dsimp only [Runtime.process, sendEvent, nextEvent, takeRecord]
    split
    · cases r.sending with
      | some event =>
        dsimp only
        split
        · cases r.damEvents.trySend event <;> exact hclosed
        · exact hclosed
      | none =>
        cases r.emitting with
        | cons event rest =>
          dsimp only
          split <;> exact hclosed
        | nil =>
          dsimp only
          split
          · dsimp only
            split <;> exact hclosed
          · split <;> exact hclosed
    · exact hclosed
  | receive call =>
    dsimp only [Runtime.receive, batcherTurn]
    split
    · split
      · exact hclosed
      · split <;> exact hclosed
    · exact hclosed
  | tick readings call =>
    dsimp only [Runtime.tick, batcherTurn]
    split <;> exact hclosed

/-- Nothing is taken any more. -/
private theorem taken_step (hclosed : r.ringOpen = false) (s : RuntimeStep) :
    (advance lib serde config (r, history) s).2.taken = history.taken := by
  unfold advance Runtime.step
  cases s with
  | ring bytes stackTraces =>
    dsimp only
    rw [if_neg (by simp [hclosed])]
    rfl
  | ringEnds => rfl
  | process hosts => exact taken_process r history hosts
  | receive call => exact taken_receive r history call
  | tick readings call => exact taken_tick r history readings call

private theorem taken_after (hclosed : r.ringOpen = false) (steps : List RuntimeStep) :
    (after (advance lib serde config) (r, history) steps).2.taken = history.taken := by
  induction steps generalizing r history with
  | nil => rfl
  | cons s steps ih =>
    exact (ih (ringOpen_step hclosed s)).trans (taken_step hclosed s)

/-- What is on its way gets less, or the party that is due stays due. -/
theorem shutdown_progress (lib : External) (serde : Serde) (config : RuntimeConfig) :
    Progress (advance lib serde config) RuntimeStep.party? (fun run => underWay run.1) Less
      (fun run => due run.1) (fun run => run.1.ringOpen = false)
      (fun run => run.1.batching = false) := by
  constructor
  case wellFounded => exact Nat.lt_wfRel.wf.prod_lex Nat.lt_wfRel.wf
  case keeps => exact fun _ s hclosed => ringOpen_step hclosed s
  case advances =>
    rintro ⟨r, history⟩ s hclosed hgoal
    dsimp only at hclosed hgoal
    have hbatching : r.batching = true := by simpa using hgoal
    have hsame (hkept : r.step lib serde config s = (r, [])) (hother : s.party? ≠ some (due r)) :
        (advance lib serde config (r, history) s).1.batching = false ∨
        Less (underWay (advance lib serde config (r, history) s).1) (underWay r) ∨
          underWay (advance lib serde config (r, history) s).1 = underWay r ∧
          due (advance lib serde config (r, history) s).1 = due r ∧ s.party? ≠ some (due r) := by
      have hstate : (advance lib serde config (r, history) s).1 = r := congrArg Prod.fst hkept
      rw [hstate]
      exact Or.inr (Or.inr ⟨rfl, rfl, hother⟩)
    cases s with
    | ring bytes stackTraces => exact hsame (if_neg (by simp [hclosed])) nofun
    | ringEnds =>
      right
      right
      exact ⟨rfl, rfl, nofun⟩
    | process hosts =>
      by_cases hprocessing : r.processing = true
      · rcases process_less hclosed hprocessing hbatching hosts with hless | ⟨hkept, hqueue⟩
        · exact Or.inr (Or.inl hless)
        · refine hsame hkept ?_
          have hdue : due r = .batcher := if_neg fun hwaits => hqueue hwaits.2
          rw [hdue]
          nofun
      · refine hsame (if_neg hprocessing) ?_
        have hdue : due r = .batcher := if_neg fun hwaits => hprocessing hwaits.1
        rw [hdue]
        nofun
    | receive call =>
      rcases receive_less hbatching call with hended | hless | ⟨hkept, hdue⟩
      · exact Or.inl hended
      · exact Or.inr (Or.inl hless)
      · refine hsame hkept ?_
        rw [hdue]
        nofun
    | tick readings call =>
      have hticked : ∃ batcher, (advance lib serde config (r, history) (.tick readings call)).1 =
          { r with batcher } := by
        dsimp only [advance, Runtime.step, Runtime.tick]
        rw [if_pos hbatching]
        exact ⟨_, rfl⟩
      obtain ⟨batcher, hticked⟩ := hticked
      right
      right
      rw [hticked]
      exact ⟨rfl, rfl, nofun⟩

end Shutdown

/-- Once the thread of the ring buffer has ended, the batcher ends under every fair schedule.
Every record that was taken was handled by then, and the enabled events of every record are in
the batches, in their order, with nothing but health reports between them. -/
theorem shutdown_delivers (lib : External) (serde : Serde) (config : RuntimeConfig)
    (lastHealth : ℕ) (steps : List RuntimeStep) (schedule : ℕ → RuntimeStep)
    (hclosed : (run lib serde config lastHealth steps).1.ringOpen = false)
    (hfair : FairTo RuntimeStep.party? schedule) :
    ∃ n, let ended := run lib serde config lastHealth (steps ++ (List.range n).map schedule)
      ended.1.batching = false ∧
        ended.2.taken = (run lib serde config lastHealth steps).2.taken ∧
        ended.2.processed.map Prod.snd = ended.2.taken ∧
        ended.2.batched.filterMap BatcherRecord.received? =
          ((EventProcessor.new config.processor).emittedRecords lib ended.2.processed).filter
            (enabled config) ∧
        ((Batcher.batches ended.2.batched).map (·.batch.events)).flatten =
          Batcher.arrivals ended.2.batched ∧
        ∀ event, BatcherRecord.reported event ∈ ended.2.batched →
          config.batcher.emitSensorHealth = true ∧
            ∃ details, event.payload = .sensorHealth details := by
  obtain ⟨n, hended⟩ := (shutdown_progress lib serde config).reaches hclosed hfair
  refine ⟨n, ?_⟩
  have hafter : run lib serde config lastHealth (steps ++ (List.range n).map schedule) =
      after (advance lib serde config) (run lib serde config lastHealth steps)
        ((List.range n).map schedule) := by
    rw [run, run, after_append]
  rw [scheduled_eq_after, ← hafter] at hended
  refine ⟨hended, ?_, ended_delivered lib serde config lastHealth _ hended⟩
  rw [hafter]
  exact taken_after hclosed _

/-- The processor's task and the batcher take turns. -/
def alternating (n : ℕ) : RuntimeStep :=
  if n % 2 = 0 then .process fun _ => .silent else .receive sampleCall

private theorem fairTo_alternating : FairTo RuntimeStep.party? alternating := by
  intro party n
  cases party with
  | processor =>
    refine ⟨2 * n, by omega, ?_⟩
    rw [alternating, if_pos (by omega)]
    rfl
  | batcher =>
    refine ⟨2 * n + 1, by omega, ?_⟩
    rw [alternating, if_neg (by omega)]
    rfl

/-- An insert is captured, and the ring buffer's thread ends. -/
def insertEnds : List RuntimeStep := [insertRing, .ringEnds]

/-- The text code of the batch with the event of the insert. -/
def insertEndsSerde : Serde :=
  serdeOfRun sampleConfig (insertEnds ++ (List.range 12).map alternating)

/-- The insert is taken before the ring buffer's thread ends, and its event is passed on in the
last batch. -/
theorem sample_delivers :
    (run (.ofDigests []) insertEndsSerde sampleConfig 0 insertEnds).2.taken.length = 1 ∧
      (Batcher.batches (run (.ofDigests []) insertEndsSerde sampleConfig 0
        (insertEnds ++ (List.range 12).map alternating)).2.batched).map (fun flushed =>
          (flushed.batch.events.length, flushed.passed.isSome)) = [(1, true)] ∧
      ∃ n,
        let ended := run (.ofDigests []) insertEndsSerde sampleConfig 0
          (insertEnds ++ (List.range n).map alternating)
        ended.1.batching = false ∧
          ended.2.taken =
            (run (.ofDigests []) insertEndsSerde sampleConfig 0 insertEnds).2.taken ∧
          ended.2.processed.map Prod.snd = ended.2.taken ∧
          ended.2.batched.filterMap BatcherRecord.received? =
            ((EventProcessor.new sampleConfig.processor).emittedRecords (.ofDigests [])
              ended.2.processed).filter (enabled sampleConfig) ∧
          ((Batcher.batches ended.2.batched).map (·.batch.events)).flatten =
            Batcher.arrivals ended.2.batched ∧
          ∀ event, BatcherRecord.reported event ∈ ended.2.batched →
            sampleConfig.batcher.emitSensorHealth = true ∧
              ∃ details, event.payload = .sensorHealth details := by
  refine ⟨by decide +kernel, by decide +kernel, ?_⟩
  exact shutdown_delivers _ _ _ 0 insertEnds alternating (by decide +kernel) fairTo_alternating

end Runtime

end MongoDam.Observer
