import MongoDam.Bpf.Ranges
import MongoDam.Bpf.Targets
import MongoDam.Observer.Flow
import MongoDam.Observer.Origins

/-!
# From the probes to the batches

The probes write records into the ring buffer, the observer takes them off it, and what it
puts into batches are events it made from them. Put together: every event in a batch is a
health report of the observer itself, or carries the process of a record that a probe
submitted, which was named a target.
-/

namespace MongoDam.Observer.Runtime

open Lib Schema Bpf

section Taken

variable {lib : External} {serde : Serde} {config : RuntimeConfig}

/-- The record was handed over by the ring buffer. -/
def HandedOver (steps : List RuntimeStep) (captured : CapturedKernelEvent) : Prop :=
  ∃ bytes stackTraces, RuntimeStep.ring bytes stackTraces ∈ steps ∧
    KernelEvent.fromRingBytes bytes = some captured.raw

theorem captureStacks_raw (stackTraces : ℤ → Option Bytes) (raw : KernelEvent) :
    (captureStacks stackTraces raw).raw = raw := by
  unfold captureStacks
  split <;> rfl

/-- The callback takes at most the record whose bytes it is given. -/
private theorem taken_ringCallback (r : Runtime) (history : History) (bytes : Bytes)
    (stackTraces : ℤ → Option Bytes) {captured : CapturedKernelEvent}
    (h : captured ∈ ((r.ringCallback bytes stackTraces).2.foldl History.add history).taken) :
    captured ∈ history.taken ∨ KernelEvent.fromRingBytes bytes = some captured.raw := by
  unfold ringCallback at h
  cases hread : KernelEvent.fromRingBytes bytes with
  | none =>
    simp only [hread] at h
    exact .inl h
  | some raw =>
    simp only [hread, offer] at h
    split at h
    · split at h
      · rcases List.mem_append.mp h with hbefore | hnew
        · exact .inl hbefore
        · rw [List.mem_singleton.mp hnew, captureStacks_raw]
          exact .inr rfl
      · exact .inl h
    · exact .inl h

/-- A step takes at most a record that it hands over. -/
private theorem taken_advance (ran : Runtime × History) (s : RuntimeStep)
    {captured : CapturedKernelEvent} (h : captured ∈ (advance lib serde config ran s).2.taken) :
    captured ∈ ran.2.taken ∨ HandedOver [s] captured := by
  unfold advance step at h
  cases s with
  | ring bytes stackTraces =>
    dsimp only at h
    split at h
    · refine (taken_ringCallback ran.1 ran.2 bytes stackTraces h).imp id fun hread => ?_
      exact ⟨bytes, stackTraces, List.mem_singleton_self _, hread⟩
    · exact .inl h
  | ringEnds => exact .inl h
  | process hosts =>
    rw [taken_process] at h
    exact .inl h
  | receive call =>
    rw [taken_receive] at h
    exact .inl h
  | tick readings call =>
    rw [taken_tick] at h
    exact .inl h

/-- Every record that was taken was handed over. -/
theorem handedOver_of_taken {lastHealth : ℕ} {steps : List RuntimeStep}
    {captured : CapturedKernelEvent}
    (h : captured ∈ (run lib serde config lastHealth steps).2.taken) :
    HandedOver steps captured := by
  induction steps using List.reverseRecOn with
  | nil => cases h
  | append_singleton steps s ih =>
    rw [run, after_concat] at h
    rcases taken_advance _ s h with hbefore | ⟨bytes, stackTraces, hs, hread⟩
    · obtain ⟨bytes, stackTraces, hmem, hread⟩ := ih hbefore
      exact ⟨bytes, stackTraces, List.mem_append_left _ hmem, hread⟩
    · exact ⟨bytes, stackTraces, List.mem_append_right _ hs, hread⟩

end Taken

/-- The ring buffer hands over what the probes submitted. -/
def Delivers (setup : Setup) (fs : List Firing) (steps : List RuntimeStep) : Prop :=
  ∀ bytes stackTraces, RuntimeStep.ring bytes stackTraces ∈ steps →
    ∃ older f later event, fs = older ++ f :: later ∧ event ∈ submittedAfter setup older f ∧
      ∃ originalLen < 2 ^ 32, bytes = event.ringBytes originalLen

/-- Every event in a batch is a health report, or carries the process of a target. -/
theorem batches_of_targets (setup : Setup) {fs : List Firing} (hrange : ∀ f ∈ fs, f.InRange)
    (lib : External) (serde : Serde) (config : RuntimeConfig) (lastHealth : ℕ)
    {steps : List RuntimeStep} (hdelivers : Delivers setup fs steps) :
    ∀ flushed ∈ Batcher.batches (run lib serde config lastHealth steps).2.batched,
      ∀ event ∈ flushed.batch.events, (∃ details, event.payload = .sensorHealth details) ∨
        ∃ process, event.process = some process ∧ Named fs process.tgid := by
  intro flushed hflushed event hevent
  rcases mem_batches lib serde config hflushed hevent with ⟨_, hhealth⟩ | ⟨hemitted, _⟩
  · exact .inl hhealth
  obtain ⟨record, hrecord, hfrom⟩ := EventProcessor.emittedRecords_fromRecord hemitted
  have htaken : record.2 ∈ (run lib serde config lastHealth steps).2.taken := by
    rw [(run_accounted lib serde config lastHealth steps).taken]
    exact List.mem_append_left _ (List.mem_map_of_mem hrecord)
  obtain ⟨bytes, stackTraces, hring, hread⟩ := handedOver_of_taken htaken
  obtain ⟨older, f, later, submitted, rfl, hsubmitted, originalLen, hlength, rfl⟩ :=
    hdelivers bytes stackTraces hring
  -- what is read off the bytes is the record itself
  have hback := submitted_read_back setup older f
    (fun g hg => hrange g (by simp at hg ⊢; tauto)) hsubmitted originalLen hlength
  rw [hread, Option.some.injEq] at hback
  obtain ⟨process, hprocess, -, htgid⟩ := hfrom.process
  refine .inr ⟨process, hprocess, ?_⟩
  have hnamed := ((records_of_targets setup older f hsubmitted).1).append later
  rw [List.append_assoc, List.singleton_append] at hnamed
  rwa [htgid, hback]

/-- The records of a processor sample, one after the other. -/
def sampleRecords : List RuntimeStep :=
  (submittedAfter {} [.named 1 (.addTarget 7)] (.named 2 (.cpuSample 3 (-14)))).map fun event =>
    .ring (event.ringBytes 0) fun _ => none

/-- An observer of everything. -/
def openConfig : RuntimeConfig :=
  { sampleConfig with enabledEventTypes := none, enabledMongodbCommands := none }

private theorem profile_batched :
    ∃ flushed ∈ Batcher.batches (run (.ofDigests [])
        (serdeOfRun openConfig (sampleRecords ++ samplePass)) openConfig 0
        (sampleRecords ++ samplePass)).2.batched,
      flushed.batch.events ≠ [] ∧ flushed.passed.isSome := by
  decide +kernel

/-- The event of a processor sample is about a target, and its batch is passed on. -/
theorem sample_targets :
    ∃ flushed ∈ Batcher.batches (run (.ofDigests [])
        (serdeOfRun openConfig (sampleRecords ++ samplePass)) openConfig 0
        (sampleRecords ++ samplePass)).2.batched,
      flushed.passed.isSome ∧
        ∃ event ∈ flushed.batch.events, (∃ details, event.payload = .sensorHealth details) ∨
          ∃ process, event.process = some process ∧
            Named [.named 1 (.addTarget 7), .named 2 (.cpuSample 3 (-14))] process.tgid := by
  obtain ⟨flushed, hflushed, hevents, hpassed⟩ := profile_batched
  have hdelivers : Delivers {} [.named 1 (.addTarget 7), .named 2 (.cpuSample 3 (-14))]
      (sampleRecords ++ samplePass) := by
    intro bytes stackTraces hring
    rcases List.mem_append.mp hring with hrecord | hother
    · obtain ⟨event, hevent, heq⟩ := List.mem_map.mp hrecord
      cases heq
      exact ⟨[.named 1 (.addTarget 7)], _, [], event, rfl, hevent, 0, by decide, rfl⟩
    · simp [samplePass] at hother
  have htargets := batches_of_targets {} sample_inRange (.ofDigests []) _ openConfig 0 hdelivers
    flushed hflushed
  exact ⟨flushed, hflushed, hpassed, flushed.batch.events.head hevents, List.head_mem hevents,
    htargets _ (List.head_mem hevents)⟩

end MongoDam.Observer.Runtime
