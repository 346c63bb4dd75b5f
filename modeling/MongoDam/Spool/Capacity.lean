import MongoDam.Spool.Accounts

/-!
# The capacity of a spool

The capacity check of `enqueue` sees the items alone. A temporary file that a failed or
interrupted call left behind becomes an item at the next recovery, without a check. As
long as what was left behind fits beside the items whenever a new file is created, the
items never exceed the capacity, over any calls, crashes and failures of `enqueue`.
-/

namespace MongoDam.Spool

open Lib FileSystem Program

variable {sha256 : Digest32} {used : Bytes → Prop} {maxBytes : ℕ} {m m' : Machine}

/-! ### Runs that leave room -/

/-- Every operation of `enqueue` may fail, and no other one. -/
def enqueueFaults : Call → FileOp Place Name → Prop
  | .enqueue _ => fun _ => True
  | _ => fun _ => False

/-- The operations of a call where there is room for them: `enqueue` creates a file only
where it fits beside the items and what was left behind, and recovery promotes only files
whose contents are durable. -/
def Admits (sha256 : Digest32) (used : Bytes → Prop) (maxBytes : ℕ) :
    Call → FileOp Place Name → Disk → Prop
  | .enqueue body => CreatesRoomy sha256 used maxBytes body
  | .reopen => PromotesSynced
  | _ => fun _ _ => True

/-- An operation is performed only where there is room for it. -/
def LeavesRoom (sha256 : Digest32) (used : Bytes → Prop) (maxBytes : ℕ) (m m' : Machine) : Prop :=
  m'.phase ≠ .down → ∀ call op next, m.phase = .running call (.perform op next) →
    Admits sha256 used maxBytes call op m.disk

/-- The states that a machine can reach while it leaves room. -/
inductive RoomyReachable (sha256 : Digest32) (maxBytes : ℕ) (used : Bytes → Prop) : Machine → Prop
  | initial : RoomyReachable sha256 maxBytes used Machine.initial
  | step {m m' : Machine} (hm : RoomyReachable sha256 maxBytes used m)
      (hstep : Step sha256 maxBytes used enqueueFaults m m')
      (hroom : LeavesRoom sha256 used maxBytes m m') : RoomyReachable sha256 maxBytes used m'

/-! ### The invariant -/

/-- The operations of a call in such a run. -/
def roomyExec (sha256 : Digest32) (used : Bytes → Prop) (maxBytes : ℕ) (call : Call) :
    Meaning (FileOp Place Name) (fun op => Except IoError op.Value) Disk :=
  Meaning.when (ExecWith (enqueueFaults call)) (Admits sha256 used maxBytes call)

private theorem readOnly_staysWithin {fs : Disk} {call : Call} {op : FileOp Place Name}
    {f : op.Value → Action β} (h : Rested sha256 used maxBytes fs)
    (hcall : ∀ op, ¬enqueueFaults call op)
    (hop : ∀ result fs', Exec op fs result fs' → fs' = fs)
    (hf : ∀ value,
      StaysWithin sha256 used maxBytes (roomyExec sha256 used maxBytes call) (f value) fs) :
    StaysWithin sha256 used maxBytes (roomyExec sha256 used maxBytes call) (io op >>= f) fs := by
  refine ensures_io_bind fun result fs' hexec => ?_
  rcases hexec.1 with hdone | ⟨hfault, -⟩
  · rw [hop result fs' hdone]
    refine ⟨h.bounded, ?_⟩
    cases result with
    | ok value => exact hf value
    | error error => exact h
  · exact absurd hfault (hcall op)

/-- Every call stays within the capacity. -/
theorem call_staysWithin (hmax : maxBytes < 2 ^ 64 - 1) {fs : Disk}
    (h : Rested sha256 used maxBytes fs) (call : Call) (hused : call.Uses used) :
    StaysWithin sha256 used maxBytes (roomyExec sha256 used maxBytes call)
      (call.program sha256 maxBytes) fs := by
  have hexec : ∀ {call : Call}, (∀ op, ¬enqueueFaults call op) → ∀ op s result s',
      roomyExec sha256 used maxBytes call op s result s' → Exec op s result s' := by
    intro call hcall op s result s' hstep
    rcases hstep.1 with hdone | ⟨hfault, -⟩
    · exact hdone
    · exact absurd hfault (hcall op)
  cases call with
  | enqueue body => exact enqueue_staysWithin hmax hused h
  | acknowledge item => exact Always.anti (hexec fun _ => id) (acknowledge_staysWithin item h)
  | quarantine item => exact Always.anti (hexec fun _ => id) (quarantine_staysWithin item h)
  | reopen =>
    refine Always.anti (fun op s result s' hstep => ?_) (openSpool_staysWithin h)
    exact ⟨hexec (fun _ => id) op s result s' hstep, hstep.2⟩
  | pending =>
    exact readOnly_staysWithin h (fun _ => id) (fun _ _ hdone => hdone.1) fun _ => ensures_pure h
  | stats =>
    exact readOnly_staysWithin h (fun _ => id) (fun _ _ hdone => hdone.1) fun _ => ensures_pure h
  | quarantineStats =>
    exact readOnly_staysWithin h (fun _ => id) (fun _ _ hdone => hdone.1) fun _ => ensures_pure h
  | read item =>
    refine ensures_io fun result fs' hstep => ?_
    rw [(hexec (fun _ => id) _ _ _ _ hstep).1]
    exact ⟨h.bounded, h⟩

/-- What holds of the machine in each phase. -/
def Machine.StaysWithin (sha256 : Digest32) (used : Bytes → Prop) (maxBytes : ℕ) (m : Machine) :
    Prop :=
  Bounded sha256 used maxBytes m.disk ∧
    match m.phase with
    | .idle => Rested sha256 used maxBytes m.disk
    | .down => Rested sha256 used maxBytes m.disk
    | .running call rest =>
      Spool.StaysWithin sha256 used maxBytes (roomyExec sha256 used maxBytes call) rest m.disk

private theorem initial_staysWithin : Machine.initial.StaysWithin sha256 used maxBytes := by
  have hrested : Rested sha256 used maxBytes Machine.initial.disk := by
    refine ⟨∅, ⟨fun _ hclaim => absurd hclaim (Finset.notMem_empty _), Nat.zero_le _⟩,
      accounted_of_durable rfl rfl ⟨?_, ?_, ?_, ?_⟩ ?_⟩
    · intro path file hget
      cases hget
    · intro path file hget
      cases hget
    · intro place id file hget
      cases hget
    · intro id file hget
      cases hget
    · rintro place id (hitem | ⟨-, file, hget, -⟩)
      · cases hitem
      · cases hget
  exact ⟨hrested.bounded, hrested⟩

private theorem step_staysWithin (hmax : maxBytes < 2 ^ 64 - 1)
    (hstep : Step sha256 maxBytes used enqueueFaults m m')
    (hroom : LeavesRoom sha256 used maxBytes m m') (h : m.StaysWithin sha256 used maxBytes) :
    m'.StaysWithin sha256 used maxBytes := by
  obtain ⟨hbounded, hphase⟩ := h
  cases hstep with
  | call call hused => exact ⟨hbounded, call_staysWithin hmax hphase call hused⟩
  | @perform disk disk' owed call op next result hexec =>
    have hadmits : Admits sha256 used maxBytes call op disk := hroom nofun call op next rfl
    exact hphase result disk' ⟨hexec, hadmits⟩
  | @finish disk owed call result =>
    have hrested : Rested sha256 used maxBytes disk := hphase
    refine ⟨hbounded, ?_⟩
    have hafter : Phase.after call result = .idle ∨ Phase.after call result = .down := by
      unfold Phase.after
      split
      · exact Or.inr rfl
      · exact Or.inl rfl
    rcases hafter with heq | heq
    · change match Phase.after call result with | .idle => _ | .down => _ | .running _ _ => _
      rw [heq]
      exact hrested
    · change match Phase.after call result with | .idle => _ | .down => _ | .running _ _ => _
      rw [heq]
      exact hrested
  | crash hcrash =>
    have hrested := hbounded.crash hcrash
    exact ⟨hrested.bounded, hrested⟩
  | restart => exact ⟨hbounded, call_staysWithin hmax hphase .reopen trivial⟩

private theorem roomyReachable_staysWithin (hmax : maxBytes < 2 ^ 64 - 1)
    (h : RoomyReachable sha256 maxBytes used m) : m.StaysWithin sha256 used maxBytes := by
  induction h with
  | initial => exact initial_staysWithin
  | step _ hstep hroom ih => exact step_staysWithin hmax hstep hroom ih

/-- In every run that leaves room, over any calls, crashes and failures of `enqueue`, the items
in root and quarantine never exceed the capacity. -/
theorem storedBytes_le_of_roomyReachable
    (hinjective : ∀ a b, used a → used b → sha256.digest a = sha256.digest b → a = b)
    (hmax : maxBytes < 2 ^ 64 - 1) (h : RoomyReachable sha256 maxBytes used m) :
    storedBytes m.disk ≤ maxBytes := by
  obtain ⟨⟨hconsistent, houtcomes⟩, -⟩ := roomyReachable_staysWithin hmax h
  obtain ⟨hsound, hwithin⟩ := houtcomes.now hconsistent
  exact hsound.storedBytes_le (fun a b ha hb heq => hinjective a b ha hb (encodeHex_inj heq))
    hwithin

/-! ### Concrete runs -/

/-- A call that is under way can come to any end at which it leaves room. -/
private theorem RoomyReachable.ends {disk disk' : Disk} {owed : Bytes → Prop} {call : Call}
    {rest : Action call.Result} {result : Except SpoolError call.Result}
    (h : RoomyReachable sha256 maxBytes used ⟨disk, .running call rest, owed⟩)
    (hends : Ends (roomyExec sha256 used maxBytes call) rest disk result disk') :
    RoomyReachable sha256 maxBytes used ⟨disk', Phase.after call result, call.owe owed result⟩ := by
  unfold Action at rest
  induction hends with
  | done => exact h.step .finish fun _ _ _ _ hphase => by cases hphase
  | perform hexec _ ih =>
    refine ih (h.step (.perform hexec.1) fun _ _ _ _ hphase => ?_)
    cases hphase
    exact hexec.2

/-- The bodies fit into the capacity together, and only durable files are moved. -/
def fits (bodies : List Bytes) (maxBytes : ℕ) (op : FileOp Place Name) (fs : Disk) : Bool :=
  match op with
  | .createNew _ => storedBytes fs + (bodies.map List.length).sum ≤ maxBytes
  | .rename source _ => (fs.entries.get? source).all fun file => (fs.files file).synced
  | _ => true

private theorem admits_of_fits {bodies : List Bytes} (hnodup : bodies.Nodup) {call : Call}
    (hused : call.Uses (· ∈ bodies)) (op : FileOp Place Name) (fs : Disk)
    (h : fits bodies maxBytes op fs = true) : Admits sha256 (· ∈ bodies) maxBytes call op fs := by
  cases call with
  | enqueue body =>
    cases op with
    | createNew path =>
      rintro hfree left - hleft
      have hfresh : body ∉ left := by
        intro hmem
        obtain ⟨-, -, -, file, hget, -⟩ := hleft body hmem
        rw [hfree] at hget
        cases hget
      have hsubset : insert body left ⊆ bodies.toFinset := by
        refine Finset.insert_subset (List.mem_toFinset.mpr hused) fun other hother => ?_
        exact List.mem_toFinset.mpr (hleft other hother).1
      have hbodies : ∑ other ∈ bodies.toFinset, other.length = (bodies.map List.length).sum :=
        List.sum_toFinset _ hnodup
      have hsum : ∑ other ∈ insert body left, other.length ≤
          ∑ other ∈ bodies.toFinset, other.length :=
        Finset.sum_le_sum_of_subset hsubset
      rw [Finset.sum_insert hfresh, hbodies] at hsum
      have hroom : storedBytes fs + (bodies.map List.length).sum ≤ maxBytes := of_decide_eq_true h
      omega
    | _ => trivial
  | reopen =>
    cases op with
    | rename source target =>
      intro file hget
      simpa [fits, hget] using h
    | _ => trivial
  | _ => trivial

section Performing

variable {bodies : List Bytes} {disk : Disk} {owed : Bytes → Prop}
  {perform : (op : FileOp Place Name) → Disk → Except IoError op.Value × Disk}

/-- A call that has started can be performed to its end where there is room. -/
private theorem RoomyReachable.perform_rest {call : Call} {rest : Action call.Result}
    (h : RoomyReachable sha256 maxBytes (· ∈ bodies) ⟨disk, .running call rest, owed⟩)
    (hnodup : bodies.Nodup) (hused : call.Uses (· ∈ bodies))
    (hperform : ∀ op fs, ExecWith (enqueueFaults call) op fs (perform op fs).1 (perform op fs).2)
    (hfits : runPasses perform (fits bodies maxBytes) rest disk = true) :
    RoomyReachable sha256 maxBytes (· ∈ bodies) ⟨(run perform rest disk).2,
      Phase.after call (run perform rest disk).1, call.owe owed (run perform rest disk).1⟩ :=
  h.ends (ends_run_when hperform (admits_of_fits hnodup hused) hfits)

/-- A call can be made between calls where there is room. -/
private theorem RoomyReachable.perform_call
    (h : RoomyReachable sha256 maxBytes (· ∈ bodies) ⟨disk, .idle, owed⟩) (hnodup : bodies.Nodup)
    (call : Call) (hused : call.Uses (· ∈ bodies))
    (hperform : ∀ op fs, ExecWith (enqueueFaults call) op fs (perform op fs).1 (perform op fs).2)
    (hfits : runPasses perform (fits bodies maxBytes) (call.program sha256 maxBytes) disk = true) :
    let ended := run perform (call.program sha256 maxBytes) disk
    RoomyReachable sha256 maxBytes (· ∈ bodies) ⟨ended.2, Phase.after call ended.1,
      call.owe (call.release sha256 owed) ended.1⟩ :=
  (h.step (.call call hused) fun _ _ _ _ hphase => by cases hphase).perform_rest hnodup hused
    hperform hfits

end Performing

/-- An empty array as JSON. -/
def otherBody : Bytes := [91, 93]

/-- The digests of both bodies. -/
def pairDigest : Digest32 :=
  .ofTable
    [(sampleBody,
        [68, 19, 111, 163, 85, 179, 103, 138, 17, 70, 173, 22, 247, 232, 100, 158, 148, 251, 79,
          194, 31, 231, 126, 131, 16, 192, 96, 246, 28, 170, 255, 138]),
      (otherBody,
        [79, 83, 205, 161, 140, 43, 170, 12, 3, 84, 187, 95, 154, 62, 203, 229, 237, 18, 171, 77,
          142, 17, 186, 135, 60, 47, 17, 22, 18, 2, 185, 69])]

/-- Perform an operation, but a rename fails. -/
def performUnmoved : (op : FileOp Place Name) → Disk → Except IoError op.Value × Disk
  | .rename _ _, fs => (.error .other, fs)
  | op, fs => perform op fs

private theorem exec_performUnmoved (op : FileOp Place Name) (fs : Disk) :
    ExecWith (fun _ => True) op fs (performUnmoved op fs).1 (performUnmoved op fs).2 := by
  cases op with
  | rename source target => exact Or.inr ⟨trivial, .other, rfl, rfl⟩
  | _ => exact Or.inl (exec_perform _ fs)

/-- The first body could not be moved to its name, the second one was enqueued, and the spool
was opened again. -/
def refilledDisk (maxBytes : ℕ) : Disk :=
  let unmoved := (run performUnmoved (enqueue pairDigest maxBytes sampleBody) openedDisk).2
  let filled := (run perform (enqueue pairDigest maxBytes otherBody) unmoved).2
  (run perform (openSpool pairDigest) filled).2

/-- Four bytes are enough for what was left behind and the second body. -/
theorem refilledDisk_storedBytes_le :
    (∃ owed, RoomyReachable pairDigest 4 (· ∈ [sampleBody, otherBody])
        ⟨refilledDisk 4, .idle, owed⟩) ∧
      2 < storedBytes (refilledDisk 4) ∧ storedBytes (refilledDisk 4) ≤ 4 := by
  have hnodup : [sampleBody, otherBody].Nodup := by decide
  have hexec : ∀ (call : Call) op fs,
      ExecWith (enqueueFaults call) op fs (perform op fs).1 (perform op fs).2 :=
    fun _ op fs => Or.inl (exec_perform op fs)
  have hstarted : RoomyReachable pairDigest 4 (· ∈ [sampleBody, otherBody])
      ⟨.empty, .running .reopen (openSpool pairDigest), fun _ => False⟩ :=
    .step .initial .restart fun _ _ _ _ hphase => by cases hphase
  have hopened : RoomyReachable pairDigest 4 (· ∈ [sampleBody, otherBody])
      ⟨openedDisk, .idle, fun _ => False⟩ :=
    hstarted.perform_rest hnodup trivial (hexec .reopen) rfl
  have hunmoved := hopened.perform_call hnodup (.enqueue sampleBody) (by simp [Call.Uses])
    exec_performUnmoved (by decide +kernel)
  have hfilled := hunmoved.perform_call hnodup (.enqueue otherBody) (by simp [Call.Uses])
    (hexec _) (by decide +kernel)
  have hreopened := hfilled.perform_call hnodup .reopen trivial (hexec _) (by decide +kernel)
  refine ⟨⟨_, hreopened⟩, by decide +kernel, storedBytes_le_of_roomyReachable ?_ (by decide)
    hreopened⟩
  have hdistinct : ∀ a ∈ [sampleBody, otherBody], ∀ b ∈ [sampleBody, otherBody],
      pairDigest.digest a = pairDigest.digest b → a = b := by
    decide +kernel
  exact fun a b ha hb => hdistinct a ha b hb

/-- In three bytes, the capacity is exceeded once the spool is opened again. -/
theorem refilledDisk_exceeds :
    (∃ owed, Reachable pairDigest 3 (· ∈ [sampleBody, otherBody]) enqueueFaults
        ⟨refilledDisk 3, .idle, owed⟩) ∧
      3 < storedBytes (refilledDisk 3) := by
  have hopened : Reachable pairDigest 3 (· ∈ [sampleBody, otherBody]) enqueueFaults
      ⟨openedDisk, .idle, fun _ => False⟩ := Reachable.initial.run_restart
  have hunmoved := (hopened.step (.call (.enqueue sampleBody) (by simp [Call.Uses]))).ends
    (ends_run exec_performUnmoved (enqueue pairDigest 3 sampleBody) openedDisk)
  have hfilled := hunmoved.run_call (.enqueue otherBody) (by simp [Call.Uses])
  have hreopened := hfilled.run_call .reopen trivial
  exact ⟨⟨_, hreopened⟩, by decide +kernel⟩

end MongoDam.Spool
