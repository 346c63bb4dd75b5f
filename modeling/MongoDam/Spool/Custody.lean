import MongoDam.Spool.Calls

/-!
# Custody across crashes

A spool as a machine: calls follow each other, each performs its file operations
one at a time, and a crash may strike before, between and after them. After a crash
the spool is opened again. The machine remembers which bodies are owed: those whose
`enqueue` succeeded and that no acknowledgement was asked for since. In every state
that can be reached the items are named by their digests, no item is in both
directories, and every body that is owed is held.
-/

namespace MongoDam.Spool

open Lib FileSystem

/-! ### The machine -/

/-- A call of a spool. -/
inductive Call where
  | enqueue (body : Bytes)
  | pending
  | read (item : PendingItem)
  | acknowledge (item : PendingItem)
  | quarantine (item : PendingItem)
  | stats
  | quarantineStats
  | reopen

namespace Call

@[reducible] def Result : Call → Type
  | enqueue _ => String
  | pending => List PendingItem
  | read _ => Bytes
  | acknowledge _ => Unit
  | quarantine _ => Unit
  | stats => SpoolStats
  | quarantineStats => SpoolStats
  | reopen => Unit

def program (sha256 : Digest32) (maxBytes : ℕ) : (call : Call) → Action call.Result
  | enqueue body => Spool.enqueue sha256 maxBytes body
  | pending => Spool.pending
  | read item => Spool.read item
  | acknowledge item => Spool.acknowledge item
  | quarantine item => Spool.quarantine item
  | stats => Spool.stats
  | quarantineStats => Spool.quarantineStats
  | reopen => openSpool sha256

/-- An enqueued body is in use. -/
def Uses (used : Bytes → Prop) : Call → Prop
  | enqueue body => used body
  | _ => True

/-- What is still owed once the call has begun. -/
def release (sha256 : Digest32) (owed : Bytes → Prop) : Call → Bytes → Prop
  | acknowledge item => fun body => owed body ∧ bodyId sha256 body ≠ item.id
  | _ => owed

/-- What is owed once the call has returned. -/
def owe (owed : Bytes → Prop) : (call : Call) → Except SpoolError call.Result → Bytes → Prop
  | enqueue body, .ok _ => fun other => owed other ∨ other = body
  | _, _ => owed

end Call

/-- What a spool is doing: nothing, a call of which `rest` remains, or nothing because it
has to be opened first. -/
inductive Phase where
  | idle
  | running (call : Call) (rest : Action call.Result)
  | down

/-- After a call the spool is idle, unless it could not be opened. -/
def Phase.after : (call : Call) → Except SpoolError call.Result → Phase
  | .reopen, .error _ => .down
  | _, _ => .idle

structure Machine where
  disk : Disk
  phase : Phase
  owed : Bytes → Prop

section Steps

variable (sha256 : Digest32) (maxBytes : ℕ) (used : Bytes → Prop)
  (faults : Call → FileOp Place Name → Prop)

/-- A spool directory that has just been created. -/
def Machine.initial : Machine where
  disk := .empty
  phase := .down
  owed _ := False

/-- One step of the machine. Operations of a call may fail as `faults` says. -/
inductive Step : Machine → Machine → Prop
  | call {disk : Disk} {owed : Bytes → Prop} (call : Call) (hused : call.Uses used) :
      Step ⟨disk, .idle, owed⟩
        ⟨disk, .running call (call.program sha256 maxBytes), call.release sha256 owed⟩
  | perform {disk disk' : Disk} {owed : Bytes → Prop} {call : Call} {op : FileOp Place Name}
      {next : Except IoError op.Value → Action call.Result} {result : Except IoError op.Value}
      (hexec : ExecWith (faults call) op disk result disk') :
      Step ⟨disk, .running call (.perform op next), owed⟩ ⟨disk', .running call (next result), owed⟩
  | finish {disk : Disk} {owed : Bytes → Prop} {call : Call}
      {result : Except SpoolError call.Result} :
      Step ⟨disk, .running call (.done result), owed⟩
        ⟨disk, Phase.after call result, call.owe owed result⟩
  | crash {disk disk' : Disk} {phase : Phase} {owed : Bytes → Prop}
      (hcrash : Crash used disk disk') :
      Step ⟨disk, phase, owed⟩ ⟨disk', .down, owed⟩
  | restart {disk : Disk} {owed : Bytes → Prop} :
      Step ⟨disk, .down, owed⟩ ⟨disk, .running .reopen (Call.reopen.program sha256 maxBytes), owed⟩

/-- The states a machine can reach. -/
inductive Reachable : Machine → Prop
  | initial : Reachable Machine.initial
  | step {m m' : Machine} (hm : Reachable m) (hstep : Step sha256 maxBytes used faults m m') :
      Reachable m'

end Steps

/-- No operation fails. -/
def noFaults : Call → FileOp Place Name → Prop := fun _ _ => False

/-- The contents of the items, and the bodies that are owed. -/
structure Custody (sha256 : Digest32) (m : Machine) : Prop where
  named : ∀ place id file, m.disk.entries.get? (place, .item id) = some file →
    encodeHex (sha256.digest (m.disk.files file).data) = id
  apart : ∀ id, ¬((m.disk.entries.get? (.root, .item id)).isSome ∧
    (m.disk.entries.get? (.quarantine, .item id)).isSome)
  held : ∀ body, m.owed body → ∃ place file,
    m.disk.entries.get? (place, .item (encodeHex (sha256.digest body))) = some file ∧
      (m.disk.files file).data = body

/-! ### Holdings in custody -/

/-- The holdings keep what is owed. -/
structure Kept (sha256 : Digest32) (used owed : Bytes → Prop) (held : Holdings) : Prop where
  named : ∀ place id body, held place id = some body → bodyId sha256 body = id ∧ used body
  apart : ∀ id, held .root id = none ∨ held .quarantine id = none
  held : ∀ body, owed body → ∃ place, held place (bodyId sha256 body) = some body

variable {sha256 : Digest32} {maxBytes : ℕ} {used owed : Bytes → Prop} {held : Holdings}

theorem Kept.weaken {less : Bytes → Prop} (h : Kept sha256 used owed held)
    (hless : ∀ body, less body → owed body) : Kept sha256 used less held :=
  ⟨h.named, h.apart, fun body hbody => h.held body (hless body hbody)⟩

/-- What is held under the id of a body in use is that body. -/
theorem Kept.held_of_has {body : Bytes} (hinjective : ∀ a b, used a → used b →
    bodyId sha256 a = bodyId sha256 b → a = b) (h : Kept sha256 used owed held) (hused : used body)
    (hhas : held.Has (bodyId sha256 body)) :
    ∃ place, held place (bodyId sha256 body) = some body := by
  have hplace : ∃ place, (held place (bodyId sha256 body)).isSome := by
    rcases hhas with hsome | hsome
    · exact ⟨.root, hsome⟩
    · exact ⟨.quarantine, hsome⟩
  obtain ⟨place, hsome⟩ := hplace
  obtain ⟨other, hother⟩ := Option.isSome_iff_exists.mp hsome
  obtain ⟨hid, hothers⟩ := h.named place _ other hother
  refine ⟨place, ?_⟩
  rw [hother, hinjective other body hothers hused hid]

/-- A new item under a free id. -/
theorem Kept.set {body : Bytes} (h : Kept sha256 used owed held) (hused : used body)
    (habsent : ¬held.Has (bodyId sha256 body)) :
    Kept sha256 used owed (held.set .root (bodyId sha256 body) (some body)) := by
  have hnone : ∀ place, held place (bodyId sha256 body) = none := by
    intro place
    rw [← Option.not_isSome_iff_eq_none]
    intro hsome
    cases place with
    | root => exact habsent (Or.inl hsome)
    | quarantine => exact habsent (Or.inr hsome)
  refine ⟨fun place id other hother => ?_, fun id => ?_, fun other howed => ?_⟩
  · unfold Holdings.set at hother
    split at hother
    · rename_i heq
      cases hother
      exact ⟨heq.2.symm, hused⟩
    · exact h.named place id other hother
  · by_cases hid : id = bodyId sha256 body
    · subst hid
      right
      rw [Holdings.set, if_neg fun h => by cases h.1]
      exact hnone .quarantine
    · rw [Holdings.set_of_ne _ _ hid, Holdings.set_of_ne _ _ hid]
      exact h.apart id
  · obtain ⟨place, hplace⟩ := h.held other howed
    refine ⟨place, ?_⟩
    rw [Holdings.set_of_ne _ _ ?_]
    · exact hplace
    · intro heq
      rw [heq, hnone place] at hplace
      cases hplace

theorem Kept.enqueue {body : Bytes} (h : Kept sha256 used owed held) (hused : used body) :
    Kept sha256 used owed (held.enqueue sha256 body) := by
  unfold Holdings.enqueue
  split
  · exact h
  · rename_i habsent
    exact h.set hused habsent

/-- An enqueued body is owed from then on. -/
theorem Kept.enqueued {body : Bytes} (hinjective : ∀ a b, used a → used b →
    bodyId sha256 a = bodyId sha256 b → a = b) (h : Kept sha256 used owed held)
    (hused : used body) :
    Kept sha256 used (fun other => owed other ∨ other = body) (held.enqueue sha256 body) := by
  have hkept := h.enqueue hused
  refine ⟨hkept.named, hkept.apart, ?_⟩
  rintro other (howed | rfl)
  · exact hkept.held other howed
  · refine hkept.held_of_has hinjective hused ?_
    unfold Holdings.enqueue
    split
    · rename_i hhas
      exact hhas
    · left
      rw [Holdings.set_self]
      rfl

/-- What is acknowledged is no longer owed. -/
theorem Kept.acknowledge {id : String} (h : Kept sha256 used owed held) :
    Kept sha256 used (fun body => owed body ∧ bodyId sha256 body ≠ id) (held.acknowledge id) := by
  refine ⟨fun place i body hbody => ?_, fun i => ?_, ?_⟩
  · unfold Holdings.acknowledge Holdings.set at hbody
    split at hbody
    · cases hbody
    · exact h.named place i body hbody
  · by_cases hid : i = id
    · subst hid
      left
      exact Holdings.set_self ..
    · rw [Holdings.acknowledge, Holdings.set_of_ne _ _ hid, Holdings.set_of_ne _ _ hid]
      exact h.apart i
  · rintro body ⟨howed, hne⟩
    obtain ⟨place, hplace⟩ := h.held body howed
    exact ⟨place, by rw [Holdings.acknowledge, Holdings.set_of_ne _ _ hne]; exact hplace⟩

/-- Moving an item to the quarantine loses nothing. -/
theorem Kept.quarantine {id : String} (h : Kept sha256 used owed held) :
    Kept sha256 used owed (held.quarantine id) := by
  unfold Holdings.quarantine
  split
  · rename_i body hquarantine
    have hroot : held .root id = none := by
      rcases h.apart id with hroot | hnone
      · exact hroot
      · rw [hnone] at hquarantine
        cases hquarantine
    rw [Holdings.acknowledge, Holdings.set_of_eq hroot]
    exact h
  · rename_i hnone
    split
    · exact h
    · rename_i body hroot
      refine ⟨fun place i other hother => ?_, fun i => ?_, fun other howed => ?_⟩
      · unfold Holdings.set at hother
        split at hother
        · rename_i heq
          cases hother
          rw [heq.2]
          exact h.named .root id body hroot
        · split at hother
          · cases hother
          · exact h.named place i other hother
      · by_cases hid : i = id
        · subst hid
          left
          rw [Holdings.set, if_neg fun h => by cases h.1]
          exact Holdings.set_self ..
        · rw [Holdings.set_of_ne _ _ hid, Holdings.set_of_ne _ _ hid, Holdings.set_of_ne _ _ hid,
            Holdings.set_of_ne _ _ hid]
          exact h.apart i
      · obtain ⟨place, hplace⟩ := h.held other howed
        by_cases hid : bodyId sha256 other = id
        · refine ⟨.quarantine, ?_⟩
          rw [hid] at hplace ⊢
          rw [Holdings.set_self, ← hroot]
          cases place with
          | root => exact hplace
          | quarantine =>
            rw [hnone] at hplace
            cases hplace
        · exact ⟨place, by
            rw [Holdings.set_of_ne _ _ hid, Holdings.set_of_ne _ _ hid]
            exact hplace⟩

/-- Recovered items lose nothing. -/
theorem Kept.recovered {held' : Holdings} (h : Kept sha256 used owed held)
    (hrecovered : Holdings.Recovered sha256 used held held') : Kept sha256 used owed held' := by
  refine ⟨fun place id body hbody => ?_, fun id => ?_, fun body howed => ?_⟩
  · cases place with
    | quarantine =>
      rw [hrecovered.quarantine] at hbody
      exact h.named .quarantine id body hbody
    | root =>
      rcases hrecovered.root id with heq | ⟨-, other, hother, hid, hused⟩
      · rw [heq] at hbody
        exact h.named .root id body hbody
      · rw [hother] at hbody
        cases hbody
        exact ⟨hid, hused⟩
  · rw [hrecovered.quarantine]
    rcases hrecovered.root id with heq | ⟨habsent, -⟩
    · rw [heq]
      exact h.apart id
    · right
      rw [← Option.not_isSome_iff_eq_none]
      exact fun hsome => habsent (Or.inr hsome)
  · obtain ⟨place, hplace⟩ := h.held body howed
    refine ⟨place, ?_⟩
    cases place with
    | quarantine =>
      rw [hrecovered.quarantine]
      exact hplace
    | root =>
      rcases hrecovered.root (bodyId sha256 body) with heq | ⟨habsent, -⟩
      · rw [heq]
        exact hplace
      · exact absurd (Or.inl (by rw [hplace]; rfl)) habsent

/-! ### Calls and crashes keep custody -/

/-- What is owed is kept, now and after a crash. -/
def Guarded (sha256 : Digest32) (used owed : Bytes → Prop) (fs : Disk) : Prop :=
  ∃ allowed, Safe used allowed fs ∧ ∀ held, allowed held → Kept sha256 used owed held

/-- Between calls. -/
def Resting (sha256 : Digest32) (used owed : Bytes → Prop) (fs : Disk) : Prop :=
  Settled used fs ∧ Kept sha256 used owed (Spool.held fs)

theorem Resting.guarded {fs : Disk} (h : Resting sha256 used owed fs) :
    Guarded sha256 used owed fs :=
  ⟨fun held => held = Spool.held fs, h.1.safe rfl, fun _ hheld => hheld ▸ h.2⟩

theorem Resting.weaken {fs : Disk} {less : Bytes → Prop} (h : Resting sha256 used owed fs)
    (hless : ∀ body, less body → owed body) : Resting sha256 used less fs :=
  ⟨h.1, h.2.weaken hless⟩

private theorem readOnly_ensures {fs : Disk} (h : Resting sha256 used owed fs)
    {op : FileOp Place Name} {f : op.Value → Action β}
    (hop : ∀ result fs', Exec op fs result fs' → fs' = fs)
    (hf : ∀ value, (f value).Ensures Exec (Guarded sha256 used owed)
      (fun _ fs' => Resting sha256 used owed fs') fs) :
    (io op >>= f).Ensures Exec (Guarded sha256 used owed)
      (fun _ fs' => Resting sha256 used owed fs') fs := by
  refine ensures_io_bind fun result fs' hexec => ?_
  rw [hop result fs' hexec]
  refine ⟨h.guarded, ?_⟩
  cases result with
  | ok value => exact hf value
  | error error => exact h

/-- Every call keeps what is owed while it runs and when it returns. -/
theorem call_ensures (hinjective : ∀ a b, used a → used b →
    bodyId sha256 a = bodyId sha256 b → a = b) {fs : Disk} (h : Resting sha256 used owed fs)
    (call : Call) (hused : call.Uses used) :
    (call.program sha256 maxBytes).Ensures Exec (Guarded sha256 used (call.release sha256 owed))
      (fun result fs' => Resting sha256 used (call.owe (call.release sha256 owed) result) fs')
      fs := by
  obtain ⟨hsettled, hkept⟩ := h
  cases call with
  | enqueue body =>
    refine (enqueue_ensures sha256 maxBytes hused hsettled).mono (fun fs' hsafe => ?_) ?_
    · refine ⟨_, hsafe, ?_⟩
      rintro held (rfl | rfl)
      · exact hkept
      · exact hkept.enqueue hused
    · rintro (error | id) fs' ⟨hsettled', hresult⟩
      · exact ⟨hsettled', hresult ▸ hkept⟩
      · exact ⟨hsettled', hresult.2 ▸ hkept.enqueued hinjective hused⟩
  | acknowledge item =>
    refine (acknowledge_ensures item hsettled).mono (fun fs' hsafe => ?_) ?_
    · refine ⟨_, hsafe, ?_⟩
      rintro held (rfl | rfl)
      · exact hkept.weaken fun _ howed => howed.1
      · exact hkept.acknowledge
    · rintro result fs' ⟨-, hsettled', hheld⟩
      exact ⟨hsettled', hheld ▸ hkept.acknowledge⟩
  | quarantine item =>
    refine (quarantine_ensures item hsettled).mono (fun fs' hsafe => ?_) ?_
    · refine ⟨_, hsafe, ?_⟩
      rintro held (rfl | rfl)
      · exact hkept
      · exact hkept.quarantine
    · rintro result fs' ⟨hsettled', hheld, -⟩
      exact ⟨hsettled', hheld ▸ hkept.quarantine⟩
  | reopen =>
    refine (openSpool_ensures sha256 hsettled).mono (fun fs' hsafe => ?_) ?_
    · exact ⟨_, hsafe, fun _ hrecovered => hkept.recovered hrecovered⟩
    · rintro result fs' ⟨-, hsettled', hrecovered, -⟩
      exact ⟨hsettled', hkept.recovered hrecovered⟩
  | pending =>
    refine readOnly_ensures ⟨hsettled, hkept⟩ (fun _ _ hexec => hexec.1) fun names => ?_
    exact ensures_pure ⟨hsettled, hkept⟩
  | stats =>
    refine readOnly_ensures ⟨hsettled, hkept⟩ (fun _ _ hexec => hexec.1) fun names => ?_
    exact ensures_pure ⟨hsettled, hkept⟩
  | quarantineStats =>
    refine readOnly_ensures ⟨hsettled, hkept⟩ (fun _ _ hexec => hexec.1) fun names => ?_
    exact ensures_pure ⟨hsettled, hkept⟩
  | read item =>
    refine ensures_io fun result fs' hexec => ?_
    rw [hexec.1]
    exact ⟨Resting.guarded ⟨hsettled, hkept⟩, hsettled, hkept⟩

/-- What holds of the machine in each phase. -/
def Machine.Invariant (sha256 : Digest32) (used : Bytes → Prop) (m : Machine) : Prop :=
  Guarded sha256 used m.owed m.disk ∧
    match m.phase with
    | .idle => Resting sha256 used m.owed m.disk
    | .down => Resting sha256 used m.owed m.disk
    | .running call rest =>
      rest.Ensures Exec (Guarded sha256 used m.owed)
        (fun result fs => Resting sha256 used (call.owe m.owed result) fs) m.disk

private theorem initial_invariant : Machine.initial.Invariant sha256 used := by
  have hresting : Resting sha256 used (fun _ => False) Machine.initial.disk := by
    refine ⟨⟨rfl, rfl, ?_, ?_⟩, ⟨?_, ?_, ?_⟩⟩
    · intro path file hget
      cases hget
    · intro file hsynced
      cases hsynced
    · intro place id body hbody
      cases hbody
    · intro id
      exact Or.inl rfl
    · intro body howed
      cases howed
  exact ⟨hresting.guarded, hresting⟩

private theorem step_invariant {m m' : Machine} (hinjective : ∀ a b, used a → used b →
    bodyId sha256 a = bodyId sha256 b → a = b)
    (hstep : Step sha256 maxBytes used noFaults m m') (h : m.Invariant sha256 used) :
    m'.Invariant sha256 used := by
  obtain ⟨hguarded, hphase⟩ := h
  cases hstep with
  | @call disk owed call hused =>
    have hrelease : ∀ body, call.release sha256 owed body → owed body := by
      intro body hbody
      cases call with
      | acknowledge item => exact hbody.1
      | _ => exact hbody
    exact ⟨(Resting.weaken hphase hrelease).guarded, call_ensures hinjective hphase call hused⟩
  | perform hexec =>
    rcases hexec with hexec | ⟨hfault, -⟩
    · exact hphase _ _ hexec
    · cases hfault
  | @finish disk owed call result =>
    have hresting : Resting sha256 used (call.owe owed result) disk := hphase
    refine ⟨hresting.guarded, ?_⟩
    have hafter : Phase.after call result = .idle ∨ Phase.after call result = .down := by
      unfold Phase.after
      split
      · exact Or.inr rfl
      · exact Or.inl rfl
    rcases hafter with heq | heq
    · change match Phase.after call result with | .idle => _ | .down => _ | .running _ _ => _
      rw [heq]
      exact hresting
    · change match Phase.after call result with | .idle => _ | .down => _ | .running _ _ => _
      rw [heq]
      exact hresting
  | crash hcrash =>
    obtain ⟨allowed, hsafe, hkept⟩ := hguarded
    obtain ⟨hsettled, hallowed⟩ := hsafe.crash hcrash
    have hresting : Resting sha256 used _ _ := ⟨hsettled, hkept _ hallowed⟩
    exact ⟨hresting.guarded, hresting⟩
  | restart => exact ⟨hguarded, call_ensures hinjective hphase .reopen trivial⟩

private theorem reachable_invariant {m : Machine} (hinjective : ∀ a b, used a → used b →
    bodyId sha256 a = bodyId sha256 b → a = b)
    (h : Reachable sha256 maxBytes used noFaults m) : m.Invariant sha256 used := by
  induction h with
  | initial => exact initial_invariant
  | step _ hstep ih => exact step_invariant hinjective hstep ih

/-- What a reachable spool holds is named by its digests and in use, and what is owed is held. -/
theorem kept_of_reachable {m : Machine}
    (hinjective : ∀ a b, used a → used b → sha256.digest a = sha256.digest b → a = b)
    (h : Reachable sha256 maxBytes used noFaults m) :
    Kept sha256 used m.owed (Spool.held m.disk) := by
  have hids : ∀ a b, used a → used b → bodyId sha256 a = bodyId sha256 b → a = b :=
    fun a b ha hb heq => hinjective a b ha hb (encodeHex_inj heq)
  obtain ⟨⟨allowed, hsafe, hallowed⟩, -⟩ := reachable_invariant hids h
  exact hallowed _ hsafe.held

/-- In every state a spool can reach, over any calls and crashes: items are named by their
digests, none is in both directories, and every body that is owed is held. -/
theorem custody_of_reachable {m : Machine}
    (hinjective : ∀ a b, used a → used b → sha256.digest a = sha256.digest b → a = b)
    (h : Reachable sha256 maxBytes used noFaults m) : Custody sha256 m := by
  have hkept := kept_of_reachable hinjective h
  refine ⟨fun place id file hget => ?_, ?_, fun body howed => ?_⟩
  · exact (hkept.named place id _ (holdings_eq_some.mpr ⟨file, hget, rfl⟩)).1
  · rintro id ⟨hroot, hquarantine⟩
    rcases hkept.apart id with hnone | hnone
    · rw [show m.disk.entries.get? (.root, .item id) = none from Option.map_eq_none_iff.mp hnone]
        at hroot
      cases hroot
    · rw [show m.disk.entries.get? (.quarantine, .item id) = none from
        Option.map_eq_none_iff.mp hnone] at hquarantine
      cases hquarantine
  · obtain ⟨place, hplace⟩ := hkept.held body howed
    obtain ⟨file, hget, hdata⟩ := holdings_eq_some.mp hplace
    exact ⟨place, file, hget, hdata⟩

/-! ### What a call returns -/

/-- A body that is read has the digest that names its item. -/
def Call.Returns (sha256 : Digest32) (used : Bytes → Prop) :
    (call : Call) → Except SpoolError call.Result → Prop
  | read item, .ok body => bodyId sha256 body = item.id ∧ used body
  | _, _ => True

private theorem always_true {exec : Program.Meaning (FileOp Place Name)
    (fun op => Except IoError op.Value) Disk} {Q : Except SpoolError α → Prop}
    (hQ : ∀ result, Q result) (action : Action α) (fs : Disk) :
    action.Ensures exec (fun _ => True) (fun result _ => Q result) fs := by
  unfold Action at action
  induction action generalizing fs with
  | done result => exact hQ result
  | perform op next ih => exact fun result fs' _ => ⟨trivial, ih result fs'⟩

private theorem call_returns {fs : Disk} (hkept : Kept sha256 used owed (Spool.held fs))
    (call : Call) :
    (call.program sha256 maxBytes).Ensures Exec (fun _ => True)
      (fun result _ => call.Returns sha256 used result) fs := by
  cases call with
  | read item =>
    refine ensures_io fun result fs' hexec => ⟨trivial, ?_⟩
    obtain ⟨-, rfl⟩ := hexec
    cases hdata : fs.dataAt item.path with
    | none => trivial
    | some body => exact hkept.named .root item.id body hdata
  | _ => exact always_true (fun _ => trivial) _ _

/-- A call that has come to its end returns what it should. -/
theorem returns_of_reachable {m : Machine}
    (hinjective : ∀ a b, used a → used b → sha256.digest a = sha256.digest b → a = b)
    (h : Reachable sha256 maxBytes used noFaults m) {call : Call}
    {result : Except SpoolError call.Result} (hphase : m.phase = .running call (.done result)) :
    call.Returns sha256 used result := by
  -- While a call is under way, what remains of it ends as it should.
  have hrunning : ∀ call rest, m.phase = .running call rest → rest.Ensures Exec (fun _ => True)
      (fun result _ => call.Returns sha256 used result) m.disk := by
    clear hphase
    induction h with
    | initial => rintro call rest ⟨⟩
    | step hm hstep ih =>
      cases hstep with
      | call called =>
        rintro call rest ⟨⟩
        exact call_returns (kept_of_reachable hinjective hm) called
      | perform hexec =>
        rintro call rest ⟨⟩
        rcases hexec with hexec | ⟨hfault, -⟩
        · exact (ih _ _ rfl _ _ hexec).2
        · cases hfault
      | finish =>
        intro call rest hafter
        unfold Phase.after at hafter
        split at hafter <;> cases hafter
      | crash hcrash => rintro call rest ⟨⟩
      | restart =>
        rintro call rest ⟨⟩
        exact always_true (fun _ => trivial) _ _
  exact hrunning call (.done result) hphase

/-! ### A concrete run -/

section Runs

variable {faults : Call → FileOp Place Name → Prop} {disk : Disk}

/-- A call that is under way can come to any of its ends. -/
theorem Reachable.ends {disk' : Disk} {call : Call} {rest : Action call.Result}
    {result : Except SpoolError call.Result}
    (h : Reachable sha256 maxBytes used faults ⟨disk, .running call rest, owed⟩)
    (hends : Program.Ends (ExecWith (faults call)) rest disk result disk') :
    Reachable sha256 maxBytes used faults
      ⟨disk', Phase.after call result, call.owe owed result⟩ := by
  unfold Action at rest
  induction hends with
  | done => exact h.step .finish
  | perform hexec _ ih => exact ih (h.step (.perform hexec))

/-- A call that is under way can be run to its end. -/
theorem Reachable.run_rest {call : Call} {rest : Action call.Result}
    (h : Reachable sha256 maxBytes used faults ⟨disk, .running call rest, owed⟩) :
    Reachable sha256 maxBytes used faults
      ⟨(Program.run perform rest disk).2, Phase.after call (Program.run perform rest disk).1,
        call.owe owed (Program.run perform rest disk).1⟩ :=
  h.ends ((Program.ends_run exec_perform rest disk).mono fun _ _ _ _ hexec => Or.inl hexec)

/-- A call can be made between calls. -/
theorem Reachable.run_call (h : Reachable sha256 maxBytes used faults ⟨disk, .idle, owed⟩)
    (call : Call) (hused : call.Uses used) :
    let ended := Program.run perform (call.program sha256 maxBytes) disk
    Reachable sha256 maxBytes used faults ⟨ended.2, Phase.after call ended.1,
      call.owe (call.release sha256 owed) ended.1⟩ :=
  (h.step (.call call hused)).run_rest

/-- A spool that is down can be opened. -/
theorem Reachable.run_restart (h : Reachable sha256 maxBytes used faults ⟨disk, .down, owed⟩) :
    let ended := Program.run perform (openSpool sha256) disk
    Reachable sha256 maxBytes used faults ⟨ended.2, Phase.after .reopen ended.1,
      Call.reopen.owe owed ended.1⟩ :=
  (h.step .restart).run_rest

end Runs

/-- A crash that keeps everything that is durable and fills the other files with a body. -/
def crashed (disk : Disk) (body : Bytes) : Disk where
  entries := disk.durable
  durable := disk.durable
  unsynced := []
  files file :=
    { data := if (disk.files file).synced then (disk.files file).data else body, synced := true }
  fresh := disk.fresh

theorem crash_crashed {disk : Disk} {body : Bytes} (hused : used body) :
    Crash used disk (crashed disk body) := by
  refine ⟨⟨[], List.nil_sublist _, rfl⟩, rfl, rfl, rfl, fun file => ⟨rfl, ?_⟩⟩
  by_cases hsynced : (disk.files file).synced = true
  · rw [if_pos hsynced]
    exact if_pos hsynced
  · rw [if_neg hsynced, crashed]
    dsimp only
    rwa [if_neg hsynced]

/-- An empty object as JSON. -/
def sampleBody : Bytes := [123, 125]

/-- The digest of `sampleBody`. -/
def sampleDigest : Digest32 :=
  .ofTable [(sampleBody,
    [68, 19, 111, 163, 85, 179, 103, 138, 17, 70, 173, 22, 247, 232, 100, 158, 148, 251, 79,
      194, 31, 231, 126, 131, 16, 192, 96, 246, 28, 170, 255, 138])]

/-- A spool of 16 bytes after it was opened. -/
def openedDisk : Disk := (Program.run perform (openSpool sampleDigest) .empty).2

/-- The spool with `sampleBody` enqueued. -/
def enqueuedDisk : Disk := (Program.run perform (enqueue sampleDigest 16 sampleBody) openedDisk).2

/-- A body that was enqueued is held after a crash. -/
theorem sampleBody_custody :
    ∃ owed, owed sampleBody ∧
      Reachable sampleDigest 16 (· = sampleBody) noFaults
        ⟨crashed enqueuedDisk sampleBody, .down, owed⟩ ∧
      Custody sampleDigest ⟨crashed enqueuedDisk sampleBody, .down, owed⟩ := by
  have hinjective : ∀ a b : Bytes, a = sampleBody → b = sampleBody →
      sampleDigest.digest a = sampleDigest.digest b → a = b := by
    rintro a b rfl rfl _
    rfl
  have hopened : Reachable sampleDigest 16 (· = sampleBody) noFaults
      ⟨openedDisk, .idle, fun _ => False⟩ := Reachable.initial.run_restart
  have henqueued := hopened.run_call (.enqueue sampleBody) rfl
  have hcrashed := henqueued.step (.crash (crash_crashed rfl))
  refine ⟨_, ?_, hcrashed, custody_of_reachable hinjective hcrashed⟩
  have hok : (Program.run perform (enqueue sampleDigest 16 sampleBody) openedDisk).1 =
      .ok (bodyId sampleDigest sampleBody) := by
    rfl
  change Call.owe _ (.enqueue sampleBody) (Program.run perform (enqueue sampleDigest 16 sampleBody)
    openedDisk).1 sampleBody
  rw [hok]
  exact Or.inr rfl

end MongoDam.Spool
