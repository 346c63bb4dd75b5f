import MongoDam.Bpf.Registers

/-!
# Captured bytes are those of the call they are reported for

Between the entry of a call and its return a thread can fire any probe, and so can all
other threads. What is captured at the return is read from the buffer the thread
gave at the entry of that very call, and reported under the key of the socket that the
call was taken to last. The bytes of a system call are captured only when a socket was
reached inside the call, so that what a process reads from its files or writes to them
never leaves the kernel.
-/

namespace MongoDam.Bpf

open Lib Observer

/-- The firing takes the thread's call to a socket and gives it the key: that of a tracked
socket, or what the addresses and ports of a socket of DNS hash to. -/
def Firing.GivesKey (m : Maps) (f : Firing) (thread : Thread) (key : ℕ) : Prop :=
  f.ctx.thread = thread ∧ m.isTargetTgid thread.tgid = true ∧
    ((∃ sk, f.probe.tracks = some sk ∧ sk.handle ≠ 0 ∧
        key = (trackedOwner f.ctx sk m).connectionKey) ∨
      ∃ sk, f.probe.tracks = none ∧ f.probe.dnsSocket = some sk ∧ key = socketConnectionKey sk)

/-- The key of a call is the one a socket gave it last, or the one it was entered with. -/
def KeyOf (setup : Setup) (thread : Thread) (m : Maps) (call : PendingRead)
    (since : List Firing) (key : ℕ) : Prop :=
  Since (fire setup) (fun m g => g.GivesKey m thread key)
      (fun m g => ∀ other, ¬ g.GivesKey m thread other) m since ∨
    Along (fire setup) (fun m g => ∀ other, ¬ g.GivesKey m thread other) m since ∧
      key = call.connectionKey

/-- The thread entered a call, and neither ended it nor entered another since. -/
structure OpenSince (setup : Setup) (fs : List Firing) (thread : Thread) (call : PendingRead)
    (before : List Firing) (entry : Firing) (since : List Firing) : Prop where
  split : fs = before ++ entry :: since
  ofThread : entry.ctx.thread = thread
  enters : entry.Enters setup (ran setup before) call
  stays : Along (fire setup) (fun m g => ¬ g.Moves setup m thread)
    (ran setup (before ++ [entry])) since

/-- A pending call is one the thread has open, with the key of the socket it was taken to; as one
of a socket it was taken to that socket since, unless it is one of the TLS library. -/
structure PendingRead.OpenAs (setup : Setup) (fs : List Firing) (thread : Thread)
    (pending call : PendingRead) (before : List Firing) (entry : Firing)
    (since : List Firing) : Prop where
  entered : OpenSince setup fs thread call before entry since
  same : pending.SameCall call
  key : KeyOf setup thread (ran setup (before ++ [entry])) call since pending.connectionKey
  connected : pending.isNetwork = true → pending.protocol = 0 → call.isNetwork = true ∨
    ∃ g ∈ since, g.ctx.thread = thread ∧ g.probe.tracks.isSome = true
  resolved : pending.protocol ≠ 0 →
    ∃ g ∈ since, g.ctx.thread = thread ∧ g.probe.dnsSocket.isSome = true

section Keys

variable {setup : Setup} {m : Maps} {f : Firing} {thread : Thread} {pending : PendingRead}

/-- What a firing makes of a call's key. -/
private theorem givesKey_or_kept (m : Maps) (f : Firing) (thread : Thread)
    (pending : PendingRead) :
    f.GivesKey m thread (f.taken m thread pending).connectionKey ∨
      (∀ other, ¬ f.GivesKey m thread other) ∧
        (f.taken m thread pending).connectionKey = pending.connectionKey := by
  by_cases hown : f.ctx.thread = thread ∧ m.isTargetTgid thread.tgid = true
  · rw [Firing.taken, if_pos hown]
    cases htracks : f.probe.tracks with
    | some sk =>
      by_cases hhandle : sk.handle ≠ 0
      · refine .inl ⟨hown.1, hown.2, .inl ⟨sk, htracks, hhandle, ?_⟩⟩
        exact if_pos hhandle
      · refine .inr ⟨?_, if_neg hhandle⟩
        simp [Firing.GivesKey, htracks, not_not.mp hhandle]
    | none =>
      cases hdns : f.probe.dnsSocket with
      | some sk => exact .inl ⟨hown.1, hown.2, .inr ⟨sk, htracks, hdns, rfl⟩⟩
      | none => exact .inr ⟨by simp [Firing.GivesKey, htracks, hdns], rfl⟩
  · rw [Firing.taken, if_neg hown]
    exact .inr ⟨fun other hgives => hown ⟨hgives.1, hgives.2.1⟩, rfl⟩

/-- The key of a call after one more firing. -/
private theorem KeyOf.concat {call : PendingRead} {since : List Firing}
    (h : KeyOf setup thread m call since pending.connectionKey) (f : Firing) :
    KeyOf setup thread m call (since ++ [f])
      (f.taken (after (fire setup) m since) thread pending).connectionKey := by
  rcases givesKey_or_kept (after (fire setup) m since) f thread pending with hgives | ⟨hno, hkept⟩
  · exact .inl (.now hgives)
  · rw [hkept]
    rcases h with hgiven | ⟨hnone, hentered⟩
    · exact .inl (hgiven.concat hno)
    · exact .inr ⟨(along_append m since [f]).mpr ⟨hnone, hno, trivial⟩, hentered⟩

/-- A call is taken to a socket of a connection by a probe that tracks it, and to one of DNS by
a probe of DNS. -/
private theorem taken_cases (m : Maps) (f : Firing) (thread : Thread) (pending : PendingRead) :
    f.taken m thread pending = pending ∨
      f.ctx.thread = thread ∧
        ((f.probe.tracks.isSome = true ∧
            (f.taken m thread pending).protocol = pending.protocol) ∨
          f.probe.dnsSocket.isSome = true ∧ (f.taken m thread pending).protocol = 1) := by
  unfold Firing.taken
  split
  · next hown =>
    split
    · next htracks => exact .inr ⟨hown.1, .inl ⟨by rw [htracks]; rfl, rfl⟩⟩
    · next hdns => exact .inr ⟨hown.1, .inr ⟨by rw [hdns]; rfl, rfl⟩⟩
    · exact .inl rfl
  · exact .inl rfl

end Keys

variable {setup : Setup} {fs : List Firing} {thread : Thread} {pending : PendingRead}

/-- A call that stays open through a firing. -/
private theorem PendingRead.OpenAs.concat {call : PendingRead} {before since : List Firing}
    {entry f : Firing} (h : pending.OpenAs setup fs thread call before entry since)
    (hmoves : ¬ f.Moves setup (ran setup fs) thread) :
    (f.taken (ran setup fs) thread pending).OpenAs setup (fs ++ [f]) thread call before entry
      (since ++ [f]) := by
  obtain ⟨rfl, hthread, henters, hstays⟩ := h.entered
  have hran : ran setup (before ++ entry :: since) =
      after (fire setup) (ran setup (before ++ [entry])) since := by
    rw [← after_append, List.append_assoc, List.singleton_append]
  have hearlier {P : Firing → Prop} (hfound : ∃ g ∈ since, P g) : ∃ g ∈ since ++ [f], P g := by
    obtain ⟨g, hg, hP⟩ := hfound
    exact ⟨g, List.mem_append_left _ hg, hP⟩
  have hcases := taken_cases (ran setup (before ++ entry :: since)) f thread pending
  refine ⟨⟨by simp, hthread, henters, ?_⟩, (f.sameCall_taken _ thread pending).trans h.same, ?_,
    fun hnetwork hprotocol => ?_, fun hprotocol => ?_⟩
  · rw [along_append, ← hran]
    exact ⟨hstays, hmoves, trivial⟩
  · rw [hran]
    exact h.key.concat f
  · rcases hcases with hsame | ⟨hown, ⟨htracks, _⟩ | ⟨_, hone⟩⟩
    · rw [hsame] at hnetwork hprotocol
      exact (h.connected hnetwork hprotocol).imp id hearlier
    · exact .inr ⟨f, by simp, hown, htracks⟩
    · rw [hprotocol] at hone
      cases hone
  · rcases hcases with hsame | ⟨hown, ⟨_, hkept⟩ | ⟨hdns, _⟩⟩
    · rw [hsame] at hprotocol
      exact hearlier (h.resolved hprotocol)
    · rw [hkept] at hprotocol
      exact hearlier (h.resolved hprotocol)
    · exact ⟨f, by simp, hown, hdns⟩

end MongoDam.Bpf
