import MongoDam.Bpf.Handlers

/-!
# Waits of a thread

A wait for a lock and a page fault are measured alike: the probe at the beginning stores
the clock for the thread, the one at the end takes the start out of the map again and reports
a duration that is long enough. They differ in the map, the threshold and the record.
-/

namespace MongoDam.Bpf

open Lib Observer

/-- The record of a thread that waited for a lock. -/
def lockWaitEvent (ctx : Context) (started rc : ℕ) : KernelEvent :=
  { reservedEvent ctx [] with
    eventType := EVENT_PROFILE
    source := SOURCE_USER_UPROBE
    operation := OP_LOCK_WAIT
    durationNs := sub64 ctx.now started
    result := signed64 rc }

/-- The record of a page fault. -/
def pageFaultEvent (ctx : Context) (started rc : ℕ) : KernelEvent :=
  { reservedEvent ctx [] with
    eventType := EVENT_SYSCALL_LATENCY
    source := SOURCE_KERNEL
    operation := OP_PAGE_FAULT
    durationNs := sub64 ctx.now started
    result := signed64 rc }

/-- The two kinds of waits. -/
inductive Wait where
  | lock | pageFault

namespace Wait

/-- The map of the starts. -/
def starts : Wait → Maps → BoundedMap 32768 Thread ℕ
  | .lock, m => m.lockStarts
  | .pageFault, m => m.faultStarts

/-- The maps with other starts. -/
def store : Wait → BoundedMap 32768 Thread ℕ → Maps → Maps
  | .lock, starts, m => { m with lockStarts := starts }
  | .pageFault, starts, m => { m with faultStarts := starts }

def enter : Wait → Probe
  | .lock => .mutexLockEnter
  | .pageFault => .pageFaultEnter

def exit : Wait → ℕ → Probe
  | .lock => .mutexLockExit
  | .pageFault => .pageFaultExit

def thresholdNs : Wait → Rodata → ℕ
  | .lock => Rodata.lockWaitThresholdNs
  | .pageFault => Rodata.pageFaultThresholdNs

def event : Wait → Context → ℕ → ℕ → KernelEvent
  | .lock => lockWaitEvent
  | .pageFault => pageFaultEvent

variable (w : Wait) (rodata : Rodata) (ctx : Context)

/-- What both probes at the beginning do. -/
def handleEnter (m : Maps) : Maps :=
  if m.isTargetTgid ctx.thread.tgid then w.store ((w.starts m).update ctx.thread ctx.now) m else m

/-- What both probes at the end do. -/
def handleExit (rc : ℕ) (m : Maps) : Maps :=
  match (w.starts m).lookup ctx.thread with
  | none => m
  | some started =>
    let m := w.store ((w.starts m).delete ctx.thread) m
    if sub64 ctx.now started < w.thresholdNs rodata then m
    else reserveAndSubmit ctx 0 (w.event ctx started rc) m

@[simp] theorem starts_store (starts : BoundedMap 32768 Thread ℕ) (m : Maps) :
    w.starts (w.store starts m) = starts := by
  cases w <;> rfl

@[simp] theorem events_store (starts : BoundedMap 32768 Thread ℕ) (m : Maps) :
    (w.store starts m).events = m.events := by
  cases w <;> rfl

theorem starts_reserveAndSubmit (place : ℕ) (event : KernelEvent) (m : Maps) :
    w.starts (reserveAndSubmit ctx place event m) = w.starts m := by
  unfold reserveAndSubmit
  cases w <;> split <;> rfl

theorem fire_enter (setup : Setup) (m : Maps) :
    fire setup m ⟨ctx, w.enter⟩ = w.handleEnter ctx m := by
  cases w <;> rfl

theorem fire_exit (setup : Setup) (m : Maps) (rc : ℕ) :
    fire setup m ⟨ctx, w.exit rc⟩ = w.handleExit setup.rodata ctx rc m := by
  cases w <;> rfl

end Wait

end MongoDam.Bpf
