import Mathlib.Data.List.Defs

/-!
# Bounded channels

A channel hands items over in the order in which they were sent, and holds at most as
many as its capacity.
-/

namespace MongoDam.Lib

universe u

/-- The items that were sent and not yet received. -/
structure Channel (capacity : ℕ) (α : Type u) where
  queue : List α
  within : queue.length ≤ capacity

namespace Channel

variable {capacity : ℕ} {α : Type u}

def empty : Channel capacity α := ⟨[], Nat.zero_le capacity⟩

/-- `try_send`: nothing when the channel is full. -/
def trySend (a : α) (c : Channel capacity α) : Option (Channel capacity α) :=
  if h : c.queue.length < capacity then
    some ⟨c.queue ++ [a], by
      rw [List.length_append, List.length_singleton]
      omega⟩
  else none

/-- `recv`: nothing when the channel is empty. -/
def recv : Channel capacity α → Option (α × Channel capacity α)
  | ⟨[], _⟩ => none
  | ⟨a :: rest, h⟩ => some (a, ⟨rest, Nat.le_of_succ_le h⟩)

variable {c d : Channel capacity α} {a : α}

@[simp] theorem queue_empty : (empty : Channel capacity α).queue = [] := rfl

/-- An item that is sent is behind the others. -/
theorem queue_of_trySend (h : c.trySend a = some d) : d.queue = c.queue ++ [a] := by
  unfold trySend at h
  split at h
  · cases h
    rfl
  · cases h

theorem trySend_eq_none (h : c.trySend a = none) : c.queue.length = capacity := by
  unfold trySend at h
  split at h
  · cases h
  · have hwithin := c.within
    omega

/-- The item that is received was in front of the others. -/
theorem queue_of_recv (h : c.recv = some (a, d)) : c.queue = a :: d.queue := by
  obtain ⟨queue, hwithin⟩ := c
  cases queue with
  | nil => cases h
  | cons first rest =>
    cases h
    rfl

theorem queue_of_recv_none (h : c.recv = none) : c.queue = [] := by
  obtain ⟨queue, hwithin⟩ := c
  cases queue with
  | nil => rfl
  | cons first rest => cases h

end Channel

end MongoDam.Lib
