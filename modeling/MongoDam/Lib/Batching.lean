import Mathlib.Data.List.Basic

/-!
# Gathering values into batches

Values are gathered until a batch of them is taken. The batches and the values that are
still gathered are together the values that came in, in their order, and a limit on the
gathered values bounds every batch.
-/

namespace MongoDam.Lib

/-- The batches that were taken, and the values gathered since. -/
structure Batching (α : Type) where
  batches : List (List α) := []
  pending : List α := []

namespace Batching

variable {α : Type} (batching : Batching α) {limit : ℕ}

/-- All values that came in. -/
def all : List α := batching.batches.flatten ++ batching.pending

/-- Gather a value. -/
def push (value : α) : Batching α := { batching with pending := batching.pending ++ [value] }

/-- Take a batch, if a value was gathered. -/
def flush : Batching α :=
  if batching.pending = [] then batching
  else { batches := batching.batches ++ [batching.pending], pending := [] }

/-- Take a batch when the limit is reached or when it is demanded. -/
def settle (limit : ℕ) (demanded : Prop) [Decidable demanded] : Batching α :=
  if limit ≤ batching.pending.length ∨ demanded then batching.flush else batching

/-- Every batch holds values, at most as many as the limit, and there is room for one more. -/
structure Within (limit : ℕ) : Prop where
  batches : ∀ batch ∈ batching.batches, 1 ≤ batch.length ∧ batch.length ≤ limit
  pending : batching.pending.length < limit

variable {batching}

theorem all_push (value : α) : (batching.push value).all = batching.all ++ [value] :=
  (List.append_assoc ..).symm

theorem all_flush : batching.flush.all = batching.all := by
  unfold flush
  split
  · rfl
  · simp [all]

theorem pending_flush : batching.flush.pending = [] := by
  unfold flush
  split
  · assumption
  · rfl

/-- Taking a batch of at most as many values as the limit. -/
theorem within_flush (hbatches : ∀ batch ∈ batching.batches, 1 ≤ batch.length ∧
      batch.length ≤ limit) (hpending : batching.pending.length ≤ limit) (hlimit : 0 < limit) :
    batching.flush.Within limit := by
  refine ⟨?_, by rw [pending_flush]; exact hlimit⟩
  unfold flush
  split
  · exact hbatches
  · next hne =>
    intro batch hmem
    rcases List.mem_append.mp hmem with hold | hnew
    · exact hbatches batch hold
    · rw [List.mem_singleton.mp hnew]
      exact ⟨List.length_pos_iff.mpr hne, hpending⟩

theorem Within.flush (h : batching.Within limit) : batching.flush.Within limit :=
  within_flush h.batches (Nat.le_of_lt h.pending) (Nat.zero_lt_of_lt h.pending)

theorem Within.settle (h : batching.Within limit) (demanded : Prop) [Decidable demanded] :
    (batching.settle limit demanded).Within limit := by
  unfold Batching.settle
  split
  · exact h.flush
  · exact h

/-- One more value fits, and then a full batch is taken. -/
theorem Within.settle_push (h : batching.Within limit) (value : α) (demanded : Prop)
    [Decidable demanded] : ((batching.push value).settle limit demanded).Within limit := by
  have hlength : (batching.push value).pending.length = batching.pending.length + 1 :=
    List.length_append
  have hroom := h.pending
  unfold Batching.settle
  split
  · exact within_flush h.batches (by omega) (by omega)
  · next hless => exact ⟨h.batches, by omega⟩

end Batching

end MongoDam.Lib
