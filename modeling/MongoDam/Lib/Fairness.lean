import Mathlib.Order.WellFounded
import MongoDam.Lib.LastWrite

/-!
# Progress under a fair schedule

A schedule picks one task after the other, without end, and is fair when it picks every
task again and again. A machine reaches its goal under every fair schedule if, short of
the goal, no step raises its rank, and the task that is due lowers it and stays due until
it is picked.
-/

namespace MongoDam.Lib

universe u v w

variable {σ : Type u} {α : Type v} {τ : Type w} {ρ : Type*}

/-- The state after the first steps of a schedule. -/
def scheduled (step : σ → α → σ) (s : σ) (schedule : ℕ → α) : ℕ → σ
  | 0 => s
  | n + 1 => step (scheduled step s schedule n) (schedule n)

/-- The first steps of a schedule are a run. -/
theorem scheduled_eq_after (step : σ → α → σ) (s : σ) (schedule : ℕ → α) (n : ℕ) :
    scheduled step s schedule n = after step s ((List.range n).map schedule) := by
  induction n with
  | zero => rfl
  | succ n ih =>
    rw [List.range_succ, List.map_append, List.map_singleton, after_concat, ← ih]
    rfl

/-- Every task is picked again and again; steps of no task may stand in between. -/
def FairTo (task : α → Option τ) (schedule : ℕ → α) : Prop :=
  ∀ t n, ∃ m, n ≤ m ∧ task (schedule m) = some t

/-- What a step does to a machine short of its goal: the goal is reached, or the rank falls,
or the task that is due was not picked and stays due. -/
structure Progress (step : σ → α → σ) (task : α → Option τ) (rank : σ → ρ)
    (below : ρ → ρ → Prop) (due : σ → τ) (I goal : σ → Prop) : Prop where
  wellFounded : WellFounded below
  keeps : ∀ s a, I s → I (step s a)
  advances : ∀ s a, I s → ¬ goal s → goal (step s a) ∨ below (rank (step s a)) (rank s) ∨
    rank (step s a) = rank s ∧ due (step s a) = due s ∧ task a ≠ some (due s)

namespace Progress

variable {step : σ → α → σ} {task : α → Option τ} {rank : σ → ρ} {below : ρ → ρ → Prop}
  {due : σ → τ} {I goal : σ → Prop} {s : σ} {schedule : ℕ → α}

theorem scheduled (h : Progress step task rank below due I goal) (hstart : I s) (n : ℕ) :
    I (scheduled step s schedule n) := by
  induction n with
  | zero => exact hstart
  | succ n ih => exact h.keeps _ _ ih

/-- The rank falls, for as long as the goal is not reached. -/
private theorem falls (h : Progress step task rank below due I goal) (hstart : I s)
    (hfair : FairTo task schedule) (hnever : ∀ n, ¬ goal (Lib.scheduled step s schedule n))
    (n : ℕ) :
    ∃ m, below (rank (Lib.scheduled step s schedule m))
      (rank (Lib.scheduled step s schedule n)) := by
  by_contra hfalls
  -- Until it is picked, the task that is due stays due, and the rank stays the same.
  have hstays (k : ℕ) :
      rank (Lib.scheduled step s schedule (n + k)) = rank (Lib.scheduled step s schedule n) ∧
        due (Lib.scheduled step s schedule (n + k)) = due (Lib.scheduled step s schedule n) := by
    induction k with
    | zero => exact ⟨rfl, rfl⟩
    | succ k ih =>
      rcases h.advances _ (schedule (n + k)) (h.scheduled hstart (n + k)) (hnever (n + k)) with
        hgoal | hbelow | ⟨hrank, hdue, -⟩
      · exact absurd hgoal (hnever (n + k + 1))
      · rw [ih.1] at hbelow
        exact absurd ⟨n + k + 1, hbelow⟩ hfalls
      · exact ⟨hrank.trans ih.1, hdue.trans ih.2⟩
  obtain ⟨m, hle, hpicked⟩ := hfair (due (Lib.scheduled step s schedule n)) n
  obtain ⟨k, rfl⟩ := Nat.exists_eq_add_of_le hle
  obtain ⟨hrank, hdue⟩ := hstays k
  rcases h.advances _ (schedule (n + k)) (h.scheduled hstart (n + k)) (hnever (n + k)) with
    hgoal | hbelow | ⟨-, -, hother⟩
  · exact hnever (n + k + 1) hgoal
  · rw [hrank] at hbelow
    exact hfalls ⟨n + k + 1, hbelow⟩
  · exact hother (hpicked.trans (congrArg some hdue.symm))

/-- The goal is reached. -/
theorem reaches (h : Progress step task rank below due I goal) (hstart : I s)
    (hfair : FairTo task schedule) : ∃ n, goal (Lib.scheduled step s schedule n) := by
  by_contra hnot
  have hnever (n : ℕ) : ¬ goal (Lib.scheduled step s schedule n) := fun hgoal => hnot ⟨n, hgoal⟩
  have hdescent : ∀ r n, rank (Lib.scheduled step s schedule n) = r → False := by
    intro r
    induction r using h.wellFounded.induction with
    | _ r ih =>
      intro n hrank
      obtain ⟨m, hbelow⟩ := h.falls hstart hfair hnever n
      rw [hrank] at hbelow
      exact ih _ hbelow m rfl
  exact hdescent _ 0 rfl

end Progress

end MongoDam.Lib
