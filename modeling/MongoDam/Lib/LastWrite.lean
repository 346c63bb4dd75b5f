import MongoDam.Lib.Trace

/-!
# Where what a machine holds came from

A register of a machine is read off its state; a step sets it, keeps it or clears
it. What a register holds after a run that began with it empty was set by one step of
the run, and every step since kept it.
-/

namespace MongoDam.Lib

universe u v w

variable {σ : Type u} {α : Type v} {ν : Type w} {step : σ → α → σ}

theorem after_append (s : σ) (as bs : List α) :
    after step s (as ++ bs) = after step (after step s as) bs := by
  induction as generalizing s with
  | nil => rfl
  | cons a as ih => exact ih (step s a)

theorem after_concat (s : σ) (as : List α) (a : α) :
    after step s (as ++ [a]) = step (after step s as) a :=
  after_append s as [a]

theorem along_append {P : σ → α → Prop} (s : σ) (as bs : List α) :
    Along step P s (as ++ bs) ↔ Along step P s as ∧ Along step P (after step s as) bs := by
  induction as generalizing s with
  | nil => simp [Along, after]
  | cons a as ih => simp [Along, after, ih, and_assoc]

/-- Each step of a run is taken in the state the steps before it led to. -/
theorem Along.at {P : σ → α → Prop} {s : σ} {older later : List α} {a : α}
    (h : Along step P s (older ++ a :: later)) : P (after step s older) a :=
  ((along_append s older (a :: later)).mp h).2.1

/-- What holds of a step wherever the run takes it holds along the run. -/
theorem along_of_at {P : σ → α → Prop} {s : σ} {as : List α}
    (h : ∀ older a later, as = older ++ a :: later → P (after step s older) a) :
    Along step P s as := by
  induction as using List.reverseRecOn with
  | nil => trivial
  | append_singleton as a ih =>
    rw [along_append]
    constructor
    · apply ih
      rintro older b later rfl
      exact h older b (later ++ [a]) (by simp)
    · exact ⟨h as a [] rfl, trivial⟩

/-- One step of the run was of the first kind, and every step since of the second. -/
def Since (step : σ → α → σ) (sets keeps : σ → α → Prop) (s : σ) (as : List α) : Prop :=
  ∃ older a later, as = older ++ a :: later ∧ sets (after step s older) a ∧
    Along step keeps (after step s (older ++ [a])) later

namespace Since

variable {sets keeps : σ → α → Prop} {s : σ} {as : List α} {a : α}

/-- The last step is of the first kind. -/
theorem now (hsets : sets (after step s as) a) : Since step sets keeps s (as ++ [a]) :=
  ⟨as, a, [], rfl, hsets, trivial⟩

/-- The last step is of the second kind. -/
theorem concat (h : Since step sets keeps s as) (hkeeps : keeps (after step s as) a) :
    Since step sets keeps s (as ++ [a]) := by
  obtain ⟨older, b, later, rfl, hsets, halong⟩ := h
  refine ⟨older, b, later ++ [a], by simp, hsets, ?_⟩
  rw [along_append, ← after_append, List.append_assoc, List.singleton_append]
  exact ⟨halong, hkeeps, trivial⟩

/-- What a register holds was set by a step, and kept by every step since. -/
theorem of_register (get : σ → Option ν) (writes : ν → σ → α → Prop) {keeps : σ → α → Prop}
    (hstep : ∀ s a x, get (step s a) = some x → writes x s a ∨ keeps s a ∧ get s = some x)
    (hstart : get s = none) {x : ν} (hfound : get (after step s as) = some x) :
    Since step (writes x) keeps s as := by
  induction as using List.reverseRecOn with
  | nil =>
    rw [after, hstart] at hfound
    cases hfound
  | append_singleton as a ih =>
    rw [after_concat] at hfound
    rcases hstep _ _ _ hfound with hwrites | ⟨hkeeps, hbefore⟩
    · exact now hwrites
    · exact (ih hbefore).concat hkeeps

/-- What a step set, and every step since kept, is in the register. The side condition
is what setting and keeping rely on. -/
theorem register (get : σ → Option ν) {side : σ → α → Prop} {x : ν}
    (hsets : ∀ s a, side s a → sets s a → get (step s a) = some x)
    (hkeeps : ∀ s a, side s a → keeps s a → get s = some x → get (step s a) = some x)
    (h : Since step sets keeps s as) (hside : Along step side s as) :
    get (after step s as) = some x := by
  obtain ⟨older, a, later, rfl, hset, halong⟩ := h
  induction later using List.reverseRecOn with
  | nil =>
    rw [after_concat]
    exact hsets _ _ hside.at hset
  | append_singleton later b ih =>
    obtain ⟨hkept, hlast, -⟩ := (along_append _ later [b]).mp halong
    have hsplit : older ++ a :: (later ++ [b]) = (older ++ a :: later) ++ [b] := by simp
    rw [hsplit] at hside ⊢
    rw [← after_append, List.append_assoc, List.singleton_append] at hlast
    rw [after_concat]
    have hfirst := ((along_append s _ [b]).mp hside).1
    exact hkeeps _ _ hside.at hlast (ih hfirst hkept)

/-- A register holds exactly what a step set and every step since kept, if each step leaves in
it what it sets or what it keeps. -/
theorem register_iff (get : σ → Option ν) {writes : ν → σ → α → Prop}
    (hstep : ∀ s a x, get (step s a) = some x ↔ writes x s a ∨ keeps s a ∧ get s = some x)
    (hstart : get s = none) {x : ν} :
    get (after step s as) = some x ↔ Since step (writes x) keeps s as := by
  constructor
  · exact of_register get writes (fun s a x => (hstep s a x).mp) hstart
  · intro h
    have hside : Along step (fun _ _ => True) s as := along_of_forall (fun _ _ => trivial) s as
    refine h.register get ?_ ?_ hside
    · exact fun s a _ hwrites => (hstep s a x).mpr (.inl hwrites)
    · exact fun s a _ hkeeps hbefore => (hstep s a x).mpr (.inr ⟨hkeeps, hbefore⟩)

end Since

end MongoDam.Lib
