import Mathlib.Data.List.Induction

/-!
# Runs of a deterministic machine

A machine takes labelled steps and puts out records at each of them. A predicate
can be asked of every step of a run, at the state in which the step is taken, and
a relation between the state and the records put out so far that every such step
preserves holds at the end of the run.
-/

namespace MongoDam.Lib

universe u v w

variable {σ : Type u} {α : Type v} {ρ : Type w}

/-- The state after a run. -/
def after (step : σ → α → σ) : σ → List α → σ
  | s, [] => s
  | s, a :: as => after step (step s a) as

/-- Everything put out along a run, in order. -/
def outputs (step : σ → α → σ) (out : σ → α → List ρ) : σ → List α → List ρ
  | _, [] => []
  | s, a :: as => out s a ++ outputs step out (step s a) as

/-- The predicate holds of every step of a run. -/
def Along (step : σ → α → σ) (P : σ → α → Prop) : σ → List α → Prop
  | _, [] => True
  | s, a :: as => P s a ∧ Along step P (step s a) as

instance (step : σ → α → σ) (P : σ → α → Prop) [∀ s a, Decidable (P s a)] :
    ∀ s as, Decidable (Along step P s as)
  | _, [] => isTrue trivial
  | s, a :: as =>
    have := instDecidableAlong step P (step s a) as
    inferInstanceAs (Decidable (P s a ∧ Along step P (step s a) as))

/-- A relation between the state and the records so far that every step preserves
holds at the end of a run. -/
theorem outputs_invariant {step : σ → α → σ} {out : σ → α → List ρ} {P : σ → α → Prop}
    {I : σ → List ρ → Prop}
    (hstep : ∀ s a past, P s a → I s past → I (step s a) (past ++ out s a)) :
    ∀ {s : σ} {as : List α} {past : List ρ}, Along step P s as → I s past →
      I (after step s as) (past ++ outputs step out s as)
  | s, [], past, _, hstart => by simpa [outputs, after] using hstart
  | s, a :: as, past, halong, hstart => by
    obtain ⟨hfirst, hrest⟩ := halong
    have hnext := outputs_invariant hstep hrest (hstep s a past hfirst hstart)
    simpa [outputs, after, List.append_assoc] using hnext

/-- A predicate that holds of every step holds along every run. -/
theorem along_of_forall {step : σ → α → σ} {P : σ → α → Prop} (h : ∀ s a, P s a) :
    ∀ (s : σ) (as : List α), Along step P s as
  | _, [] => trivial
  | s, a :: as => ⟨h s a, along_of_forall h (step s a) as⟩

/-- Two predicates that hold along a run hold together. -/
theorem Along.and {step : σ → α → σ} {P Q : σ → α → Prop} :
    ∀ {s : σ} {as : List α}, Along step P s as → Along step Q s as →
      Along step (fun s a => P s a ∧ Q s a) s as
  | _, [], _, _ => trivial
  | _, _ :: _, hP, hQ => ⟨⟨hP.1, hQ.1⟩, hP.2.and hQ.2⟩

/-- What holds at the places of a list, place by place. -/
theorem forall_split_nil {P : List α → α → List α → Prop} :
    ∀ before a since, [] = before ++ a :: since → P before a since := by
  intro before a since h
  exact absurd h.symm (List.append_ne_nil_of_right_ne_nil _ nofun)

theorem forall_split_cons {P : List α → α → List α → Prop} {a : α} {as : List α}
    (hfirst : P [] a as)
    (hrest : ∀ before b since, as = before ++ b :: since → P (a :: before) b since) :
    ∀ before b since, a :: as = before ++ b :: since → P before b since := by
  intro before b since h
  cases before with
  | nil =>
    obtain ⟨rfl, rfl⟩ := List.cons.inj h
    exact hfirst
  | cons first before =>
    obtain ⟨rfl, rfl⟩ := List.cons.inj h
    exact hrest before b since rfl

/-- Something that holds at the end of a run and not at its start began at one of its
steps and has held since. -/
theorem exists_last_switch {P : List α → Prop} (hstart : ¬ P []) {as : List α} (h : P as) :
    ∃ before a since, as = before ++ a :: since ∧ ¬ P before ∧
      ∀ first rest, since = first ++ rest → P (before ++ a :: first) := by
  classical
  induction as using List.reverseRecOn with
  | nil => exact absurd h hstart
  | append_singleton as last ih =>
    by_cases hbefore : P as
    · obtain ⟨before, a, since, rfl, hswitch, hsince⟩ := ih hbefore
      refine ⟨before, a, since ++ [last], by simp, hswitch, fun first rest hsplit => ?_⟩
      rcases List.eq_nil_or_concat rest with rfl | ⟨init, final, rfl⟩
      · rw [List.append_nil] at hsplit
        rw [← hsplit]
        simpa using h
      · rw [List.concat_eq_append, ← List.append_assoc] at hsplit
        exact hsince first init (List.append_inj_left' hsplit rfl)
    · refine ⟨as, last, [], rfl, hbefore, fun first rest hsplit => ?_⟩
      obtain ⟨rfl, -⟩ := List.append_eq_nil_iff.mp hsplit.symm
      exact h

end MongoDam.Lib
