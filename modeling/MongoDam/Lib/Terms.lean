import MongoDam.Lib.Program
import Mathlib.Order.Basic

/-!
# Programs among others

A program that shares its world with others cannot rely on the state it left. What it
can rely on is knowledge that only grows. `Terms` say what must be known before an
operation and what is known after it; a program that keeps the terms can be stopped
between two operations and resumed when more is known. A pool is a number of such
programs, some with an operation under way. `expand` replaces the operations of a
program by programs.
-/

namespace MongoDam.Lib

namespace Program

variable {Op Op' : Type} {Res : Op → Type} {Res' : Op' → Type} {α β γ : Type}

theorem bind_assoc (p : Program Op Res α) (f : α → Program Op Res β)
    (g : β → Program Op Res γ) : (p.bind f).bind g = p.bind fun value => (f value).bind g := by
  induction p with
  | done value => rfl
  | perform op next ih => exact congrArg (perform op) (funext ih)

/-! ### Operations as programs -/

/-- The program with a program in the place of each operation. -/
def expand (impl : (op : Op) → Program Op' Res' (Res op)) :
    Program Op Res α → Program Op' Res' α
  | done value => done value
  | perform op next => (impl op).bind fun result => (next result).expand impl

variable {impl : (op : Op) → Program Op' Res' (Res op)}

theorem expand_bind (p : Program Op Res α) (f : α → Program Op Res β) :
    (p.bind f).expand impl = (p.expand impl).bind fun value => (f value).expand impl := by
  induction p with
  | done value => rfl
  | perform op next ih =>
    rw [expand, bind_assoc]
    exact congrArg (impl op).bind (funext ih)

theorem hoist_bind {embed : Op → Op'} {back : (op : Op) → Res' (embed op) → Res op}
    (p : Program Op Res α) (f : α → Program Op Res β) :
    (p.bind f).hoist embed back =
      (p.hoist embed back).bind fun value => (f value).hoist embed back := by
  induction p with
  | done value => rfl
  | perform op next ih => exact congrArg (perform (embed op)) (funext fun result => ih _)

end Program

/-! ### Terms -/

/-- What has to be known before an operation, and what is known after it has returned. -/
structure Terms (Op : Type) (Res : Op → Type) (κ : Type) [Preorder κ] where
  requires : Op → κ → Prop
  grants : (op : Op) → Res op → κ → Prop
  requires_mono : ∀ {op known known'}, known ≤ known' → requires op known → requires op known'

namespace Program

variable {Op : Type} {Res : Op → Type} {κ α β : Type} [Preorder κ] {terms : Terms Op Res κ}

/-- The program performs its operations on the terms, while more and more is known, and ends
with `Q`. -/
def Keeps (terms : Terms Op Res κ) (Q : α → κ → Prop) : Program Op Res α → κ → Prop
  | done value, known => Q value known
  | perform op next, known => terms.requires op known ∧
    ∀ result known', known ≤ known' → terms.grants op result known' →
      Keeps terms Q (next result) known'

theorem keeps_bind {Q : β → κ → Prop} {p : Program Op Res α} {f : α → Program Op Res β}
    {known : κ} (h : Keeps terms (fun value known => Keeps terms Q (f value) known) p known) :
    Keeps terms Q (p.bind f) known := by
  induction p generalizing known with
  | done value => exact h
  | perform op next ih =>
    exact ⟨h.1, fun result known' hle hgrants => ih result (h.2 result known' hle hgrants)⟩

theorem Keeps.mono {Q R : α → κ → Prop} (hQ : ∀ value known, Q value known → R value known)
    {p : Program Op Res α} {known : κ} (h : Keeps terms Q p known) : Keeps terms R p known := by
  induction p generalizing known with
  | done value => exact hQ value known h
  | perform op next ih =>
    exact ⟨h.1, fun result known' hle hgrants => ih result (h.2 result known' hle hgrants)⟩

/-- A program that waits while others find out more keeps the terms. -/
theorem Keeps.grow {Q : α → κ → Prop}
    (hQ : ∀ value known known', known ≤ known' → Q value known → Q value known')
    {p : Program Op Res α} {known known' : κ} (hle : known ≤ known')
    (h : Keeps terms Q p known) : Keeps terms Q p known' := by
  cases p with
  | done value => exact hQ value known known' hle h
  | perform op next =>
    exact ⟨terms.requires_mono hle h.1,
      fun result known'' hle' hgrants => h.2 result known'' (hle.trans hle') hgrants⟩

end Program

/-! ### Pools -/

/-- Programs between two operations, and what waits for the results of operations. -/
structure Pool (Op : Type) (Res : Op → Type) (ρ : Type) where
  ready : List (Program Op Res ρ) := []
  pending : List ((op : Op) × (Res op → Program Op Res ρ)) := []

namespace Pool

variable {Op : Type} {Res : Op → Type} {κ ρ : Type} [Preorder κ] {terms : Terms Op Res κ}
  {Q : ρ → κ → Prop} {pool pool' : Pool Op Res ρ} {known known' : κ}

/-- One more program. -/
def add (pool : Pool Op Res ρ) (program : Program Op Res ρ) : Pool Op Res ρ :=
  { pool with ready := program :: pool.ready }

/-- An operation begins, and one of the programs waits for its result. -/
def Begins (op : Op) (next : Res op → Program Op Res ρ) (pool pool' : Pool Op Res ρ) : Prop :=
  pool.ready.Perm (.perform op next :: pool'.ready) ∧ pool'.pending = ⟨op, next⟩ :: pool.pending

/-- An operation has come to its end, and what waited for it can go on. -/
def Returns (op : Op) (next : Res op → Program Op Res ρ) (pool pool' : Pool Op Res ρ) : Prop :=
  pool.pending.Perm (⟨op, next⟩ :: pool'.pending) ∧ pool'.ready = pool.ready

/-- Whatever becomes known, the programs of the pool perform their operations on the terms and
end with `Q`. -/
structure Keeps (terms : Terms Op Res κ) (Q : ρ → κ → Prop) (pool : Pool Op Res ρ) (known : κ) :
    Prop where
  ready : ∀ program ∈ pool.ready, program.Keeps terms Q known
  pending : ∀ entry ∈ pool.pending, ∀ result known', known ≤ known' →
    terms.grants entry.1 result known' → (entry.2 result).Keeps terms Q known'

theorem keeps_empty : Keeps terms Q {} known where
  ready _ hmem := absurd hmem List.not_mem_nil
  pending _ hmem := absurd hmem List.not_mem_nil

theorem Keeps.grow (hQ : ∀ value known known', known ≤ known' → Q value known → Q value known')
    (hle : known ≤ known') (h : pool.Keeps terms Q known) : pool.Keeps terms Q known' where
  ready program hmem := (h.ready program hmem).grow hQ hle
  pending entry hmem result known'' hle' := h.pending entry hmem result known'' (hle.trans hle')

theorem Keeps.add {program : Program Op Res ρ} (h : pool.Keeps terms Q known)
    (hprogram : program.Keeps terms Q known) : (pool.add program).Keeps terms Q known where
  ready other hmem := by
    rcases List.mem_cons.mp hmem with rfl | hmem
    · exact hprogram
    · exact h.ready other hmem
  pending := h.pending

/-- What an operation requires is known when it begins. -/
theorem Keeps.requires {op : Op} {next : Res op → Program Op Res ρ}
    (h : pool.Keeps terms Q known) (hbegins : Begins op next pool pool') :
    terms.requires op known :=
  (h.ready _ (hbegins.1.mem_iff.mpr (List.mem_cons_self ..))).1

theorem Keeps.begins {op : Op} {next : Res op → Program Op Res ρ}
    (h : pool.Keeps terms Q known) (hbegins : Begins op next pool pool') :
    pool'.Keeps terms Q known where
  ready program hmem := h.ready program (hbegins.1.mem_iff.mpr (List.mem_cons_of_mem _ hmem))
  pending entry hmem := by
    rw [hbegins.2] at hmem
    rcases List.mem_cons.mp hmem with rfl | hmem
    · exact (h.ready _ (hbegins.1.mem_iff.mpr (List.mem_cons_self ..))).2
    · exact h.pending entry hmem

theorem Keeps.returns {op : Op} {next : Res op → Program Op Res ρ}
    (h : pool.Keeps terms Q known) (hreturns : Returns op next pool pool') :
    pool'.Keeps terms Q known where
  ready := hreturns.2 ▸ h.ready
  pending entry hmem := h.pending entry (hreturns.1.mem_iff.mpr (List.mem_cons_of_mem _ hmem))

/-- What waited for an operation goes on with what it grants. -/
theorem Keeps.next {op : Op} {next : Res op → Program Op Res ρ} {result : Res op}
    (h : pool.Keeps terms Q known) (hreturns : Returns op next pool pool')
    (hle : known ≤ known') (hgrants : terms.grants op result known') :
    (next result).Keeps terms Q known' :=
  h.pending ⟨op, next⟩ (hreturns.1.mem_iff.mpr (List.mem_cons_self ..)) result known' hle hgrants

end Pool

end MongoDam.Lib
