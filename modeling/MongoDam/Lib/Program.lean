/-!
# Programs over a set of operations

A program performs operations one after the other and goes on with their results.
The operations are given a meaning from outside, as a relation between the states
before and after, so that an operation may have several outcomes. `Always` says
what holds after every single operation of a program, which is where a crash can
strike, and what holds when the program is done.
-/

namespace MongoDam.Lib

/-- A program that performs operations `Op` with results `Res` and returns an `α`. -/
inductive Program (Op : Type) (Res : Op → Type) (α : Type) where
  | done (value : α)
  | perform (op : Op) (next : Res op → Program Op Res α)

namespace Program

variable {Op : Type} {Res : Op → Type} {σ α β : Type}

/-- Run a program and go on with its value. -/
def bind (p : Program Op Res α) (f : α → Program Op Res β) : Program Op Res β :=
  match p with
  | done value => f value
  | perform op next => perform op fun result => (next result).bind f

/-- A meaning of the operations: the possible results and states after each. -/
abbrev Meaning (Op : Type) (Res : Op → Type) (σ : Type) :=
  (op : Op) → σ → Res op → σ → Prop

/-- After every operation of the program `I` holds, and when it is done `Q` holds. -/
def Always (exec : Meaning Op Res σ) (I : σ → Prop) (Q : α → σ → Prop) :
    Program Op Res α → σ → Prop
  | done value, s => Q value s
  | perform op next, s =>
    ∀ result s', exec op s result s' → I s' ∧ Always exec I Q (next result) s'

variable {exec : Meaning Op Res σ} {I J : σ → Prop}

theorem always_bind {Q : β → σ → Prop} {p : Program Op Res α} {f : α → Program Op Res β} {s : σ}
    (h : Always exec I (fun value s => Always exec I Q (f value) s) p s) :
    Always exec I Q (p.bind f) s := by
  induction p generalizing s with
  | done value => exact h
  | perform op next ih =>
    intro result s' hexec
    obtain ⟨hinvariant, hrest⟩ := h result s' hexec
    exact ⟨hinvariant, ih result hrest⟩

theorem Always.mono {Q R : α → σ → Prop} (hI : ∀ s, I s → J s)
    (hQ : ∀ value s, Q value s → R value s)
    {p : Program Op Res α} {s : σ} (h : Always exec I Q p s) : Always exec J R p s := by
  induction p generalizing s with
  | done value => exact hQ value s h
  | perform op next ih =>
    intro result s' hexec
    obtain ⟨hinvariant, hrest⟩ := h result s' hexec
    exact ⟨hI s' hinvariant, ih result hrest⟩

/-- Fewer outcomes of the operations keep what always holds. -/
theorem Always.anti {exec' : Meaning Op Res σ}
    (hexec : ∀ op s result s', exec' op s result s' → exec op s result s')
    {Q : α → σ → Prop} {p : Program Op Res α} {s : σ} (h : Always exec I Q p s) :
    Always exec' I Q p s := by
  induction p generalizing s with
  | done value => exact h
  | perform op next ih =>
    intro result s' hop
    obtain ⟨hinvariant, hrest⟩ := h result s' (hexec op s result s' hop)
    exact ⟨hinvariant, ih result hrest⟩

/-- The operations in the states in which they are allowed. -/
def Meaning.when (exec : Meaning Op Res σ) (allowed : Op → σ → Prop) : Meaning Op Res σ :=
  fun op s result s' => exec op s result s' ∧ allowed op s

/-- The program can come from one state to an end with a value in another state. -/
inductive Ends (exec : Meaning Op Res σ) : Program Op Res α → σ → α → σ → Prop
  | done {value : α} {s : σ} : Ends exec (.done value) s value s
  | perform {op : Op} {next : Res op → Program Op Res α} {result : Res op} {value : α}
      {s s' t : σ} : exec op s result s' → Ends exec (next result) s' value t →
      Ends exec (.perform op next) s value t

/-- Run a program with a function for the operations. -/
def run (perform : (op : Op) → σ → Res op × σ) : Program Op Res α → σ → α × σ
  | .done value, s => (value, s)
  | .perform op next, s => run perform (next (perform op s).1) (perform op s).2

/-- What always holds holds at an end. -/
theorem Always.ends {Q : α → σ → Prop} {p : Program Op Res α} {s t : σ} {value : α}
    (h : Always exec I Q p s) (hends : Ends exec p s value t) : Q value t := by
  induction hends with
  | done => exact h
  | perform hexec _ ih => exact ih (h _ _ hexec).2

/-- More outcomes of the operations give more ends. -/
theorem Ends.mono {exec' : Meaning Op Res σ}
    (hexec : ∀ op s result s', exec op s result s' → exec' op s result s')
    {p : Program Op Res α} {s t : σ} {value : α} (h : Ends exec p s value t) :
    Ends exec' p s value t := by
  induction h with
  | done => exact .done
  | perform hop _ ih => exact .perform (hexec _ _ _ _ hop) ih

/-- A run comes to an end. -/
theorem ends_run {perform : (op : Op) → σ → Res op × σ}
    (hperform : ∀ op s, exec op s (perform op s).1 (perform op s).2)
    (p : Program Op Res α) (s : σ) :
    Ends exec p s (run perform p s).1 (run perform p s).2 := by
  induction p generalizing s with
  | done value => exact .done
  | perform op next ih => exact .perform (hperform op s) (ih _ _)

/-- Every operation that the run performs passes a test. -/
def runPasses (perform : (op : Op) → σ → Res op × σ) (test : Op → σ → Bool) :
    Program Op Res α → σ → Bool
  | .done _, _ => true
  | .perform op next, s =>
    test op s && runPasses perform test (next (perform op s).1) (perform op s).2

/-- A run whose operations pass the test comes to an end where these are allowed. -/
theorem ends_run_when {perform : (op : Op) → σ → Res op × σ} {test : Op → σ → Bool}
    {allowed : Op → σ → Prop}
    (hperform : ∀ op s, exec op s (perform op s).1 (perform op s).2)
    (htest : ∀ op s, test op s = true → allowed op s) {p : Program Op Res α} {s : σ}
    (hpasses : runPasses perform test p s = true) :
    Ends (Meaning.when exec allowed) p s (run perform p s).1 (run perform p s).2 := by
  induction p generalizing s with
  | done value => exact .done
  | perform op next ih =>
    obtain ⟨hop, hrest⟩ := Bool.and_eq_true_iff.mp hpasses
    exact .perform ⟨hperform op s, htest op s hop⟩ (ih _ hrest)

/-- Every operation that the program may perform satisfies `allowed`. -/
def Performs (allowed : Op → Prop) : Program Op Res α → Prop
  | done _ => True
  | perform op next => allowed op ∧ ∀ result, Performs allowed (next result)

theorem Performs.bind {allowed : Op → Prop} {p : Program Op Res α} {f : α → Program Op Res β}
    (h : Performs allowed p) (hf : ∀ value, Performs allowed (f value)) :
    Performs allowed (p.bind f) := by
  induction p with
  | done value => exact hf value
  | perform op next ih => exact ⟨h.1, fun result => ih result (h.2 result)⟩

/-- What the allowed operations keep holds at an end. -/
theorem Performs.ends {allowed : Op → Prop} {p : Program Op Res α} {s t : σ} {value : α}
    (hkeeps : ∀ op s result s', allowed op → exec op s result s' → I s → I s')
    (h : Performs allowed p) (hends : Ends exec p s value t) (hs : I s) : I t := by
  induction hends with
  | done => exact hs
  | perform hop _ ih => exact ih (h.2 _) (hkeeps _ _ _ _ h.1 hop hs)

/-! ### Programs inside larger ones -/

/-- A part of a state that can be read and replaced. -/
structure Part (σ τ : Type) where
  get : τ → σ
  set : τ → σ → τ
  get_set : ∀ t s, get (set t s) = s
  set_set : ∀ t s s', set (set t s) s' = set t s'
  set_get : ∀ t, set t (get t) = t

variable {Op' : Type} {Res' : Op' → Type} {τ : Type}

/-- The program with each operation as one of a larger set. -/
def hoist (embed : Op → Op') (back : (op : Op) → Res' (embed op) → Res op) :
    Program Op Res α → Program Op' Res' α
  | .done value => .done value
  | .perform op next => .perform (embed op) fun result => (next (back op result)).hoist embed back

/-- What always holds of the part holds when the embedded operations change nothing else. -/
theorem always_hoist {exec' : Meaning Op' Res' τ} {embed : Op → Op'}
    {back : (op : Op) → Res' (embed op) → Res op} (part : Part σ τ)
    (hexec : ∀ op t result t', exec' (embed op) t result t' →
      exec op (part.get t) (back op result) (part.get t') ∧ t' = part.set t (part.get t'))
    {J : τ → Prop} {Q : α → τ → Prop} {p : Program Op Res α} {t : τ}
    (h : Always exec (fun s => J (part.set t s)) (fun value s => Q value (part.set t s)) p
      (part.get t)) :
    Always exec' J Q (p.hoist embed back) t := by
  induction p generalizing t with
  | done value =>
    rw [← part.set_get t]
    exact h
  | perform op next ih =>
    intro result t' hop
    obtain ⟨hpart, hrest⟩ := hexec op t result t' hop
    obtain ⟨hJ, hnext⟩ := h _ _ hpart
    rw [← hrest] at hJ
    refine ⟨hJ, ih _ ?_⟩
    rw [hrest] at hnext ⊢
    simpa only [part.set_set, part.get_set] using hnext

end Program

end MongoDam.Lib
