import MongoDam.Lib.Bytes

/-!
# Computations that may panic

A computation on machine-sized indices returns a value or an error, panics, or does
not finish within the rounds its loops are given. Arithmetic panics where it leaves
the 64-bit range, and an index or a slice where it leaves its sequence. A loop whose
rounds follow a function of its state returns what the function returns.
-/

namespace MongoDam.Lib

/-- What comes of a computation. -/
inductive Outcome (ε α : Type) where
  /-- It returns a value or an error. -/
  | returned (result : Except ε α)
  | panicked
  /-- Its loops are not over after the rounds they are given. -/
  | unfinished

namespace Outcome

variable {ε ε' α β σ : Type}

/-- Go on with a value; an error, a panic and an unfinished loop end the computation. -/
protected def bind : Outcome ε α → (α → Outcome ε β) → Outcome ε β
  | returned (.ok a), f => f a
  | returned (.error e), _ => returned (.error e)
  | panicked, _ => panicked
  | unfinished, _ => unfinished

instance : Monad (Outcome ε) where
  pure a := returned (.ok a)
  bind := Outcome.bind

/-- Return an error. -/
def fail (e : ε) : Outcome ε α := returned (.error e)

/-- `Option::ok_or`, followed by `?`. -/
def okOr (e : ε) : Option α → Outcome ε α
  | some a => pure a
  | none => fail e

/-- The result of a computation, as a value. -/
def attempt : Outcome ε α → Outcome ε' (Except ε α)
  | returned result => pure result
  | panicked => panicked
  | unfinished => unfinished

/-- The value of a computation, if it returns one: `Result::ok`. -/
def ok (x : Outcome ε α) : Outcome ε' (Option α) := do
  return (← attempt x).toOption

@[simp] theorem pure_eq (a : α) : (pure a : Outcome ε α) = returned (.ok a) := rfl

@[simp] theorem returned_ok_bind (a : α) (f : α → Outcome ε β) :
    (returned (.ok a) >>= f) = f a := rfl

@[simp] theorem attempt_returned (result : Except ε α) :
    (attempt (returned result) : Outcome ε' (Except ε α)) = returned (.ok result) := rfl

@[simp] theorem ok_returned (result : Except ε α) :
    (ok (returned result) : Outcome ε' (Option α)) = returned (.ok result.toOption) := rfl

@[simp] theorem okOr_some (e : ε) (a : α) : okOr e (some a) = returned (.ok a) := rfl

/-- Go on with the value of a first part that returns one. -/
theorem bind_ok {x : Outcome ε α} {f : α → Outcome ε β} {a : α} {y : Outcome ε β}
    (hx : x = returned (.ok a)) (hf : f a = y) : (x >>= f) = y := by
  rw [hx, ← hf]
  rfl

/-- A computation returns what its first part and then its second part return. -/
theorem bind_returned {x : Outcome ε α} {f : α → Outcome ε β} {result : Except ε α}
    {g : α → Except ε β} (hx : x = returned result)
    (hf : ∀ a, result = .ok a → f a = returned (g a)) :
    (x >>= f) = returned (result >>= g) := by
  subst hx
  cases result with
  | error e => rfl
  | ok a => exact hf a rfl

/-- The same for an expected result that is not written as a composition. -/
theorem bind_eq_returned {x : Outcome ε α} {f : α → Outcome ε β} {result : Except ε α}
    {expected : Except ε β} (hx : x = returned result)
    (herror : ∀ e, result = .error e → expected = .error e)
    (hok : ∀ a, result = .ok a → f a = returned expected) : (x >>= f) = returned expected := by
  subst hx
  cases result with
  | error e => exact congrArg returned (herror e rfl).symm
  | ok a => exact hok a rfl

/-! ### Arithmetic -/

/-- `a + b` on `usize`. -/
def add (a b : ℕ) : Outcome ε ℕ := if a + b < 2 ^ 64 then pure (a + b) else panicked

/-- `a - b` on `usize`. -/
def sub (a b : ℕ) : Outcome ε ℕ := if b ≤ a then pure (a - b) else panicked

/-- `a * b` on `usize`. -/
def mul (a b : ℕ) : Outcome ε ℕ := if a * b < 2 ^ 64 then pure (a * b) else panicked

/-- `usize::checked_add`. -/
def checkedAdd (a b : ℕ) : Option ℕ := if a + b < 2 ^ 64 then some (a + b) else none

/-- A signed integer `as usize`. -/
def asUsize (value : ℤ) : ℕ := (value % 2 ^ 64).toNat

theorem add_eq {a b : ℕ} (h : a + b < 2 ^ 64) : (add a b : Outcome ε ℕ) = returned (.ok (a + b)) :=
  if_pos h

theorem sub_eq {a b : ℕ} (h : b ≤ a) : (sub a b : Outcome ε ℕ) = returned (.ok (a - b)) :=
  if_pos h

theorem mul_eq {a b : ℕ} (h : a * b < 2 ^ 64) : (mul a b : Outcome ε ℕ) = returned (.ok (a * b)) :=
  if_pos h

theorem checkedAdd_eq {a b : ℕ} (h : a + b < 2 ^ 64) : checkedAdd a b = some (a + b) := if_pos h

theorem asUsize_of_nonneg {value : ℤ} (h : 0 ≤ value) (hlt : value < 2 ^ 64) :
    asUsize value = value.toNat := by
  unfold asUsize
  omega

/-! ### Indices and slices -/

/-- `items[i]`. -/
def index (items : List α) (i : ℕ) : Outcome ε α :=
  match items[i]? with
  | some item => pure item
  | none => panicked

/-- `&bytes[start..stop]`. -/
def slice (bytes : Bytes) (start stop : ℕ) : Outcome ε Bytes :=
  match slice? bytes start stop with
  | some part => pure part
  | none => panicked

/-- `target[start..stop].copy_from_slice(source)`. -/
def copyFromSlice (target : Bytes) (start stop : ℕ) (source : Bytes) : Outcome ε Bytes :=
  if start ≤ stop ∧ stop ≤ target.length ∧ source.length = stop - start then
    pure (target.take start ++ source ++ target.drop stop)
  else panicked

/-- `&text[start..]`; the offset counts bytes, and panics inside a character. -/
def strFrom : List Char → ℕ → Outcome ε (List Char)
  | text, 0 => pure text
  | [], _ + 1 => panicked
  | c :: rest, start + 1 =>
    if c.utf8Size ≤ start + 1 then strFrom rest (start + 1 - c.utf8Size) else panicked

/-- `&text[..stop]`. -/
def strTo : List Char → ℕ → Outcome ε (List Char)
  | _, 0 => pure []
  | [], _ + 1 => panicked
  | c :: rest, stop + 1 =>
    if c.utf8Size ≤ stop + 1 then do return c :: (← strTo rest (stop + 1 - c.utf8Size))
    else panicked

theorem index_eq {items : List α} {i : ℕ} (h : i < items.length) :
    (index items i : Outcome ε α) = returned (.ok items[i]) := by
  rw [index, List.getElem?_eq_getElem h]
  rfl

theorem slice_eq {bytes : Bytes} {start stop : ℕ} (h : start ≤ stop) (hstop : stop ≤ bytes.length) :
    (slice bytes start stop : Outcome ε Bytes) =
      returned (.ok ((bytes.drop start).take (stop - start))) := by
  rw [slice, slice?_eq_some h hstop]
  rfl

/-- A slice up to the end drops the bytes before it. -/
theorem slice_length_eq {bytes : Bytes} {start : ℕ} (h : start ≤ bytes.length) :
    (slice bytes start bytes.length : Outcome ε Bytes) = returned (.ok (bytes.drop start)) := by
  rw [slice_eq h (Nat.le_refl _), ← List.length_drop, List.take_length]

/-- A slice from the beginning takes the bytes before its end. -/
theorem slice_zero_eq {bytes : Bytes} {stop : ℕ} (h : stop ≤ bytes.length) :
    (slice bytes 0 stop : Outcome ε Bytes) = returned (.ok (bytes.take stop)) := by
  rw [slice_eq (Nat.zero_le _) h, List.drop_zero, Nat.sub_zero]

theorem copyFromSlice_eq {target source : Bytes} {start stop : ℕ} (h : start ≤ stop)
    (hstop : stop ≤ target.length) (hlength : source.length = stop - start) :
    (copyFromSlice target start stop source : Outcome ε Bytes) =
      returned (.ok (target.take start ++ source ++ target.drop stop)) :=
  if_pos ⟨h, hstop, hlength⟩

/-! ### Loops -/

/-- Take rounds until one leaves the loop with a value. -/
def loop (round : σ → Outcome ε (σ ⊕ α)) : ℕ → σ → Outcome ε α
  | 0, _ => unfinished
  | rounds + 1, state => do
    match ← round state with
    | .inl next => loop round rounds next
    | .inr value => return value

/-- A round follows a function of the state: it ends with the expected result, or goes on to a
state that is allowed and for which the function has that result. -/
def Follows (f : σ → Except ε α) (allowed : σ → Prop) (expected : Except ε α) :
    Outcome ε (σ ⊕ α) → Prop
  | returned (.ok (.inl next)) => allowed next ∧ expected = f next
  | returned (.ok (.inr value)) => expected = .ok value
  | returned (.error e) => expected = .error e
  | panicked => False
  | unfinished => False

theorem Follows.bind {f : σ → Except ε α} {allowed : σ → Prop} {x : Outcome ε β}
    {result : Except ε β} {g : β → Except ε α} {k : β → Outcome ε (σ ⊕ α)}
    (hx : x = returned result) (hk : ∀ b, result = .ok b → Follows f allowed (g b) (k b)) :
    Follows f allowed (result >>= g) (x >>= k) := by
  subst hx
  cases result with
  | error e => rfl
  | ok b => exact hk b rfl

/-- A round that goes on behind an offset inside what it reads. -/
theorem Follows.advance {f : ℕ × σ → Except ε α} {size stop offset next : ℕ} (rest : σ)
    (hlt : offset < next) (hinside : offset < stop) (hle : next ≤ size) :
    Follows f (fun state => state.1 ≤ size ∧ stop - state.1 < stop - offset) (f (next, rest))
      (returned (.ok (.inl (next, rest)))) := by
  refine ⟨⟨hle, ?_⟩, rfl⟩
  dsimp only
  omega

/-- A loop whose rounds keep an invariant, make a measure smaller and follow a function of the
state returns what the function returns, after at most as many rounds as the measure says. -/
theorem loop_returned {f : σ → Except ε α} {round : σ → Outcome ε (σ ⊕ α)} {invariant : σ → Prop}
    {measure : σ → ℕ}
    (hround : ∀ state, invariant state →
      Follows f (fun next => invariant next ∧ measure next < measure state) (f state)
        (round state)) :
    ∀ {rounds : ℕ} {state : σ}, invariant state → measure state < rounds →
      loop round rounds state = returned (f state) := by
  intro rounds
  induction rounds with
  | zero => exact fun _ h => absurd h (Nat.not_lt_zero _)
  | succ rounds ih =>
    intro state hstate hrounds
    have hfollows := hround state hstate
    rw [loop]
    cases hnext : round state with
    | returned result =>
      rw [hnext] at hfollows
      match result, hfollows with
      | .error e, hexpected => rw [hexpected]; rfl
      | .ok (.inr value), hexpected => rw [hexpected]; rfl
      | .ok (.inl next), ⟨⟨hinvariant, hlt⟩, hexpected⟩ =>
        rw [hexpected]
        exact ih hinvariant (by omega)
    | panicked => rw [hnext] at hfollows; exact hfollows.elim
    | unfinished => rw [hnext] at hfollows; exact hfollows.elim

end Outcome

end MongoDam.Lib
