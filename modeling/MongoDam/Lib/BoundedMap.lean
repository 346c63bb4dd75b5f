import MongoDam.Lib.Table

/-!
# Hash maps with a fixed capacity

A map that holds at most a fixed number of entries. An update of a key that is
present always succeeds; an update of a new key is refused when the map is full,
and then the map is as it was. What a caller can rely on is therefore the frame
law, and that after an update the key is either absent or holds the new value.
-/

namespace MongoDam.Lib

universe u v

/-- A table with at most `capacity` entries. -/
structure BoundedMap (capacity : ℕ) (κ : Type u) (ν : Type v) where
  table : Table κ ν
  /-- The table never outgrows its capacity. -/
  size_le : table.size ≤ capacity

namespace BoundedMap

variable {capacity : ℕ} {κ : Type u} {ν : Type v}

/-- The map without entries. -/
def empty : BoundedMap capacity κ ν := ⟨Table.empty, Nat.zero_le _⟩

/-- Whether a new key still fits. -/
def hasRoom (m : BoundedMap capacity κ ν) : Bool := decide (m.table.size < capacity)

variable [DecidableEq κ]

private theorem length_insertEntry_le (k : κ) (x : ν) (es : List (κ × ν)) :
    (Table.insertEntry k x es).length ≤ es.length + 1 := by
  induction es with
  | nil => simp [Table.insertEntry]
  | cons e es ih =>
    by_cases he : e.1 = k
    · simp [Table.insertEntry, he]
    · simpa [Table.insertEntry, he] using ih

private theorem length_insertEntry_of_present {k : κ} {y : ν} (x : ν) {es : List (κ × ν)}
    (hpresent : Table.lookupEntry k es = some y) :
    (Table.insertEntry k x es).length = es.length := by
  induction es with
  | nil => cases hpresent
  | cons e es ih =>
    by_cases he : e.1 = k
    · simp [Table.insertEntry, he]
    · rw [Table.lookupEntry, if_neg he] at hpresent
      simp [Table.insertEntry, he, ih hpresent]

/-- The value at a key, if there is one. -/
def lookup (m : BoundedMap capacity κ ν) (k : κ) : Option ν := m.table.get? k

/-- Whether an update of the key is accepted. -/
def accepts (m : BoundedMap capacity κ ν) (k : κ) : Bool := (m.lookup k).isSome || m.hasRoom

/-- Store a value, unless the key is new and the map is full. -/
def update (m : BoundedMap capacity κ ν) (k : κ) (x : ν) : BoundedMap capacity κ ν :=
  if haccepts : m.accepts k = true then
    ⟨m.table.insert k x, by
      cases hfound : m.table.get? k with
      | some y =>
        exact Nat.le_trans (Nat.le_of_eq (length_insertEntry_of_present x hfound)) m.size_le
      | none =>
        have hroom : m.table.size < capacity := by
          simpa [accepts, lookup, hfound, hasRoom] using haccepts
        exact Nat.le_trans (length_insertEntry_le k x m.table.entries) hroom⟩
  else m

/-- Change the value at a key through a pointer to it. -/
def modify (m : BoundedMap capacity κ ν) (k : κ) (f : ν → ν) : BoundedMap capacity κ ν :=
  match m.lookup k with
  | some x => m.update k (f x)
  | none => m

/-- Remove a key. -/
def delete (m : BoundedMap capacity κ ν) (k : κ) : BoundedMap capacity κ ν :=
  ⟨m.table.erase k, Nat.le_trans (Table.size_filter_le _ _) m.size_le⟩

@[simp] theorem lookup_empty (k : κ) : (empty : BoundedMap capacity κ ν).lookup k = none := rfl

theorem accepts_of_lookup {m : BoundedMap capacity κ ν} {k : κ} {x : ν}
    (hfound : m.lookup k = some x) : m.accepts k = true := by
  simp [accepts, hfound]

/-- An accepted update stores the value. -/
theorem lookup_update_self {m : BoundedMap capacity κ ν} {k : κ} (haccepts : m.accepts k = true)
    (x : ν) : (m.update k x).lookup k = some x := by
  rw [update, dif_pos haccepts]
  exact Table.get?_insert_self m.table k x

/-- An update leaves the other keys alone. -/
theorem lookup_update_of_ne (m : BoundedMap capacity κ ν) {k j : κ} (x : ν) (hne : j ≠ k) :
    (m.update k x).lookup j = m.lookup j := by
  by_cases haccepts : m.accepts k = true
  · rw [update, dif_pos haccepts]
    exact Table.get?_insert_of_ne m.table x hne
  · rw [update, dif_neg haccepts]

/-- What is found at an updated key is the new value. -/
theorem eq_of_lookup_update {m : BoundedMap capacity κ ν} {k : κ} {x y : ν}
    (hfound : (m.update k x).lookup k = some y) : y = x := by
  by_cases haccepts : m.accepts k = true
  · rw [lookup_update_self haccepts] at hfound
    exact (Option.some.inj hfound).symm
  · rw [update, dif_neg haccepts] at hfound
    exact absurd (accepts_of_lookup hfound) haccepts

@[simp] theorem lookup_delete_self (m : BoundedMap capacity κ ν) (k : κ) :
    (m.delete k).lookup k = none :=
  Table.get?_erase_self m.table k

theorem lookup_delete_of_ne (m : BoundedMap capacity κ ν) {k j : κ} (hne : j ≠ k) :
    (m.delete k).lookup j = m.lookup j :=
  Table.get?_erase_of_ne m.table hne

/-- A write through a pointer changes what it points to. -/
theorem lookup_modify_self (m : BoundedMap capacity κ ν) (k : κ) (f : ν → ν) :
    (m.modify k f).lookup k = (m.lookup k).map f := by
  cases hfound : m.lookup k with
  | none => simp [modify, hfound]
  | some x =>
    simp only [modify, hfound, Option.map_some]
    exact lookup_update_self (accepts_of_lookup hfound) (f x)

/-- A write through a pointer leaves the other keys alone. -/
theorem lookup_modify_of_ne (m : BoundedMap capacity κ ν) {k j : κ} (f : ν → ν) (hne : j ≠ k) :
    (m.modify k f).lookup j = m.lookup j := by
  cases hfound : m.lookup k with
  | none => simp [modify, hfound]
  | some x => simp only [modify, hfound, lookup_update_of_ne m (f x) hne]

/-- An update is accepted when the key is there, or the map has room for one more. -/
theorem accepts_iff {m : BoundedMap capacity κ ν} {k : κ} :
    m.accepts k = true ↔ (m.lookup k).isSome = true ∨ m.table.size < capacity := by
  rw [accepts, Bool.or_eq_true, hasRoom, decide_eq_true_iff]

/-- What is found after an update was just stored, if the update was accepted, or was there at
another key. -/
theorem lookup_update_eq_some_iff {m : BoundedMap capacity κ ν} {k j : κ} {x y : ν} :
    (m.update k x).lookup j = some y ↔
      (j = k ∧ m.accepts k = true ∧ y = x) ∨ j ≠ k ∧ m.lookup j = some y := by
  by_cases hsame : j = k
  · subst hsame
    constructor
    · intro hfound
      by_cases haccepts : m.accepts j = true
      · exact .inl ⟨rfl, haccepts, eq_of_lookup_update hfound⟩
      · rw [update, dif_neg haccepts] at hfound
        exact absurd (accepts_of_lookup hfound) haccepts
    · rintro (⟨_, haccepts, rfl⟩ | ⟨hne, _⟩)
      · exact lookup_update_self haccepts _
      · exact absurd rfl hne
  · simp [lookup_update_of_ne m x hsame, hsame]

/-- What is found after an update was just stored, or was there at another key. -/
theorem of_lookup_update {m : BoundedMap capacity κ ν} {k j : κ} {x y : ν}
    (hfound : (m.update k x).lookup j = some y) :
    j = k ∧ y = x ∨ j ≠ k ∧ m.lookup j = some y :=
  (lookup_update_eq_some_iff.mp hfound).imp (fun h => ⟨h.1, h.2.2⟩) id

/-- What is found after a removal was there at another key. -/
theorem lookup_delete_eq_some_iff {m : BoundedMap capacity κ ν} {k j : κ} {y : ν} :
    (m.delete k).lookup j = some y ↔ j ≠ k ∧ m.lookup j = some y := by
  by_cases hsame : j = k
  · subst hsame
    simp
  · simp [lookup_delete_of_ne m hsame, hsame]

theorem of_lookup_delete {m : BoundedMap capacity κ ν} {k j : κ} {y : ν}
    (hfound : (m.delete k).lookup j = some y) : j ≠ k ∧ m.lookup j = some y :=
  lookup_delete_eq_some_iff.mp hfound

/-- What is found after a write through a pointer was there, changed at the key. -/
theorem of_lookup_modify {m : BoundedMap capacity κ ν} {k j : κ} {f : ν → ν} {y : ν}
    (hfound : (m.modify k f).lookup j = some y) :
    (j = k ∧ ∃ x, m.lookup k = some x ∧ y = f x) ∨ j ≠ k ∧ m.lookup j = some y := by
  by_cases hsame : j = k
  · subst hsame
    rw [lookup_modify_self] at hfound
    obtain ⟨x, hx, rfl⟩ := Option.map_eq_some_iff.mp hfound
    exact .inl ⟨rfl, x, hx, rfl⟩
  · rw [lookup_modify_of_ne m f hsame] at hfound
    exact .inr ⟨hsame, hfound⟩

end BoundedMap

end MongoDam.Lib
