import Mathlib.Data.List.Nodup

/-!
# Finite tables with distinct keys

A table is a list of entries whose keys are pairwise distinct, kept in the order
in which the keys were first inserted. The operations are those of a mutable hash
map: lookup, insertion, removal, retention, and a change of every value. Since
restriction to a set of keys preserves the order, it commutes with each of them,
which is what projections of a larger state onto a part of its keys rely on.
-/

namespace MongoDam.Lib

universe u v w

/-- Entries with pairwise distinct keys. -/
structure Table (κ : Type u) (ν : Type v) where
  /-- The entries in order of first insertion. -/
  entries : List (κ × ν)
  /-- No key occurs twice. -/
  nodup : (entries.map Prod.fst).Nodup

namespace Table

variable {κ : Type u} {ν : Type v} {μ : Type w}

@[ext] theorem ext {s t : Table κ ν} (h : s.entries = t.entries) : s = t := by
  cases s
  cases t
  cases h
  rfl

/-- The table without entries. -/
def empty : Table κ ν := ⟨[], List.nodup_nil⟩

/-- The keys, in order of first insertion. -/
def keys (t : Table κ ν) : List κ := t.entries.map Prod.fst

/-- The number of entries. -/
def size (t : Table κ ν) : ℕ := t.entries.length

/-- Retain the entries that satisfy a test. -/
def filter (t : Table κ ν) (p : κ → ν → Bool) : Table κ ν where
  entries := t.entries.filter (fun e => p e.1 e.2)
  nodup := t.nodup.sublist (List.filter_sublist.map Prod.fst)

/-- Change every value, keeping the keys. -/
def mapVal (f : ν → μ) (t : Table κ ν) : Table κ μ where
  entries := t.entries.map (fun e => (e.1, f e.2))
  nodup := by simpa [List.map_map, Function.comp_def] using t.nodup

section DecidableKeys

variable [DecidableEq κ]

/-- Look a key up in a list of entries. -/
def lookupEntry (k : κ) : List (κ × ν) → Option ν
  | [] => none
  | e :: es => if e.1 = k then some e.2 else lookupEntry k es

/-- Replace the value at a key in place, or append a new entry. -/
def insertEntry (k : κ) (x : ν) : List (κ × ν) → List (κ × ν)
  | [] => [(k, x)]
  | e :: es => if e.1 = k then (k, x) :: es else e :: insertEntry k x es

theorem mem_keys_insertEntry {k j : κ} {x : ν} {es : List (κ × ν)} :
    j ∈ (insertEntry k x es).map Prod.fst ↔ j = k ∨ j ∈ es.map Prod.fst := by
  induction es with
  | nil => simp [insertEntry]
  | cons e es ih =>
    by_cases he : e.1 = k
    · simp [insertEntry, he]
    · simp only [insertEntry, if_neg he, List.map_cons, List.mem_cons, ih]
      tauto

theorem nodup_insertEntry {k : κ} {x : ν} {es : List (κ × ν)}
    (h : (es.map Prod.fst).Nodup) : ((insertEntry k x es).map Prod.fst).Nodup := by
  induction es with
  | nil => simp [insertEntry]
  | cons e es ih =>
    obtain ⟨hhead, htail⟩ := List.nodup_cons.mp h
    by_cases he : e.1 = k
    · simpa [insertEntry, he] using h
    · rw [insertEntry, if_neg he, List.map_cons, List.nodup_cons]
      refine ⟨?_, ih htail⟩
      rw [mem_keys_insertEntry]
      rintro (hk | hmem)
      · exact he hk
      · exact hhead hmem

/-- The value at a key, if there is one. -/
def get? (t : Table κ ν) (k : κ) : Option ν := lookupEntry k t.entries

/-- Insert a value, replacing an earlier one at the same key. -/
def insert (t : Table κ ν) (k : κ) (x : ν) : Table κ ν :=
  ⟨insertEntry k x t.entries, nodup_insertEntry t.nodup⟩

/-- Remove a key. -/
def erase (t : Table κ ν) (k : κ) : Table κ ν := t.filter (fun j _ => decide (j ≠ k))

/-- The value at a key, created from the default when it is absent. -/
def getD (t : Table κ ν) (k : κ) (x : ν) : ν := (t.get? k).getD x

@[simp] theorem get?_empty (k : κ) : (empty : Table κ ν).get? k = none := rfl

theorem lookupEntry_eq_none {k : κ} {es : List (κ × ν)} (h : k ∉ es.map Prod.fst) :
    lookupEntry k es = none := by
  induction es with
  | nil => rfl
  | cons e es ih =>
    simp only [List.map_cons, List.mem_cons, not_or] at h
    rw [lookupEntry, if_neg (Ne.symm h.1), ih h.2]

/-- Lookup finds exactly the listed entries. -/
theorem get?_eq_some_iff {t : Table κ ν} {k : κ} {x : ν} :
    t.get? k = some x ↔ (k, x) ∈ t.entries := by
  obtain ⟨es, hnodup⟩ := t
  simp only [get?]
  induction es with
  | nil => simp [lookupEntry]
  | cons e es ih =>
    obtain ⟨hhead, htail⟩ := List.nodup_cons.mp hnodup
    by_cases he : e.1 = k
    · subst he
      rw [lookupEntry, if_pos rfl, List.mem_cons]
      constructor
      · intro h
        left
        rw [← Option.some.inj h]
      · rintro (h | h)
        · rw [← h]
        · exact absurd (List.mem_map_of_mem (f := Prod.fst) h) hhead
    · rw [lookupEntry, if_neg he, ih htail, List.mem_cons]
      constructor
      · exact Or.inr
      · rintro (h | h)
        · exact absurd (congrArg Prod.fst h).symm he
        · exact h

/-- A key is absent exactly when lookup fails. -/
theorem get?_eq_none_iff {t : Table κ ν} {k : κ} : t.get? k = none ↔ k ∉ t.keys := by
  constructor
  · intro h hmem
    obtain ⟨⟨j, x⟩, hentry, rfl⟩ := List.mem_map.mp hmem
    rw [get?_eq_some_iff.mpr hentry] at h
    cases h
  · exact lookupEntry_eq_none

theorem get?_insert (t : Table κ ν) (k j : κ) (x : ν) :
    (t.insert k x).get? j = if j = k then some x else t.get? j := by
  obtain ⟨es, hnodup⟩ := t
  simp only [get?, insert]
  clear hnodup
  induction es with
  | nil => simp only [insertEntry, lookupEntry, eq_comm]
  | cons e es ih =>
    by_cases he : e.1 = k
    · rw [insertEntry, if_pos he, lookupEntry, lookupEntry, he]
      by_cases h : j = k
      · simp [h]
      · simp [h, Ne.symm h]
    · rw [insertEntry, if_neg he, lookupEntry, lookupEntry, ih]
      by_cases h : j = k
      · subst h
        simp [he]
      · simp [h]

@[simp] theorem get?_insert_self (t : Table κ ν) (k : κ) (x : ν) :
    (t.insert k x).get? k = some x := by
  rw [get?_insert, if_pos rfl]

theorem get?_insert_of_ne (t : Table κ ν) {k j : κ} (x : ν) (h : j ≠ k) :
    (t.insert k x).get? j = t.get? j := by
  rw [get?_insert, if_neg h]

/-- A new key goes to the end. -/
theorem entries_insert_of_none {t : Table κ ν} {k : κ} (h : t.get? k = none) (x : ν) :
    (t.insert k x).entries = t.entries ++ [(k, x)] := by
  obtain ⟨es, hnodup⟩ := t
  rw [get?_eq_none_iff] at h
  simp only [keys, insert] at h ⊢
  clear hnodup
  induction es with
  | nil => rfl
  | cons e es ih =>
    simp only [List.map_cons, List.mem_cons, not_or] at h
    rw [insertEntry, if_neg (Ne.symm h.1), ih h.2, List.cons_append]

/-- Inserting the value that a key has changes nothing. -/
theorem insert_eq_self {t : Table κ ν} {k : κ} {x : ν} (h : t.get? k = some x) :
    t.insert k x = t := by
  obtain ⟨es, hnodup⟩ := t
  apply ext
  simp only [get?, insert] at h ⊢
  clear hnodup
  induction es with
  | nil => cases h
  | cons e es ih =>
    by_cases he : e.1 = k
    · rw [lookupEntry, if_pos he] at h
      rw [insertEntry, if_pos he, ← he, ← Option.some.inj h]
    · rw [lookupEntry, if_neg he] at h
      rw [insertEntry, if_neg he, ih h]

theorem get?_filter (t : Table κ ν) (p : κ → ν → Bool) (k : κ) :
    (t.filter p).get? k = (t.get? k).filter (p k) := by
  cases h : t.get? k with
  | none =>
    rw [Option.filter_none, get?_eq_none_iff]
    rw [get?_eq_none_iff] at h
    intro hmem
    exact h ((List.filter_sublist.map Prod.fst).subset hmem)
  | some x =>
    rw [get?_eq_some_iff] at h
    by_cases hp : p k x = true
    · rw [Option.filter_some_pos hp, get?_eq_some_iff]
      exact List.mem_filter.mpr ⟨h, hp⟩
    · rw [Option.filter_some_neg (by simpa using hp), get?_eq_none_iff]
      intro hmem
      obtain ⟨⟨j, y⟩, hentry, rfl⟩ := List.mem_map.mp hmem
      obtain ⟨hentry, hpy⟩ := List.mem_filter.mp hentry
      have hxy : some y = some x := by
        rw [← get?_eq_some_iff.mpr hentry, ← get?_eq_some_iff.mpr h]
      exact hp (Option.some.inj hxy ▸ hpy)

/-- Retention by a test on keys alone. -/
theorem get?_filterKey (t : Table κ ν) (p : κ → Bool) (k : κ) :
    (t.filter (fun j _ => p j)).get? k = if p k = true then t.get? k else none := by
  rw [get?_filter]
  by_cases h : p k = true
  · rw [if_pos h, h]
    cases t.get? k <;> simp
  · rw [if_neg h]
    cases t.get? k <;> simp [h]

theorem get?_erase (t : Table κ ν) (k j : κ) :
    (t.erase k).get? j = if j = k then none else t.get? j := by
  rw [erase, get?_filterKey]
  by_cases h : j = k <;> simp [h]

@[simp] theorem get?_erase_self (t : Table κ ν) (k : κ) : (t.erase k).get? k = none := by
  rw [get?_erase, if_pos rfl]

theorem get?_erase_of_ne (t : Table κ ν) {k j : κ} (h : j ≠ k) :
    (t.erase k).get? j = t.get? j := by
  rw [get?_erase, if_neg h]

theorem get?_mapVal (f : ν → μ) (t : Table κ ν) (k : κ) :
    (t.mapVal f).get? k = (t.get? k).map f := by
  obtain ⟨es, hnodup⟩ := t
  simp only [get?, mapVal]
  clear hnodup
  induction es with
  | nil => rfl
  | cons e es ih => by_cases he : e.1 = k <;> simp [lookupEntry, he, ih]

/-! ### Restriction to a set of keys commutes with the operations -/

/-- An entry comes along where its key is in the set. -/
theorem filterKey_insert (t : Table κ ν) (p : κ → Bool) (k : κ) (x : ν) :
    (t.insert k x).filter (fun j _ => p j) =
      if p k = true then (t.filter (fun j _ => p j)).insert k x
      else t.filter (fun j _ => p j) := by
  obtain ⟨es, hnodup⟩ := t
  apply ext
  rw [apply_ite entries]
  simp only [filter, insert]
  clear hnodup
  induction es with
  | nil => by_cases h : p k = true <;> simp [insertEntry, h]
  | cons e es ih =>
    by_cases he : e.1 = k
    · by_cases h : p k = true <;> simp [insertEntry, he, h]
    · rw [insertEntry, if_neg he, List.filter_cons, List.filter_cons, ih]
      by_cases h : p k = true <;> by_cases hp : p e.1 = true <;> simp [insertEntry, he, h, hp]

theorem mapVal_insert (f : ν → μ) (t : Table κ ν) (k : κ) (x : ν) :
    (t.insert k x).mapVal f = (t.mapVal f).insert k (f x) := by
  obtain ⟨es, hnodup⟩ := t
  apply ext
  simp only [mapVal, insert]
  clear hnodup
  induction es with
  | nil => rfl
  | cons e es ih => by_cases he : e.1 = k <;> simp [insertEntry, he, ih]

end DecidableKeys

theorem filter_eq_self (t : Table κ ν) {p : κ → ν → Bool} (h : ∀ k x, p k x = true) :
    t.filter p = t := by
  apply ext
  simp only [filter]
  exact List.filter_eq_self.mpr (fun e _ => h e.1 e.2)

theorem filter_comm (t : Table κ ν) (p q : κ → ν → Bool) :
    (t.filter p).filter q = (t.filter q).filter p := by
  apply ext
  simp only [filter, List.filter_filter]
  apply List.filter_congr
  intro e _
  exact Bool.and_comm _ _

/-- A retention that keeps every entry satisfying the outer test has no effect
below that test. -/
theorem filter_filter_of_imp (t : Table κ ν) {p q : κ → ν → Bool}
    (h : ∀ k x, q k x = true → p k x = true) : (t.filter p).filter q = t.filter q := by
  apply ext
  simp only [filter, List.filter_filter]
  apply List.filter_congr
  intro e _
  by_cases hq : q e.1 e.2 = true
  · simp [hq, h _ _ hq]
  · simp [hq]

theorem mapVal_filter (f : ν → μ) (t : Table κ ν) {p : κ → ν → Bool} {q : κ → μ → Bool}
    (h : ∀ k x, q k (f x) = p k x) : (t.filter p).mapVal f = (t.mapVal f).filter q := by
  apply ext
  simp only [mapVal, filter, List.filter_map]
  congr 1
  apply List.filter_congr
  intro e _
  exact (h e.1 e.2).symm

theorem mapVal_filterKey (f : ν → μ) (t : Table κ ν) (p : κ → Bool) :
    (t.filter (fun k _ => p k)).mapVal f = (t.mapVal f).filter (fun k _ => p k) :=
  mapVal_filter f t fun _ _ => rfl

@[simp] theorem keys_mapVal (f : ν → μ) (t : Table κ ν) : (t.mapVal f).keys = t.keys := by
  simp [keys, mapVal, List.map_map, Function.comp_def]

@[simp] theorem size_mapVal (f : ν → μ) (t : Table κ ν) : (t.mapVal f).size = t.size := by
  simp [size, mapVal]

theorem size_filter_le (t : Table κ ν) (p : κ → ν → Bool) : (t.filter p).size ≤ t.size :=
  List.length_filter_le _ _

section Sizes

variable [DecidableEq κ]

theorem length_insertEntry_le (k : κ) (x : ν) (es : List (κ × ν)) :
    (insertEntry k x es).length ≤ es.length + 1 := by
  induction es with
  | nil => exact Nat.le_refl _
  | cons e es ih =>
    unfold insertEntry
    split
    · exact Nat.le_succ _
    · exact Nat.succ_le_succ ih

/-- Insertion adds at most one entry. -/
theorem size_insert_le (t : Table κ ν) (k : κ) (x : ν) : (t.insert k x).size ≤ t.size + 1 :=
  length_insertEntry_le k x t.entries

/-- Removing a key that is present makes the table smaller. -/
theorem size_erase_lt {t : Table κ ν} {k : κ} (h : k ∈ t.keys) : (t.erase k).size < t.size := by
  obtain ⟨e, he, rfl⟩ := List.mem_map.mp h
  exact List.length_filter_lt_length_iff_exists.mpr ⟨e, he, by simp⟩

end Sizes

end Table

end MongoDam.Lib
