import Mathlib.Data.Int.Notation
import Mathlib.Data.Nat.Notation

/-!
# JSON values

A JSON document as a tree. An object is a list of members in the order of its
text. A dynamic value keeps them in strictly increasing key order, the order of an
ordered map, so that two such objects with the same members are equal. Integers are
unbounded here; a double is kept as its 64 bits, since only its identity matters to
the trees built below.
-/

namespace MongoDam.Lib

/-- A JSON number: an integer, or a double given by its bit pattern. -/
inductive JsonNumber where
  | int (value : ℤ)
  | double (bits : ℕ)
  deriving DecidableEq, Repr

/-- A JSON document. -/
inductive JsonValue where
  | null
  | bool (value : Bool)
  | number (value : JsonNumber)
  | string (value : String)
  | array (values : List JsonValue)
  | object (members : List (String × JsonValue))
  deriving Repr

namespace JsonValue

/-! ### Decidable equality -/

mutual

/-- Boolean equality of documents. -/
def beq : JsonValue → JsonValue → Bool
  | .null, .null => true
  | .bool a, .bool b => a == b
  | .number a, .number b => decide (a = b)
  | .string a, .string b => decide (a = b)
  | .array a, .array b => beqList a b
  | .object a, .object b => beqMembers a b
  | _, _ => false

/-- Boolean equality of array contents. -/
def beqList : List JsonValue → List JsonValue → Bool
  | [], [] => true
  | a :: as, b :: bs => beq a b && beqList as bs
  | _, _ => false

/-- Boolean equality of object members. -/
def beqMembers : List (String × JsonValue) → List (String × JsonValue) → Bool
  | [], [] => true
  | (j, a) :: as, (k, b) :: bs => decide (j = k) && beq a b && beqMembers as bs
  | _, _ => false

end

mutual

/-- Boolean equality is equality. -/
theorem beq_iff : ∀ a b : JsonValue, beq a b = true ↔ a = b
  | a, b => by
    cases a <;> cases b <;> simp [beq]
    case array.array as bs => exact beqList_iff as bs
    case object.object as bs => exact beqMembers_iff as bs

theorem beqList_iff : ∀ as bs : List JsonValue, beqList as bs = true ↔ as = bs
  | [], [] => by simp [beqList]
  | [], _ :: _ => by simp [beqList]
  | _ :: _, [] => by simp [beqList]
  | a :: as, b :: bs => by simp [beqList, beq_iff a b, beqList_iff as bs]

theorem beqMembers_iff : ∀ as bs : List (String × JsonValue), beqMembers as bs = true ↔ as = bs
  | [], [] => by simp [beqMembers]
  | [], _ :: _ => by simp [beqMembers]
  | _ :: _, [] => by simp [beqMembers]
  | (j, a) :: as, (k, b) :: bs => by
    simp [beqMembers, beq_iff a b, beqMembers_iff as bs]

end

instance : DecidableEq JsonValue := fun a b => decidable_of_iff _ (beq_iff a b)

/-! ### Objects -/

/-- Insert a member into members in key order, replacing an earlier value at the
same key. -/
def insertMember (key : String) (value : α) : List (String × α) → List (String × α)
  | [] => [(key, value)]
  | (k, v) :: rest =>
    if key < k then (key, value) :: (k, v) :: rest
    else if key = k then (key, value) :: rest
    else (k, v) :: insertMember key value rest

private theorem lookup_cons_eq (other key : String) (value : α) (rest : List (String × α)) :
    ((key, value) :: rest).lookup other =
      if other = key then some value else rest.lookup other := by
  by_cases h : other = key
  · rw [if_pos h, h, List.lookup_cons_self]
  · rw [if_neg h, List.lookup_cons, beq_eq_false_iff_ne.mpr h]

/-- The inserted value is found at its key, the others as before. -/
theorem lookup_insertMember (key other : String) (value : α) (members : List (String × α)) :
    (insertMember key value members).lookup other =
      if other = key then some value else members.lookup other := by
  induction members with
  | nil => exact lookup_cons_eq ..
  | cons first rest ih =>
    obtain ⟨k, v⟩ := first
    unfold insertMember
    split
    · rw [lookup_cons_eq]
    · split
      · rename_i hkey
        rw [lookup_cons_eq, lookup_cons_eq, ← hkey]
        split <;> rfl
      · rename_i hkey
        rw [lookup_cons_eq, lookup_cons_eq, ih]
        by_cases hother : other = k
        · rw [if_pos hother, if_pos hother, if_neg fun h => hkey (h.symm.trans hother)]
        · rw [if_neg hother, if_neg hother]

theorem mem_insertMember {key : String} {value : α} {members : List (String × α)}
    {member : String × α} (h : member ∈ insertMember key value members) :
    member = (key, value) ∨ member ∈ members := by
  induction members with
  | nil => exact Or.inl (List.mem_singleton.mp h)
  | cons first rest ih =>
    obtain ⟨k, v⟩ := first
    unfold insertMember at h
    split at h
    · exact List.mem_cons.mp h
    · split at h
      · exact (List.mem_cons.mp h).imp_right (List.mem_cons_of_mem _)
      · rcases List.mem_cons.mp h with rfl | h
        · exact Or.inr (List.mem_cons_self ..)
        · exact (ih h).imp_right (List.mem_cons_of_mem _)

/-- Members in key order, a later one replacing an earlier one. -/
def orderMembers (members : List (String × α)) : List (String × α) :=
  members.foldl (fun object member => insertMember member.1 member.2 object) []

/-- The object with the given members, a later one replacing an earlier one. -/
def ofMembers (members : List (String × JsonValue)) : JsonValue := .object (orderMembers members)

/-! ### Nesting depth -/

mutual

/-- The number of containers open at the deepest point of a document. -/
def depth : JsonValue → ℕ
  | .array values => 1 + depthList values
  | .object members => 1 + depthMembers members
  | _ => 0

/-- The greatest depth of an array element. -/
def depthList : List JsonValue → ℕ
  | [] => 0
  | v :: vs => max v.depth (depthList vs)

/-- The greatest depth of a member value. -/
def depthMembers : List (String × JsonValue) → ℕ
  | [] => 0
  | (_, v) :: ms => max v.depth (depthMembers ms)

end

end JsonValue

end MongoDam.Lib
