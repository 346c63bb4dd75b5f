import MongoDam.Lib.Bytes

/-!
# Records of fixed-width fields

A record whose fields stand one behind the other, each at its width. The fields of a record
of the right length are read off its bytes, and joined they give the bytes back.
-/

namespace MongoDam.Lib

/-- The fields of a record, by their widths. -/
def fields : List ℕ → Bytes → List Bytes
  | [], _ => []
  | width :: widths, bytes => bytes.take width :: fields widths (bytes.drop width)

/-- Fields that are joined are read off again. -/
theorem fields_flatten (parts : List Bytes) :
    fields (parts.map List.length) parts.flatten = parts := by
  induction parts with
  | nil => rfl
  | cons part parts ih =>
    rw [List.map_cons, List.flatten_cons, fields, List.take_left, List.drop_left, ih]

/-- A record is its fields, joined. -/
theorem flatten_fields {widths : List ℕ} {bytes : Bytes} (hlength : bytes.length = widths.sum) :
    (fields widths bytes).flatten = bytes := by
  induction widths generalizing bytes with
  | nil =>
    rw [List.eq_nil_of_length_eq_zero hlength]
    rfl
  | cons width widths ih =>
    have hrest : (bytes.drop width).length = widths.sum := by
      rw [List.length_drop, hlength, List.sum_cons, Nat.add_sub_cancel_left]
    rw [fields, List.flatten_cons, ih hrest, List.take_append_drop]

/-! ### Words in two's complement -/

/-- The word of a signed number. -/
def twosComplement (bits : ℕ) (value : ℤ) : ℕ := (value.emod (2 ^ bits)).toNat

theorem twosComplement_lt (bits : ℕ) (value : ℤ) : twosComplement bits value < 2 ^ bits := by
  have hpos : (0 : ℤ) < 2 ^ bits := Int.pow_pos (by decide)
  have hlt := Int.emod_lt_of_pos value hpos
  have hnonneg := Int.emod_nonneg value (Int.ne_of_gt hpos)
  unfold twosComplement
  change 0 ≤ value.emod (2 ^ bits) at hnonneg
  change value.emod (2 ^ bits) < 2 ^ bits at hlt
  have hcast : ((2 ^ bits : ℕ) : ℤ) = 2 ^ bits := by push_cast; rfl
  omega

theorem twosComplement_signed32 {word : ℕ} (h : word < 2 ^ 32) :
    twosComplement 32 (signed32 word) = word := by
  unfold twosComplement signed32
  change ((if word < 2 ^ 31 then (word : ℤ) else word - 2 ^ 32) % 2 ^ 32).toNat = word
  split <;> omega

theorem twosComplement_signed64 {word : ℕ} (h : word < 2 ^ 64) :
    twosComplement 64 (signed64 word) = word := by
  unfold twosComplement signed64
  change ((if word < 2 ^ 63 then (word : ℤ) else word - 2 ^ 64) % 2 ^ 64).toNat = word
  split <;> omega

theorem signed32_twosComplement {value : ℤ} (hlow : -2 ^ 31 ≤ value) (hhigh : value < 2 ^ 31) :
    signed32 (twosComplement 32 value) = value := by
  unfold twosComplement signed32
  change (if (value % 2 ^ 32).toNat < 2 ^ 31 then ((value % 2 ^ 32).toNat : ℤ)
    else (value % 2 ^ 32).toNat - 2 ^ 32) = value
  split <;> omega

theorem signed64_twosComplement {value : ℤ} (hlow : -2 ^ 63 ≤ value) (hhigh : value < 2 ^ 63) :
    signed64 (twosComplement 64 value) = value := by
  unfold twosComplement signed64
  change (if (value % 2 ^ 64).toNat < 2 ^ 63 then ((value % 2 ^ 64).toNat : ℤ)
    else (value % 2 ^ 64).toNat - 2 ^ 64) = value
  split <;> omega

theorem signed32_range {word : ℕ} (h : word < 2 ^ 32) :
    -2 ^ 31 ≤ signed32 word ∧ signed32 word < 2 ^ 31 := by
  unfold signed32
  split <;> omega

theorem signed64_range {word : ℕ} (h : word < 2 ^ 64) :
    -2 ^ 63 ≤ signed64 word ∧ signed64 word < 2 ^ 63 := by
  unfold signed64
  split <;> omega

end MongoDam.Lib
