import Mathlib.Algebra.Group.Int.Defs
import Mathlib.Algebra.GroupWithZero.Nat

/-!
# Byte sequences

Checked slices of a byte sequence, little-endian integers, UTF-8 text and
hexadecimal digits. A checked slice that starts at an offset reads only the bytes
from that offset on, so every reader built from slices can be moved to the start
of the remaining bytes.
-/

namespace MongoDam.Lib

/-- A sequence of bytes. -/
abbrev Bytes := List UInt8

/-- The bytes from `start` up to but not including `stop`, when both lie inside. -/
def slice? (bytes : Bytes) (start stop : ℕ) : Option Bytes :=
  if start ≤ stop ∧ stop ≤ bytes.length then some ((bytes.drop start).take (stop - start)) else none

/-- The bytes from `start` on, when it lies inside. -/
def sliceFrom? (bytes : Bytes) (start : ℕ) : Option Bytes :=
  if start ≤ bytes.length then some (bytes.drop start) else none

/-- The little-endian value of a byte sequence. -/
def leNat : Bytes → ℕ
  | [] => 0
  | b :: bs => b.toNat + 256 * leNat bs

/-- The two's complement reading of a 32-bit word. -/
def signed32 (word : ℕ) : ℤ := if word < 2 ^ 31 then word else (word : ℤ) - 2 ^ 32

/-- The two's complement reading of a 64-bit word. -/
def signed64 (word : ℕ) : ℤ := if word < 2 ^ 63 then word else (word : ℤ) - 2 ^ 64

/-- The little-endian bytes of a number, at a fixed width. -/
def leBytes : ℕ → ℕ → Bytes
  | 0, _ => []
  | width + 1, value => UInt8.ofNat (value % 256) :: leBytes width (value / 256)

/-- The text whose UTF-8 encoding the bytes are, if they are one. -/
def fromUtf8 (bytes : Bytes) : Option String := String.fromUTF8? ⟨bytes.toArray⟩

/-- For a lead byte of a multi-byte UTF-8 sequence: the number of continuation
bytes, and the range of the first of them. -/
def utf8Continuations (lead : ℕ) : Option (ℕ × ℕ × ℕ) :=
  if 0xc2 ≤ lead ∧ lead ≤ 0xdf then some (1, 0x80, 0xbf)
  else if lead = 0xe0 then some (2, 0xa0, 0xbf)
  else if lead = 0xed then some (2, 0x80, 0x9f)
  else if 0xe1 ≤ lead ∧ lead ≤ 0xef then some (2, 0x80, 0xbf)
  else if lead = 0xf0 then some (3, 0x90, 0xbf)
  else if 0xf1 ≤ lead ∧ lead ≤ 0xf3 then some (3, 0x80, 0xbf)
  else if lead = 0xf4 then some (3, 0x80, 0x8f)
  else none

/-- How many of at most `count` leading bytes continue a sequence. -/
def continuationRun : ℕ → ℕ → ℕ → Bytes → ℕ
  | count + 1, low, high, b :: bs =>
    if low ≤ b.toNat ∧ b.toNat ≤ high then continuationRun count 0x80 0xbf bs + 1 else 0
  | _, _, _, _ => 0

/-- Lossy UTF-8 decoding: each maximal ill-formed part becomes one replacement
character. -/
def fromUtf8LossyChars : Bytes → List Char
  | [] => []
  | b :: bs =>
    if b.toNat < 0x80 then Char.ofNat b.toNat :: fromUtf8LossyChars bs
    else
      match utf8Continuations b.toNat with
      | none => '\uFFFD' :: fromUtf8LossyChars bs
      | some (count, low, high) =>
        let run := continuationRun count low high bs
        let char :=
          if run = count then
            Char.ofNat ((bs.take run).foldl (fun code c => code * 64 + c.toNat % 64)
              (b.toNat % 2 ^ (6 - count)))
          else '\uFFFD'
        char :: fromUtf8LossyChars (bs.drop run)
termination_by bytes => bytes.length
decreasing_by
  all_goals
    simp only [List.length_cons, List.length_drop]
    omega

/-- The lossy text of a byte sequence. -/
def fromUtf8Lossy (bytes : Bytes) : String := String.ofList (fromUtf8LossyChars bytes)

/-- The UTF-8 encoding of a text. -/
def toUtf8 (text : String) : Bytes := text.toByteArray.data.toList

/-- Lower-case ASCII letters; other characters are unchanged. -/
def toAsciiLowercase (text : String) : String := String.ofList (text.toList.map Char.toLower)

/-- A lower-case hexadecimal digit. -/
def hexDigit (value : ℕ) : Char := "0123456789abcdef".toList.getD value '0'

/-- Two lower-case hexadecimal digits per byte. -/
def encodeHex (bytes : Bytes) : String :=
  String.ofList (bytes.flatMap (fun b => [hexDigit (b.toNat / 16), hexDigit (b.toNat % 16)]))

/-- The hexadecimal digits of a number, zero-padded to a width. -/
def hexPadded (width value : ℕ) : String :=
  String.ofList ((List.range width).reverse.map (fun i => hexDigit (value / 16 ^ i % 16)))

/-- `u64::saturating_add`. -/
def saturatingAdd (a b : ℕ) : ℕ := min (a + b) (2 ^ 64 - 1)

/-- A hash function with 32-byte digests. -/
structure Digest32 where
  /-- The digest of a byte sequence. -/
  digest : Bytes → Bytes
  /-- Every digest has 32 bytes. -/
  digest_length : ∀ bytes, (digest bytes).length = 32

/-- The hash function with the listed digests, of 32 bytes each; other inputs go to zeros. -/
def Digest32.ofTable (digests : List (Bytes × Bytes)) : Digest32 where
  digest input :=
    let found := (digests.lookup input).getD []
    found.take 32 ++ List.replicate (32 - found.length) 0
  digest_length input := by
    rw [List.length_append, List.length_take, List.length_replicate]
    omega

/-! ### Hexadecimal digits -/

private theorem hexDigit_inj : ∀ m < 16, ∀ n < 16, hexDigit m = hexDigit n → m = n := by
  decide

private theorem hexPair_inj {a b : UInt8}
    (h : [hexDigit (a.toNat / 16), hexDigit (a.toNat % 16)] =
      [hexDigit (b.toNat / 16), hexDigit (b.toNat % 16)]) : a = b := by
  obtain ⟨hhigh, hlow⟩ := List.cons_eq_cons.mp h
  have ha := a.toNat_lt
  have hb := b.toNat_lt
  have hdiv := hexDigit_inj _ (by omega) _ (by omega) hhigh
  have hmod := hexDigit_inj _ (by omega) _ (by omega) (List.cons_eq_cons.mp hlow).1
  exact UInt8.toNat_inj.mp (by omega)

/-- Different byte sequences have different hexadecimal texts. -/
theorem encodeHex_inj {a b : Bytes} (h : encodeHex a = encodeHex b) : a = b := by
  have hchars := String.ofList_injective h
  clear h
  induction a generalizing b with
  | nil =>
    cases b with
    | nil => rfl
    | cons y ys => cases hchars
  | cons x xs ih =>
    cases b with
    | nil => cases hchars
    | cons y ys =>
      simp only [List.flatMap_cons] at hchars
      obtain ⟨hhead, htail⟩ := List.append_inj hchars rfl
      rw [hexPair_inj hhead, ih htail]

/-! ### Slices -/

theorem slice?_length {bytes out : Bytes} {start stop : ℕ}
    (h : slice? bytes start stop = some out) : out.length = stop - start := by
  unfold slice? at h
  split at h
  · rename_i hbound
    rw [← Option.some.inj h, List.length_take, List.length_drop]
    omega
  · cases h

theorem slice?_drop {bytes : Bytes} {offset start stop : ℕ} (h : offset ≤ bytes.length) :
    slice? bytes (offset + start) (offset + stop) = slice? (bytes.drop offset) start stop := by
  unfold slice?
  rw [List.length_drop, List.drop_drop, Nat.add_sub_add_left]
  by_cases hbound : start ≤ stop ∧ stop ≤ bytes.length - offset
  · rw [if_pos hbound, if_pos (by omega)]
  · rw [if_neg hbound, if_neg (by omega)]

theorem sliceFrom?_drop {bytes : Bytes} {offset start : ℕ} (h : offset ≤ bytes.length) :
    sliceFrom? bytes (offset + start) = sliceFrom? (bytes.drop offset) start := by
  unfold sliceFrom?
  rw [List.length_drop, List.drop_drop]
  by_cases hbound : start ≤ bytes.length - offset
  · rw [if_pos hbound, if_pos (by omega)]
  · rw [if_neg hbound, if_neg (by omega)]

/-- A slice inside the first part of a sequence does not see the second part. -/
theorem slice?_append {front rest : Bytes} {start stop : ℕ} (h : stop ≤ front.length) :
    slice? (front ++ rest) start stop = slice? front start stop := by
  unfold slice?
  by_cases hbound : start ≤ stop
  · rw [if_pos ⟨hbound, by rw [List.length_append]; omega⟩, if_pos ⟨hbound, h⟩,
      List.drop_append_of_le_length (by omega), List.take_append_of_le_length]
    rw [List.length_drop]
    omega
  · rw [if_neg (by omega), if_neg (by omega)]

/-- A slice behind the first part of a sequence does not see the first part. -/
theorem slice?_append_left (front rest : Bytes) (start stop : ℕ) :
    slice? (front ++ rest) (front.length + start) (front.length + stop) =
      slice? rest start stop := by
  have hbound : front.length ≤ (front ++ rest).length := by
    rw [List.length_append]
    omega
  rw [slice?_drop hbound, List.drop_left]

theorem sliceFrom?_append_left (front rest : Bytes) (start : ℕ) :
    sliceFrom? (front ++ rest) (front.length + start) = sliceFrom? rest start := by
  have hbound : front.length ≤ (front ++ rest).length := by
    rw [List.length_append]
    omega
  rw [sliceFrom?_drop hbound, List.drop_left]

theorem slice?_eq_some {bytes : Bytes} {start stop : ℕ} (h : start ≤ stop)
    (hstop : stop ≤ bytes.length) :
    slice? bytes start stop = some ((bytes.drop start).take (stop - start)) :=
  if_pos ⟨h, hstop⟩

theorem slice?_eq_none {bytes : Bytes} {start stop : ℕ} (h : bytes.length < stop) :
    slice? bytes start stop = none :=
  if_neg (by omega)

/-- A byte and what is behind it are found behind a cursor. -/
theorem cons_prefix_drop {b : UInt8} {part bytes : Bytes} {cursor : ℕ} :
    b :: part <+: bytes.drop cursor ↔
      bytes[cursor]? = some b ∧ part <+: bytes.drop (cursor + 1) := by
  by_cases hcursor : cursor < bytes.length
  · rw [List.drop_eq_getElem_cons hcursor, List.cons_prefix_cons,
      List.getElem?_eq_getElem hcursor, Option.some_inj, eq_comm]
  · rw [List.drop_eq_nil_of_le (Nat.le_of_not_lt hcursor), List.prefix_nil,
      List.getElem?_eq_none (Nat.le_of_not_lt hcursor)]
    exact ⟨nofun, fun h => nomatch h.1⟩

/-- A slice of some length is the part of that length behind its start. -/
theorem slice?_eq_some_iff {part bytes : Bytes} {start length : ℕ} (hlength : 0 < length) :
    slice? bytes start (start + length) = some part ↔
      part.length = length ∧ part <+: bytes.drop start := by
  constructor
  · intro h
    refine ⟨(slice?_length h).trans (Nat.add_sub_cancel_left ..), ?_⟩
    unfold slice? at h
    split at h
    · cases h
      exact List.take_prefix ..
    · cases h
  · rintro ⟨rfl, hpart⟩
    have hle := hpart.length_le
    rw [List.length_drop] at hle
    rw [slice?_eq_some (Nat.le_add_right ..) (by omega), Nat.add_sub_cancel_left,
      ← List.prefix_iff_eq_take.mp hpart]

/-! ### Little-endian integers -/

theorem leNat_lt (bytes : Bytes) : leNat bytes < 256 ^ bytes.length := by
  induction bytes with
  | nil => simp [leNat]
  | cons b bs ih =>
    have hb := b.toNat_lt
    rw [leNat, List.length_cons, Nat.pow_succ]
    omega

@[simp] theorem leBytes_length (width value : ℕ) : (leBytes width value).length = width := by
  induction width generalizing value with
  | zero => rfl
  | succ width ih => simp [leBytes, ih]

theorem leNat_leBytes {width value : ℕ} (h : value < 256 ^ width) :
    leNat (leBytes width value) = value := by
  induction width generalizing value with
  | zero =>
    rw [Nat.pow_zero] at h
    rw [leBytes, leNat]
    omega
  | succ width ih =>
    rw [Nat.pow_succ] at h
    have hmod : (UInt8.ofNat (value % 256)).toNat = value % 256 := by
      rw [UInt8.toNat_ofNat']
      omega
    rw [leBytes, leNat, hmod, ih (by omega)]
    omega

theorem leBytes_leNat (bytes : Bytes) : leBytes bytes.length (leNat bytes) = bytes := by
  induction bytes with
  | nil => rfl
  | cons b bs ih =>
    have hb := b.toNat_lt
    have hmod : (b.toNat + 256 * leNat bs) % 256 = b.toNat := by omega
    have hdiv : (b.toNat + 256 * leNat bs) / 256 = leNat bs := by omega
    rw [List.length_cons, leNat, leBytes, hmod, hdiv, ih, UInt8.ofNat_toNat]

end MongoDam.Lib
