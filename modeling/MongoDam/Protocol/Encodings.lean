import MongoDam.Lib.Utf8
import MongoDam.Protocol.Encode
import MongoDam.Protocol.Locality

/-!
# Reading what was written

The readers of words, texts and slices applied to bytes that were written in front of
others.
-/

namespace MongoDam.Protocol

open Lib

/-- A word is read back. -/
theorem readWord_leBytes {width value : ℕ} (h : value < 256 ^ width) (rest : Bytes) :
    readWord width (leBytes width value ++ rest) 0 = .ok value := by
  unfold readWord
  rw [slice?_eq_some (by omega) (by simp), Nat.zero_add, List.drop_zero, Nat.sub_zero,
    List.take_left' (leBytes_length width value)]
  exact congrArg Except.ok (leNat_leBytes h)

theorem readI32_leBytes {value : ℕ} (h : value < 2 ^ 31) (rest : Bytes) :
    readI32 (leBytes 4 value ++ rest) 0 = .ok (value : ℤ) := by
  unfold readI32
  rw [readWord_leBytes (by omega)]
  exact congrArg Except.ok (if_pos h)

/-- A word that is read as a length is less than `2 ^ 31`. -/
theorem readI32_length_lt {bytes : Bytes} {offset length : ℕ}
    (h : readI32 bytes offset = .ok (length : ℤ)) : length < 2 ^ 31 := by
  unfold readI32 readWord at h
  split at h
  · next word hword =>
    have hsigned : signed32 (leNat word) = length := Except.ok.inj h
    have hlt := leNat_lt word
    rw [slice?_length hword, Nat.add_sub_cancel_left] at hlt
    unfold signed32 at hsigned
    split at hsigned <;> omega
  · cases h

theorem readI32_drop_add {bytes : Bytes} {start : ℕ} (h : start ≤ bytes.length) (offset : ℕ) :
    readI32 (bytes.drop start) offset = readI32 bytes (start + offset) := by
  have hsplit := readI32_append_left (bytes.take start) (bytes.drop start) offset
  rw [List.take_append_drop, List.length_take, Nat.min_eq_left h] at hsplit
  exact hsplit.symm

/-- A word of a slice is the word of the whole. -/
theorem readI32_drop_take {bytes : Bytes} {start count offset : ℕ} (hoffset : offset + 4 ≤ count)
    (hcount : start + count ≤ bytes.length) (rest : Bytes) :
    readI32 ((bytes.drop start).take count ++ rest) offset = readI32 bytes (start + offset) := by
  have hlength : ((bytes.drop start).take count).length = count := by
    rw [List.length_take, List.length_drop]
    omega
  rw [readI32_append rest (by omega), readI32_take (by omega), readI32_drop_add (by omega)]

/-! ### Readers behind other bytes -/

section Behind

variable (front rest : Bytes)

theorem readWord_behind {width value : ℕ} (h : value < 256 ^ width) :
    readWord width (front ++ (leBytes width value ++ rest)) front.length = .ok value := by
  have hread := readWord_append_left width front (leBytes width value ++ rest) 0
  rw [Nat.add_zero] at hread
  rw [hread, readWord_leBytes h]

theorem readI32_behind {value : ℕ} (h : value < 2 ^ 31) :
    readI32 (front ++ (leBytes 4 value ++ rest)) front.length = .ok (value : ℤ) := by
  unfold readI32
  rw [readWord_behind front rest (by omega)]
  exact congrArg Except.ok (if_pos h)

/-- What lies between two other parts is sliced. -/
theorem slice?_behind (middle : Bytes) :
    slice? (front ++ (middle ++ rest)) front.length (front.length + middle.length) =
      some middle := by
  have hslice := slice?_append_left front (middle ++ rest) 0 middle.length
  rw [Nat.add_zero] at hslice
  rw [hslice, slice?_append (Nat.le_refl _), slice?_eq_some (Nat.zero_le _) (Nat.le_refl _),
    List.drop_zero, Nat.sub_zero, List.take_length]

theorem sliceBson_behind (middle : Bytes) :
    sliceBson (front ++ (middle ++ rest)) front.length (front.length + middle.length) =
      .ok middle := by
  unfold sliceBson
  rw [slice?_behind]

theorem zero_notMem_toUtf8 {text : String} (h : Char.ofNat 0 ∉ text.toList) :
    (0 : UInt8) ∉ toUtf8 text :=
  fun hmem => h ((mem_toUtf8_iff (by decide)).mp hmem)

/-- A text without a NUL is read up to the NUL behind it. -/
theorem readCstring_behind {text : String} (h : Char.ofNat 0 ∉ text.toList) :
    readCstring (front ++ (toUtf8 text ++ 0 :: rest)) front.length =
      .ok (text, front.length + (toUtf8 text).length + 1) := by
  have hbehind : sliceFrom? (front ++ (toUtf8 text ++ 0 :: rest)) front.length =
      some (toUtf8 text ++ 0 :: rest) := by
    unfold sliceFrom?
    rw [if_pos (by rw [List.length_append]; omega), List.drop_left]
  have hfind : (toUtf8 text ++ 0 :: rest).findIdx? (· == 0) = some (toUtf8 text).length := by
    have hnone : (toUtf8 text).findIdx? (· == 0) = none := by
      rw [List.findIdx?_eq_none_iff]
      intro b hb
      rw [beq_eq_false_iff_ne]
      rintro rfl
      exact zero_notMem_toUtf8 h hb
    rw [List.findIdx?_append, hnone, List.findIdx?_cons, if_pos (by decide)]
    simp
  unfold readCstring
  rw [hbehind]
  dsimp only
  rw [hfind]
  dsimp only
  rw [List.take_left, fromUtf8_toUtf8]

/-- A string value: its length with the NUL behind it, its text, and the NUL. -/
def encodeText (text : String) : Bytes :=
  leBytes 4 ((toUtf8 text).length + 1) ++ (toUtf8 text ++ [0])

theorem encodeText_length (text : String) :
    (encodeText text).length = (toUtf8 text).length + 5 := by
  simp only [encodeText, List.length_append, leBytes_length, List.length_singleton]
  omega

theorem readBsonString_behind {text : String} (h : (encodeText text).length < 2 ^ 31) :
    readBsonString (front ++ (encodeText text ++ rest)) front.length = .ok text := by
  rw [encodeText_length] at h
  have hlength : readI32 (front ++ (encodeText text ++ rest)) front.length =
      .ok (((toUtf8 text).length + 1 : ℕ) : ℤ) := by
    rw [encodeText, List.append_assoc]
    exact readI32_behind _ _ (by omega)
  have hslice : slice? (front ++ (encodeText text ++ rest)) (front.length + 4)
      (front.length + 4 + ((toUtf8 text).length + 1)) = some (toUtf8 text ++ [0]) := by
    have hbehind := slice?_behind (front ++ leBytes 4 ((toUtf8 text).length + 1)) rest
      (toUtf8 text ++ [0])
    simp only [List.length_append, leBytes_length, List.length_singleton] at hbehind
    rw [encodeText, List.append_assoc, ← List.append_assoc front]
    exact hbehind
  unfold readBsonString
  rw [hlength]
  dsimp only
  rw [if_neg (by omega), Int.toNat_natCast, hslice]
  dsimp only
  rw [if_neg (by simp), List.dropLast_concat, fromUtf8_toUtf8]

/-- A binary value: its length, its subtype, and its data. -/
def encodeBinary (subtype : UInt8) (data : Bytes) : Bytes :=
  leBytes 4 data.length ++ subtype :: data

theorem readBsonBinary_behind {subtype : UInt8} {data : Bytes} (h : data.length < 2 ^ 31) :
    readBsonBinary (front ++ (encodeBinary subtype data ++ rest)) front.length = .ok data := by
  have hlength : readI32 (front ++ (encodeBinary subtype data ++ rest)) front.length =
      .ok (data.length : ℤ) := by
    rw [encodeBinary, List.append_assoc]
    exact readI32_behind _ _ h
  have hslice : slice? (front ++ (encodeBinary subtype data ++ rest)) (front.length + 5)
      (front.length + 5 + data.length) = some data := by
    have hbehind := slice?_behind (front ++ (leBytes 4 data.length ++ [subtype])) rest data
    simp only [List.length_append, leBytes_length, List.length_singleton] at hbehind
    rw [encodeBinary, ← hbehind]
    simp only [List.append_assoc, List.cons_append, List.nil_append]
  unfold readBsonBinary
  rw [hlength]
  dsimp only
  rw [if_neg (by omega), Int.toNat_natCast, hslice]

end Behind

end MongoDam.Protocol
