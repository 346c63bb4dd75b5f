import Mathlib.Data.List.TakeDrop
import MongoDam.Lib.Bytes

/-!
# Lines, hexadecimal numbers and addresses

Operations on texts as lists of characters: lines, the parts before and behind a
separator, unsigned numbers in hexadecimal, and the standard texts of IPv4 and IPv6
addresses.
-/

namespace MongoDam.Lib

/-- `str::strip_suffix` of one character. -/
def stripLast (last : Char) (text : List Char) : Option (List Char) :=
  if text.getLast? = some last then some text.dropLast else none

/-- `str::lines`: a line feed ends a line, with a carriage return before it; what follows the
last line feed is a line when it is not empty. -/
def lines (text : List Char) : List (List Char) :=
  let pieces := text.splitOn '\n'
  pieces.dropLast.map (fun line => (stripLast '\r' line).getD line) ++
    (pieces.getLast?.filter (· ≠ [])).toList

/-- `str::split_once`. -/
def splitOnce (separator : Char) (text : List Char) : Option (List Char × List Char) :=
  match text.span (· ≠ separator) with
  | (_, []) => none
  | (before, _ :: behind) => some (before, behind)

/-- The value of a hexadecimal digit of either case. -/
def hexDigit? (c : Char) : Option ℕ :=
  if '0' ≤ c ∧ c ≤ '9' then some (c.toNat - '0'.toNat)
  else if 'a' ≤ c ∧ c ≤ 'f' then some (c.toNat - 'a'.toNat + 10)
  else if 'A' ≤ c ∧ c ≤ 'F' then some (c.toNat - 'A'.toNat + 10)
  else none

/-- `from_str_radix(_, 16)` of an unsigned integer: digits, possibly behind a plus sign. -/
def fromStrRadix16 (bits : ℕ) (text : List Char) : Option ℕ :=
  let digits := match text with
    | '+' :: rest => rest
    | _ => text
  if digits = [] then none
  else
    ((digits.mapM hexDigit?).map (·.foldl (fun value digit => value * 16 + digit) 0)).filter
      (· < 2 ^ bits)

/-- Pairs of hexadecimal digits of either case, as bytes. -/
def decodeHex : List Char → Option Bytes
  | [] => some []
  | [_] => none
  | high :: low :: rest => do
    let high ← hexDigit? high
    let low ← hexDigit? low
    let bytes ← decodeHex rest
    return UInt8.ofNat (high * 16 + low) :: bytes

/-! ### Addresses -/

/-- The text of an IPv4 address: its bytes in decimal, between dots. -/
def ipv4Text (address : Bytes) : String :=
  ".".intercalate (address.map fun byte => toString byte.toNat)

/-- The 16-bit segments of an address, in network order. -/
def segments : Bytes → List ℕ
  | high :: low :: rest => (high.toNat * 256 + low.toNat) :: segments rest
  | _ => []

/-- Segments in hexadecimal without padding, between colons. -/
def segmentsText (parts : List ℕ) : String :=
  ":".intercalate (parts.map fun part => String.ofList (Nat.toDigits 16 part))

/-- Start and length of the first of the longest runs of zeros. `position` is that of the first
segment, `current` the run before it and `longest` the longest run so far. -/
def longestZeros (position : ℕ) (current longest : ℕ × ℕ) : List ℕ → ℕ × ℕ
  | [] => longest
  | part :: rest =>
    if part = 0 then
      let current := (if current.2 = 0 then position else current.1, current.2 + 1)
      longestZeros (position + 1) current (if longest.2 < current.2 then current else longest) rest
    else longestZeros (position + 1) (0, 0) longest rest

/-- The text of an IPv6 address: a mapped IPv4 address ends in its own text, and otherwise the
longest run of two or more zero segments is left out. -/
def ipv6Text (address : Bytes) : String :=
  if address.take 12 = List.replicate 10 0 ++ [0xff, 0xff] then
    "::ffff:" ++ ipv4Text (address.drop 12)
  else
    let parts := segments address
    let (start, length) := longestZeros 0 (0, 0) (0, 0) parts
    if 1 < length then
      segmentsText (parts.take start) ++ "::" ++ segmentsText (parts.drop (start + length))
    else segmentsText parts

example : ipv6Text (List.replicate 15 0 ++ [1]) = "::1" := by decide +kernel

/-! ### Hexadecimal digits -/

/-- What holds of every ASCII character holds of a character below 128. -/
theorem forall_ascii {P : Char → Prop} (h : ∀ n < 128, P (Char.ofNat n)) {c : Char}
    (hc : c.toNat < 128) : P c := by
  have hofNat := h c.toNat hc
  rwa [Char.ofNat_toNat] at hofNat

theorem hexDigit?_lt {c : Char} {value : ℕ} (h : hexDigit? c = some value) :
    c.toNat < 128 := by
  have hle : ∀ d : Char, c ≤ d → c.toNat ≤ d.toNat := fun d hd => Char.le_def.mp hd
  unfold hexDigit? at h
  split at h
  · next hdigit => exact Nat.lt_of_le_of_lt (hle _ hdigit.2) (by decide)
  · split at h
    · next hlower => exact Nat.lt_of_le_of_lt (hle _ hlower.2) (by decide)
    · split at h
      · next hupper => exact Nat.lt_of_le_of_lt (hle _ hupper.2) (by decide)
      · cases h

/-- The value of a digit is read from it. -/
theorem hexDigit?_hexDigit : ∀ value < 16, hexDigit? (hexDigit value) = some value := by
  decide

private theorem hexDigit_of_hexDigit?_ascii : ∀ n < 128, ∀ value, hexDigit? (Char.ofNat n) =
    some value → value < 16 ∧ ((Char.ofNat n).isUpper = false → hexDigit value = Char.ofNat n) := by
  have hall : ∀ n < 128, (hexDigit? (Char.ofNat n)).all (fun value =>
      value < 16 ∧ ((Char.ofNat n).isUpper = false → hexDigit value = Char.ofNat n)) := by
    decide +kernel
  intro n hn value hvalue
  have hn := hall n hn
  rw [hvalue] at hn
  simpa only [Option.all_some, decide_eq_true_eq] using hn

/-- A digit that is not in upper case is the one its value is written as. -/
theorem hexDigit_of_hexDigit? {c : Char} {value : ℕ} (h : hexDigit? c = some value) :
    value < 16 ∧ (c.isUpper = false → hexDigit value = c) :=
  forall_ascii (P := fun c => ∀ value, hexDigit? c = some value → value < 16 ∧
    (c.isUpper = false → hexDigit value = c)) hexDigit_of_hexDigit?_ascii (hexDigit?_lt h) value h

/-- Bytes are read back from their hexadecimal text. -/
theorem decodeHex_encodeHex (bytes : Bytes) : decodeHex (encodeHex bytes).toList = some bytes := by
  rw [encodeHex, String.toList_ofList]
  induction bytes with
  | nil => rfl
  | cons b bytes ih =>
    have hb := b.toNat_lt
    have hbyte : UInt8.ofNat (b.toNat / 16 * 16 + b.toNat % 16) = b := by
      rw [Nat.div_add_mod', UInt8.ofNat_toNat]
    rw [List.flatMap_cons, List.cons_append, List.cons_append, List.nil_append, decodeHex,
      hexDigit?_hexDigit _ (by omega), hexDigit?_hexDigit _ (by omega), ih]
    exact congrArg (fun first => some (first :: bytes)) hbyte

/-- Digits that are not in upper case are what their bytes are written as. -/
theorem encodeHex_of_decodeHex {digits : List Char} {bytes : Bytes}
    (h : decodeHex digits = some bytes) (hlower : ∀ c ∈ digits, c.isUpper = false) :
    (encodeHex bytes).toList = digits := by
  rw [encodeHex, String.toList_ofList]
  fun_induction decodeHex digits generalizing bytes with
  | case1 =>
    cases h
    rfl
  | case2 => cases h
  | case3 high low rest ih =>
    simp only [Option.bind_eq_bind, Option.pure_def, Option.bind_eq_some_iff,
      Option.some.injEq] at h
    obtain ⟨highValue, hhigh, lowValue, hlow, tail, htail, rfl⟩ := h
    obtain ⟨hhighLt, hhighEq⟩ := hexDigit_of_hexDigit? hhigh
    obtain ⟨hlowLt, hlowEq⟩ := hexDigit_of_hexDigit? hlow
    have hbyte : (UInt8.ofNat (highValue * 16 + lowValue)).toNat = highValue * 16 + lowValue := by
      rw [UInt8.toNat_ofNat']
      omega
    have hdiv : (highValue * 16 + lowValue) / 16 = highValue := by omega
    have hmod : (highValue * 16 + lowValue) % 16 = lowValue := by omega
    rw [List.flatMap_cons, hbyte, hdiv, hmod, hhighEq (hlower _ (by simp)),
      hlowEq (hlower _ (by simp)), ih htail fun c hc => hlower c (by simp [hc])]
    rfl

/-- An even number of digits denotes bytes. -/
theorem decodeHex_isSome {digits : List Char} (hdigits : ∀ c ∈ digits, (hexDigit? c).isSome)
    (heven : digits.length % 2 = 0) : (decodeHex digits).isSome := by
  fun_induction decodeHex digits with
  | case1 => rfl
  | case2 => cases heven
  | case3 high low rest ih =>
    obtain ⟨highValue, hhigh⟩ := Option.isSome_iff_exists.mp (hdigits high (by simp))
    obtain ⟨lowValue, hlow⟩ := Option.isSome_iff_exists.mp (hdigits low (by simp))
    have hrest : (decodeHex rest).isSome := by
      refine ih (fun c hc => hdigits c (by simp [hc])) ?_
      simp only [List.length_cons] at heven
      omega
    obtain ⟨tail, htail⟩ := Option.isSome_iff_exists.mp hrest
    simp [hhigh, hlow, htail]

/-! ### Numbers in hexadecimal -/

/-- The value of hexadecimal digits, the most significant one first. -/
def hexValue? (digits : List Char) : Option ℕ :=
  (digits.mapM hexDigit?).map (·.foldl (fun value digit => value * 16 + digit) 0)

theorem hexValue?_append {digits : List Char} {c : Char} {value digit : ℕ}
    (hvalue : hexValue? digits = some value) (hdigit : hexDigit? c = some digit) :
    hexValue? (digits ++ [c]) = some (value * 16 + digit) := by
  obtain ⟨values, hvalues, rfl⟩ := Option.map_eq_some_iff.mp hvalue
  have hlast : [c].mapM hexDigit? = some [digit] := by simp [hdigit]
  rw [hexValue?, List.mapM_append, hvalues, hlast]
  simp

/-- What has a value consists of digits. -/
theorem isSome_of_hexValue? {digits : List Char} {value : ℕ}
    (h : hexValue? digits = some value) : ∀ c ∈ digits, (hexDigit? c).isSome := by
  obtain ⟨values, hvalues, -⟩ := Option.map_eq_some_iff.mp h
  clear h
  induction digits generalizing values with
  | nil => simp
  | cons c digits ih =>
    rw [List.mapM_cons] at hvalues
    obtain ⟨digit, hdigit, hvalues⟩ := Option.bind_eq_some_iff.mp hvalues
    obtain ⟨rest, hrest, -⟩ := Option.bind_eq_some_iff.mp hvalues
    exact List.forall_mem_cons.mpr ⟨hdigit ▸ rfl, ih rest hrest⟩

/-- A number is read from digits that denote it, if it is not too large. -/
theorem fromStrRadix16_eq {bits value : ℕ} {digits : List Char} (hdigits : digits ≠ [])
    (hvalue : hexValue? digits = some value) (hlt : value < 2 ^ bits) :
    fromStrRadix16 bits digits = some value := by
  unfold fromStrRadix16
  dsimp only
  split
  · next rest =>
    have hplus := isSome_of_hexValue? hvalue '+' (List.mem_cons_self ..)
    cases hplus
  · rw [if_neg hdigits, ← hexValue?, hvalue, Option.filter_some, if_pos (by simpa using hlt)]

/-- An upper-case hexadecimal digit. -/
def upperHexDigit (value : ℕ) : Char := "0123456789ABCDEF".toList.getD value '0'

/-- The last digits of a number in upper-case hexadecimal, at a fixed width. -/
def upperHex : ℕ → ℕ → List Char
  | 0, _ => []
  | width + 1, value => upperHex width (value / 16) ++ [upperHexDigit (value % 16)]

theorem hexDigit?_upperHexDigit : ∀ value < 16, hexDigit? (upperHexDigit value) = some value := by
  decide

@[simp] theorem length_upperHex (width value : ℕ) : (upperHex width value).length = width := by
  induction width generalizing value with
  | zero => rfl
  | succ width ih => rw [upperHex, List.length_append, ih, List.length_singleton]

/-- A number that fits the width is the value of its digits. -/
theorem hexValue?_upperHex {width value : ℕ} (h : value < 16 ^ width) :
    hexValue? (upperHex width value) = some value := by
  induction width generalizing value with
  | zero =>
    rw [Nat.pow_zero] at h
    obtain rfl : value = 0 := by omega
    rfl
  | succ width ih =>
    rw [Nat.pow_succ] at h
    have hlast := hexDigit?_upperHexDigit (value % 16) (by omega)
    rw [upperHex, hexValue?_append (ih (by omega)) hlast, Nat.div_add_mod']

/-- The digits without padding have the value of the number as well. -/
theorem hexValue?_toDigits (value : ℕ) : hexValue? (Nat.toDigits 16 value) = some value := by
  induction value using Nat.strongRecOn with
  | _ value ih =>
  have hdigit : ∀ digit < 16, hexDigit? digit.digitChar = some digit := by decide
  by_cases hlt : value < 16
  · have hone : [value.digitChar].mapM hexDigit? = some [value] := by simp [hdigit value hlt]
    rw [Nat.toDigits_of_lt_base hlt, hexValue?, hone]
    simp
  · rw [Nat.toDigits_of_base_le (by decide) (Nat.le_of_not_lt hlt),
      hexValue?_append (ih (value / 16) (by omega)) (hdigit _ (Nat.mod_lt _ (by decide))),
      Nat.div_add_mod']

/-! ### Parts of a text -/

/-- A map over parts that are joined by a separator. -/
theorem map_intercalate {α β : Type} (f : α → β) (separator : List α) (parts : List (List α)) :
    (separator.intercalate parts).map f =
      (separator.map f).intercalate (parts.map (List.map f)) := by
  induction parts with
  | nil => rfl
  | cons part parts ih =>
    cases parts with
    | nil => simp
    | cons next parts =>
      rw [List.intercalate_cons_cons, List.map_append, List.map_append, ih]
      simp only [List.map_cons, List.intercalate_cons_cons]

/-- A text is split at the first separator. -/
theorem splitOnce_append {separator : Char} {before : List Char} (h : separator ∉ before)
    (behind : List Char) :
    splitOnce separator (before ++ separator :: behind) = some (before, behind) := by
  have hspan : (before ++ separator :: behind).span (· ≠ separator) =
      (before, separator :: behind) := by
    have hbefore : ∀ c ∈ before, decide (c ≠ separator) = true := by
      intro c hc
      exact decide_eq_true fun heq => h (heq ▸ hc)
    rw [List.span_eq_takeWhile_dropWhile, List.takeWhile_append_of_pos hbefore,
      List.dropWhile_append_of_pos hbefore]
    simp
  rw [splitOnce, hspan]

/-- A line ends at the first line feed. -/
theorem lines_append {line : List Char} (h : '\n' ∉ line) (text : List Char) :
    lines (line ++ '\n' :: text) = (stripLast '\r' line).getD line :: lines text := by
  have hpieces := List.splitOn_ne_nil '\n' text
  unfold lines
  rw [List.splitOn_append_cons_self_of_not_mem h]
  dsimp only
  rw [List.dropLast_cons_of_ne_nil hpieces, List.map_cons, List.cons_append,
    List.getLast?_cons_of_ne_nil hpieces]

end MongoDam.Lib
