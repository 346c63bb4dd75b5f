import MongoDam.Lib.Bytes

/-!
# UTF-8

The bytes of a text are those of its characters, one after the other, and they are
read back as the same text. A character below 128 is a single byte, and all bytes of
the other characters are at least 128, so that such a character occurs in a text
exactly where its byte occurs.
-/

namespace MongoDam.Lib

/-- The bytes of a list of characters. -/
theorem toUtf8_ofList (chars : List Char) :
    toUtf8 (String.ofList chars) = chars.flatMap String.utf8EncodeChar := by
  simp [toUtf8, List.utf8Encode]

/-- The bytes of a text, character by character. -/
theorem toUtf8_eq (text : String) : toUtf8 text = text.toList.flatMap String.utf8EncodeChar := by
  rw [← toUtf8_ofList, String.ofList_toList]

/-- A text is read back from its bytes. -/
@[simp] theorem fromUtf8_toUtf8 (text : String) : fromUtf8 (toUtf8 text) = some text := by
  have hbytes : (⟨(toUtf8 text).toArray⟩ : ByteArray) = text.toByteArray := by
    simp [toUtf8]
  unfold fromUtf8
  rw [hbytes, String.fromUTF8?, dif_pos text.isValidUTF8]
  rfl

/-- Different texts have different bytes. -/
theorem toUtf8_inj {a b : String} (h : toUtf8 a = toUtf8 b) : a = b := by
  have hread := congrArg fromUtf8 h
  rw [fromUtf8_toUtf8, fromUtf8_toUtf8] at hread
  exact Option.some.inj hread

theorem length_toUtf8 (text : String) :
    (toUtf8 text).length = (text.toList.map Char.utf8Size).sum := by
  simp [toUtf8_eq, List.length_flatMap]

/-! ### ASCII -/

/-- A character below 128 is a single byte. -/
theorem utf8EncodeChar_of_lt {c : Char} (h : c.toNat < 128) :
    String.utf8EncodeChar c = [UInt8.ofNat c.toNat] := by
  have hle : c.val.toNat ≤ 0x7f := by
    change c.toNat ≤ 127
    omega
  unfold String.utf8EncodeChar
  rw [if_pos hle]
  rfl

/-- The bytes of a character from 128 on are at least 128. -/
theorem le_of_mem_utf8EncodeChar {c : Char} (h : 128 ≤ c.toNat) {b : UInt8}
    (hb : b ∈ String.utf8EncodeChar c) : 128 ≤ b.toNat := by
  have hgt : ¬ c.val.toNat ≤ 0x7f := by
    change ¬ c.toNat ≤ 127
    omega
  unfold String.utf8EncodeChar at hb
  rw [if_neg hgt] at hb
  split at hb
  · simp only [List.mem_cons, List.not_mem_nil, or_false] at hb
    obtain rfl | rfl := hb <;> simp only [UInt8.toNat_ofNat'] <;> omega
  · split at hb
    · simp only [List.mem_cons, List.not_mem_nil, or_false] at hb
      obtain rfl | rfl | rfl := hb <;> simp only [UInt8.toNat_ofNat'] <;> omega
    · simp only [List.mem_cons, List.not_mem_nil, or_false] at hb
      obtain rfl | rfl | rfl | rfl := hb <;> simp only [UInt8.toNat_ofNat'] <;> omega

/-- A byte below 128 occurs in the bytes of a text exactly when its character occurs in it. -/
theorem mem_toUtf8_iff {text : String} {b : UInt8} (hb : b.toNat < 128) :
    b ∈ toUtf8 text ↔ Char.ofNat b.toNat ∈ text.toList := by
  have hvalid : b.toNat.isValidChar := Or.inl (by omega)
  have htoNat : (Char.ofNat b.toNat).toNat = b.toNat := by
    rw [Char.ofNat, dif_pos hvalid]
    rfl
  rw [toUtf8_eq, List.mem_flatMap]
  constructor
  · rintro ⟨c, hc, hmem⟩
    have hlt : c.toNat < 128 := by
      refine Nat.lt_of_not_le fun hge => ?_
      have := le_of_mem_utf8EncodeChar hge hmem
      omega
    rw [utf8EncodeChar_of_lt hlt, List.mem_singleton] at hmem
    have heq : b.toNat = c.toNat := by
      rw [hmem, UInt8.toNat_ofNat']
      omega
    rwa [heq, Char.ofNat_toNat]
  · intro hmem
    refine ⟨_, hmem, ?_⟩
    rw [utf8EncodeChar_of_lt (by omega), htoNat, UInt8.ofNat_toNat, List.mem_singleton]

end MongoDam.Lib
