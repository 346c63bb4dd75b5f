import Mathlib.Data.List.Basic
import MongoDam.Lib.Text
import MongoDam.Lib.Utf8
import MongoDam.Pipeline.Delivery

/-!
# Object keys

The key of an object in S3 is made of the identifiers, the date and the hour of a
batch. Identifiers are percent-encoded, so that no separator of the key occurs in
them, and everything the key is made of can be told from it.
-/

namespace MongoDam.Pipeline

open Lib Schema

/-! ### Segments -/

/-- Percent-decoding: a percent sign and two digits stand for a byte, other characters for their
own bytes. -/
def percentDecode : List Char → Option Bytes
  | '%' :: high :: low :: rest => do
    let high ← hexDigit? high
    let low ← hexDigit? low
    let bytes ← percentDecode rest
    return UInt8.ofNat (high * 16 + low) :: bytes
  | '%' :: _ => none
  | c :: rest => (percentDecode rest).map (String.utf8EncodeChar c ++ ·)
  | [] => some []

/-- A percent sign and two digits are read as their byte. -/
theorem percentDecode_escape {high low : Char} {highValue lowValue : ℕ}
    (hhigh : hexDigit? high = some highValue) (hlow : hexDigit? low = some lowValue)
    (rest : List Char) :
    percentDecode ('%' :: high :: low :: rest) =
      (percentDecode rest).map (UInt8.ofNat (highValue * 16 + lowValue) :: ·) := by
  rw [percentDecode, hhigh, hlow]
  cases percentDecode rest <;> rfl

theorem percentDecode_of_ne {c : Char} (h : c ≠ '%') (rest : List Char) :
    percentDecode (c :: rest) = (percentDecode rest).map (String.utf8EncodeChar c ++ ·) := by
  rw [percentDecode]
  all_goals simp [h]

private theorem hexDigit?_upper : ∀ value < 16, hexDigit? (hexDigit value) = some value := by
  decide

/-- A byte that stands for itself is that of an ASCII character other than the percent sign. -/
private theorem kept_byte : ∀ n < 256,
    ((Char.ofNat n).isAlphanum ∨ Char.ofNat n ∈ ['-', '_', '.']) →
      n < 128 ∧ Char.ofNat n ≠ '%' ∧ (Char.ofNat n).toNat = n := by
  decide +kernel

/-- An encoded byte is read back. -/
theorem percentDecode_encodeS3KeyByte (byte : UInt8) (rest : List Char) :
    percentDecode (encodeS3KeyByte byte ++ rest) = (percentDecode rest).map (byte :: ·) := by
  have hbyte := byte.toNat_lt
  unfold encodeS3KeyByte
  dsimp only
  split
  · next hkept =>
    obtain ⟨hascii, hpercent, htoNat⟩ := kept_byte byte.toNat hbyte hkept
    rw [List.singleton_append, percentDecode_of_ne hpercent,
      utf8EncodeChar_of_lt (by omega), htoNat, UInt8.ofNat_toNat]
    rfl
  · have hvalue : UInt8.ofNat (byte.toNat / 16 * 16 + byte.toNat % 16) = byte := by
      rw [Nat.div_add_mod', UInt8.ofNat_toNat]
    rw [List.cons_append, List.cons_append, List.cons_append, List.nil_append,
      percentDecode_escape (hexDigit?_upper _ (by omega)) (hexDigit?_upper _ (by omega)), hvalue]

/-- A segment is read back as the bytes of what it was made of. -/
theorem percentDecode_encodeS3KeySegment (value : String) :
    percentDecode (encodeS3KeySegment value).toList = some (toUtf8 value) := by
  rw [encodeS3KeySegment, String.toList_ofList]
  induction toUtf8 value with
  | nil => rfl
  | cons byte bytes ih =>
    rw [List.flatMap_cons, percentDecode_encodeS3KeyByte, ih]
    rfl

theorem encodeS3KeySegment_injective : Function.Injective encodeS3KeySegment := by
  intro a b h
  have hread := congrArg (fun segment => percentDecode segment.toList) h
  simp only [percentDecode_encodeS3KeySegment] at hread
  exact toUtf8_inj (Option.some.inj hread)

private theorem encodeS3KeyByte_plain :
    ∀ n < 256, (encodeS3KeyByte (UInt8.ofNat n)).all fun c => c ≠ '/' ∧ c ≠ '=' := by
  decide +kernel

/-- No character of a segment separates the parts of a key. -/
theorem encodeS3KeySegment_plain {value : String} {c : Char}
    (h : c ∈ (encodeS3KeySegment value).toList) : c ≠ '/' ∧ c ≠ '=' := by
  rw [encodeS3KeySegment, String.toList_ofList] at h
  obtain ⟨byte, -, hc⟩ := List.mem_flatMap.mp h
  have hplain := encodeS3KeyByte_plain byte.toNat byte.toNat_lt
  rw [UInt8.ofNat_toNat] at hplain
  exact of_decide_eq_true (List.all_eq_true.mp hplain c hc)

/-! ### Numbers -/

theorem padded_toList (width number : ℕ) :
    (padded width number).toList =
      List.replicate (width - (toString number).length) '0' ++ Nat.toDigits 10 number := by
  simp [padded]

/-- A number is read from its digits, whatever zeros they begin with. -/
theorem ofDigitChars_padded (width number : ℕ) :
    Nat.ofDigitChars 10 (padded width number).toList 0 = number := by
  rw [padded_toList, Nat.ofDigitChars_append, Nat.ofDigitChars_replicate_zero, Nat.mul_zero,
    Nat.ofDigitChars_ten_toDigits]

theorem padded_inj {width m n : ℕ} (h : (padded width m).toList = (padded width n).toList) :
    m = n := by
  have hread := congrArg (fun digits => Nat.ofDigitChars 10 digits 0) h
  simpa only [ofDigitChars_padded] using hread

/-- A padded number consists of digits. -/
theorem isDigit_of_mem_padded {width number : ℕ} {c : Char}
    (h : c ∈ (padded width number).toList) : c.isDigit := by
  rw [padded_toList] at h
  rcases List.mem_append.mp h with hzero | hdigit
  · rw [List.eq_of_mem_replicate hzero]
    decide
  · exact Nat.isDigit_of_mem_toDigits (by decide) (by decide) hdigit

theorem notMem_padded {width number : ℕ} {c : Char} (hc : c.isDigit = false) :
    c ∉ (padded width number).toList := by
  intro hmem
  rw [isDigit_of_mem_padded hmem] at hc
  cases hc

theorem slash_notMem_paddedSigned {width : ℕ} {number : ℤ} :
    '/' ∉ (paddedSigned width number).toList := by
  unfold paddedSigned
  split
  · exact notMem_padded (by decide)
  · rw [String.toList_append, List.mem_append, not_or]
    exact ⟨by decide, notMem_padded (by decide)⟩

theorem paddedSigned_inj {width : ℕ} {m n : ℤ}
    (h : (paddedSigned width m).toList = (paddedSigned width n).toList) : m = n := by
  -- Only negative numbers begin with a sign.
  have hsign : ∀ {wide narrow a b : ℕ},
      (padded wide a).toList ≠ ("-" ++ padded narrow b).toList := by
    intro wide narrow a b heq
    have hmem : '-' ∈ (padded wide a).toList := by
      rw [heq, String.toList_append]
      exact List.mem_append_left _ (by decide)
    exact notMem_padded (by decide) hmem
  unfold paddedSigned at h
  split at h
  · split at h
    · have hnat := padded_inj h
      omega
    · exact absurd h hsign
  · split at h
    · exact absurd h.symm hsign
    · rw [String.toList_append, String.toList_append] at h
      have hnat := padded_inj (List.append_cancel_left h)
      omega

/-! ### Keys -/

/-- The date in a key. -/
def dateText (hour : CivilHour) : String :=
  paddedSigned 4 hour.year ++ "-" ++ padded 2 hour.month ++ "-" ++ padded 2 hour.day

/-- What stands before the first occurrence of a separator can be told from what stands behind. -/
theorem append_cons_inj_first {a b x y : List α} {separator : α} (ha : separator ∉ a)
    (hb : separator ∉ b) (h : a ++ separator :: x = b ++ separator :: y) : a = b ∧ x = y := by
  induction a generalizing b with
  | nil =>
    cases b with
    | nil => exact ⟨rfl, (List.cons_eq_cons.mp h).2⟩
    | cons head tail => exact absurd (by rw [(List.cons_eq_cons.mp h).1]; simp) hb
  | cons first rest ih =>
    cases b with
    | nil => exact absurd (by rw [(List.cons_eq_cons.mp h).1]; simp) ha
    | cons head tail =>
      obtain ⟨hhead, htail⟩ := List.cons_eq_cons.mp h
      obtain ⟨hrest, hxy⟩ := ih (fun hmem => ha (List.mem_cons_of_mem _ hmem))
        (fun hmem => hb (List.mem_cons_of_mem _ hmem)) htail
      exact ⟨by rw [hhead, hrest], hxy⟩

/-- What stands before the last occurrence of a separator can be told from what stands behind. -/
theorem append_cons_inj_last {a b x y : List α} {separator : α} (hx : separator ∉ x)
    (hy : separator ∉ y) (h : a ++ separator :: x = b ++ separator :: y) : a = b ∧ x = y := by
  have hreverse := congrArg List.reverse h
  simp only [List.reverse_append, List.reverse_cons, List.append_assoc,
    List.singleton_append] at hreverse
  obtain ⟨hend, hstart⟩ := append_cons_inj_first (fun hmem => hx (List.mem_reverse.mp hmem))
    (fun hmem => hy (List.mem_reverse.mp hmem)) hreverse
  exact ⟨List.reverse_injective hstart, List.reverse_injective hend⟩

theorem dateText_toList (hour : CivilHour) :
    (dateText hour).toList = ((paddedSigned 4 hour.year).toList ++
      '-' :: (padded 2 hour.month).toList) ++ '-' :: (padded 2 hour.day).toList := by
  have hdash : "-".toList = ['-'] := rfl
  simp only [dateText, String.toList_append, hdash, List.append_assoc, List.cons_append,
    List.nil_append]

theorem slash_notMem_dateText (hour : CivilHour) : '/' ∉ (dateText hour).toList := by
  have hslash : ∀ {width number : ℕ}, '/' ∉ (padded width number).toList :=
    notMem_padded (by decide)
  rw [dateText_toList, List.mem_append, List.mem_append, List.mem_cons, List.mem_cons]
  rintro ((hyear | hdash | hmonth) | hdash | hday)
  · exact slash_notMem_paddedSigned hyear
  · exact absurd hdash (by decide)
  · exact hslash hmonth
  · exact absurd hdash (by decide)
  · exact hslash hday

/-- A date can be told from its text. -/
theorem dateText_inj {a b : CivilHour} (h : (dateText a).toList = (dateText b).toList) :
    a.year = b.year ∧ a.month = b.month ∧ a.day = b.day := by
  have hdash : ∀ {width number : ℕ}, '-' ∉ (padded width number).toList :=
    notMem_padded (by decide)
  rw [dateText_toList, dateText_toList] at h
  obtain ⟨hmonths, hday⟩ := append_cons_inj_last hdash hdash h
  obtain ⟨hyear, hmonth⟩ := append_cons_inj_last hdash hdash hmonths
  exact ⟨paddedSigned_inj hyear, padded_inj hmonth, padded_inj hday⟩

/-- A part of a key ends where the label of the next part begins. -/
theorem part_inj {a b x y lead : List Char} (hlead : ∃ label, lead = '/' :: label) (ha : '/' ∉ a)
    (hb : '/' ∉ b) (h : a ++ (lead ++ x) = b ++ (lead ++ y)) : a = b ∧ x = y := by
  obtain ⟨label, rfl⟩ := hlead
  obtain ⟨hpart, hrest⟩ := append_cons_inj_first ha hb h
  exact ⟨hpart, List.append_cancel_left hrest⟩

theorem slash_notMem_encodeS3KeySegment (value : String) :
    '/' ∉ (encodeS3KeySegment value).toList :=
  fun hmem => (encodeS3KeySegment_plain hmem).1 rfl

theorem encodeS3KeySegment_toList_inj {a b : String}
    (h : (encodeS3KeySegment a).toList = (encodeS3KeySegment b).toList) : a = b :=
  encodeS3KeySegment_injective (String.toList_inj.mp h)

/-- A key part by part. -/
theorem s3ObjectKey_toList (encoders : Encoders) (destination : S3DestinationConfig)
    (batch : DamBatch) :
    (s3ObjectKey encoders destination batch).toList =
      (normalizedS3Prefix destination.keyPrefix).toList ++ ("/customer_id=".toList ++
      ((encodeS3KeySegment batch.customerId).toList ++ ("/tenant_id=".toList ++
      ((encodeS3KeySegment batch.tenantId).toList ++ ("/regional_cell_id=".toList ++
      ((encodeS3KeySegment batch.regionalCellId).toList ++ ("/source_id=".toList ++
      ((encodeS3KeySegment batch.sourceId).toList ++ ("/date=".toList ++
      ((dateText (encoders.calendar batch.createdAt)).toList ++ ("/hour=".toList ++
      ((padded 2 (encoders.calendar batch.createdAt).hour).toList ++ ("/".toList ++
      ((encodeS3KeySegment batch.batchId).toList ++ ".ndjson.gz".toList)))))))))))))) := by
  unfold s3ObjectKey dateText
  simp only [String.toList_append, List.append_assoc]

/-- Two batches have one key only if they are of one origin, hour and id. -/
theorem eq_of_s3ObjectKey {encoders encoders' : Encoders} {destination : S3DestinationConfig}
    {batch batch' : DamBatch}
    (h : s3ObjectKey encoders destination batch = s3ObjectKey encoders' destination batch') :
    batch.customerId = batch'.customerId ∧ batch.tenantId = batch'.tenantId ∧
      batch.regionalCellId = batch'.regionalCellId ∧ batch.sourceId = batch'.sourceId ∧
      encoders.calendar batch.createdAt = encoders'.calendar batch'.createdAt ∧
      batch.batchId = batch'.batchId := by
  have hsegment := slash_notMem_encodeS3KeySegment
  have hkey := congrArg String.toList h
  rw [s3ObjectKey_toList, s3ObjectKey_toList] at hkey
  have hparts := List.append_cancel_left (List.append_cancel_left hkey)
  obtain ⟨hcustomer, hparts⟩ := part_inj ⟨_, rfl⟩ (hsegment _) (hsegment _) hparts
  obtain ⟨htenant, hparts⟩ := part_inj ⟨_, rfl⟩ (hsegment _) (hsegment _) hparts
  obtain ⟨hcell, hparts⟩ := part_inj ⟨_, rfl⟩ (hsegment _) (hsegment _) hparts
  obtain ⟨hsource, hparts⟩ := part_inj ⟨_, rfl⟩ (hsegment _) (hsegment _) hparts
  obtain ⟨hdate, hparts⟩ := part_inj ⟨_, rfl⟩ (slash_notMem_dateText _)
    (slash_notMem_dateText _) hparts
  obtain ⟨hhour, hparts⟩ := part_inj ⟨_, rfl⟩ (notMem_padded (by decide))
    (notMem_padded (by decide)) hparts
  have hbatch := List.append_cancel_right hparts
  obtain ⟨hyear, hmonth, hday⟩ := dateText_inj hdate
  exact ⟨encodeS3KeySegment_toList_inj hcustomer, encodeS3KeySegment_toList_inj htenant,
    encodeS3KeySegment_toList_inj hcell, encodeS3KeySegment_toList_inj hsource,
    CivilHour.ext hyear hmonth hday (padded_inj hhour), encodeS3KeySegment_toList_inj hbatch⟩

/-- Keys and segments do not collide. The calendar may read the times of the batches at different
offsets. -/
theorem s3ObjectKey_collision_free :
    (∀ (encoders encoders' : Encoders) (destination : S3DestinationConfig)
        (batch batch' : DamBatch),
      s3ObjectKey encoders destination batch = s3ObjectKey encoders' destination batch' →
        batch.customerId = batch'.customerId ∧ batch.tenantId = batch'.tenantId ∧
        batch.regionalCellId = batch'.regionalCellId ∧ batch.sourceId = batch'.sourceId ∧
        encoders.calendar batch.createdAt = encoders'.calendar batch'.createdAt ∧
        batch.batchId = batch'.batchId) ∧
    Function.Injective encodeS3KeySegment ∧
    ∀ value, '/' ∉ (encodeS3KeySegment value).toList ∧ '=' ∉ (encodeS3KeySegment value).toList ∧
      percentDecode (encodeS3KeySegment value).toList = some (toUtf8 value) := by
  refine ⟨fun _ _ _ _ _ h => eq_of_s3ObjectKey h, encodeS3KeySegment_injective, fun value => ?_⟩
  exact ⟨slash_notMem_encodeS3KeySegment value, fun hmem => (encodeS3KeySegment_plain hmem).2 rfl,
    percentDecode_encodeS3KeySegment value⟩

/-- A calendar that counts hours from the epoch on, for the first day. -/
def firstDayEncoders : Encoders where
  serde := .ofDocument .null 0
  gzip := id
  calendar time := ⟨1970, 1, 1, (time / 3600000000000).toNat⟩

/-- A batch with separators in its identifiers. -/
def separatorBatch (createdAt : ℤ) : DamBatch where
  schemaVersion := BATCH_SCHEMA_VERSION
  batchId := "batch/1"
  customerId := "customer=a/tenant_id=b"
  tenantId := "50%"
  sourceId := "source"
  regionalCellId := "cell é"
  createdAt
  events := []

/-- Batches of one hour may have one key. -/
theorem separatorBatch_one_key :
    firstDayEncoders.calendar (separatorBatch 0).createdAt =
        firstDayEncoders.calendar (separatorBatch 1).createdAt ∧
      (separatorBatch 0).batchId = (separatorBatch 1).batchId :=
  (s3ObjectKey_collision_free.1 firstDayEncoders firstDayEncoders ⟨"bucket", "/events/"⟩
    (separatorBatch 0) (separatorBatch 1) rfl).2.2.2.2

example : encodeS3KeySegment "a/b=%é" = "a%2Fb%3D%25%C3%A9" := by decide +kernel

end MongoDam.Pipeline
