import MongoDam.Lib.Layout
import MongoDam.Observer.Kernel

/-!
# Records of the ring buffer

The kernel side and the user side declare one structure each, with the same fields at the
same places. The user side takes the bytes of a record as they stand, after a check of
their number alone.
-/

namespace MongoDam.Observer

open Lib

/-- The widths of the fields of `struct kernel_event`. None of them needs padding in front. -/
def ringLayout : List ℕ :=
  [8, 8, 8, 8, 8, 8, 4, 4, 4, 4, 4, 4, 4, 1, 1, 1, 1, 16, MAX_CAPTURE_BYTES]

/-- Every field stands at a multiple of its alignment, and the size is one of the largest. -/
example : (∀ field ∈ ((ringLayout.take 17).zip (ringLayout.scanl (· + ·) 0)),
      field.2 % field.1 = 0) ∧
    ringLayout.sum % 8 = 0 := by decide

namespace KernelEvent

/-- The unsigned word at an offset. -/
def word (bytes : Bytes) (offset width : ℕ) : ℕ := leNat ((bytes.drop offset).take width)

/-- The structure whose bytes are read. The original length, at offset 68, is not used. -/
def ofRecord (bytes : Bytes) (hlength : bytes.length = ringLayout.sum) : KernelEvent where
  timestampNs := word bytes 0 8
  connectionKey := word bytes 8 8
  cgroupId := word bytes 16 8
  durationNs := word bytes 24 8
  bytes := word bytes 32 8
  result := signed64 (word bytes 40 8)
  pid := word bytes 48 4
  tgid := word bytes 52 4
  uid := word bytes 56 4
  gid := word bytes 60 4
  fd := signed32 (word bytes 64 4)
  capturedLen := word bytes 72 4
  eventType := word bytes 76 1
  direction := word bytes 77 1
  source := word bytes 78 1
  operation := word bytes 79 1
  comm := (bytes.drop 80).take 16
  data := (bytes.drop 96).take MAX_CAPTURE_BYTES
  data_length := by
    have hsum : ringLayout.sum = 96 + MAX_CAPTURE_BYTES := rfl
    rw [List.length_take, List.length_drop]
    omega

def fromRingBytes (bytes : Bytes) : Option KernelEvent :=
  if hlength : bytes.length = ringLayout.sum then some (ofRecord bytes hlength) else none

/-- The fields of a record, in memory. -/
def ringParts (originalLen : ℕ) (event : KernelEvent) : List Bytes :=
  [leBytes 8 event.timestampNs, leBytes 8 event.connectionKey, leBytes 8 event.cgroupId,
    leBytes 8 event.durationNs, leBytes 8 event.bytes, leBytes 8 (twosComplement 64 event.result),
    leBytes 4 event.pid, leBytes 4 event.tgid, leBytes 4 event.uid, leBytes 4 event.gid,
    leBytes 4 (twosComplement 32 event.fd), leBytes 4 originalLen, leBytes 4 event.capturedLen,
    leBytes 1 event.eventType, leBytes 1 event.direction, leBytes 1 event.source,
    leBytes 1 event.operation, event.comm, event.data]

/-- The bytes of a record that the kernel side submits. -/
def ringBytes (originalLen : ℕ) (event : KernelEvent) : Bytes :=
  (event.ringParts originalLen).flatten

/-- The fields hold what their types can hold. -/
structure InRange (event : KernelEvent) : Prop where
  timestampNs : event.timestampNs < 2 ^ 64
  connectionKey : event.connectionKey < 2 ^ 64
  cgroupId : event.cgroupId < 2 ^ 64
  durationNs : event.durationNs < 2 ^ 64
  bytes : event.bytes < 2 ^ 64
  result : -2 ^ 63 ≤ event.result ∧ event.result < 2 ^ 63
  pid : event.pid < 2 ^ 32
  tgid : event.tgid < 2 ^ 32
  uid : event.uid < 2 ^ 32
  gid : event.gid < 2 ^ 32
  fd : -2 ^ 31 ≤ event.fd ∧ event.fd < 2 ^ 31
  capturedLen : event.capturedLen < 2 ^ 32
  eventType : event.eventType < 2 ^ 8
  direction : event.direction < 2 ^ 8
  source : event.source < 2 ^ 8
  operation : event.operation < 2 ^ 8
  comm : event.comm.length = 16

end KernelEvent

/-- The fields of a record, each at its offset. -/
private theorem fields_ringLayout (bytes : Bytes) : fields ringLayout bytes =
    [(bytes.drop 0).take 8, (bytes.drop 8).take 8, (bytes.drop 16).take 8, (bytes.drop 24).take 8,
      (bytes.drop 32).take 8, (bytes.drop 40).take 8, (bytes.drop 48).take 4,
      (bytes.drop 52).take 4, (bytes.drop 56).take 4, (bytes.drop 60).take 4,
      (bytes.drop 64).take 4, (bytes.drop 68).take 4, (bytes.drop 72).take 4,
      (bytes.drop 76).take 1, (bytes.drop 77).take 1, (bytes.drop 78).take 1,
      (bytes.drop 79).take 1, (bytes.drop 80).take 16, (bytes.drop 96).take MAX_CAPTURE_BYTES] := by
  simp only [ringLayout, fields, List.drop_drop, List.drop_zero, Nat.reduceAdd]

/-- A word of a record, as bytes. -/
private theorem leBytes_recordWord {bytes : Bytes} (hlength : bytes.length = ringLayout.sum)
    {offset width : ℕ} (hinside : offset + width ≤ ringLayout.sum) :
    leBytes width (KernelEvent.word bytes offset width) = (bytes.drop offset).take width := by
  have hwidth : ((bytes.drop offset).take width).length = width := by
    rw [List.length_take, List.length_drop]
    omega
  have hword := leBytes_leNat ((bytes.drop offset).take width)
  rwa [hwidth] at hword

private theorem word_lt {bytes : Bytes} {offset width : ℕ} :
    KernelEvent.word bytes offset width < 256 ^ width :=
  Nat.lt_of_lt_of_le (leNat_lt _)
    (Nat.pow_le_pow_right (by decide) (by rw [List.length_take]; exact Nat.min_le_left ..))

namespace KernelEvent

variable {bytes : Bytes} {event : KernelEvent}

/-- The fields of the structure are those of the record. -/
private theorem ringParts_ofRecord (hlength : bytes.length = ringLayout.sum) :
    (ofRecord bytes hlength).ringParts (word bytes 68 4) = fields ringLayout bytes := by
  have hword {offset width : ℕ} (hinside : offset + width ≤ 1120) :
      leBytes width (word bytes offset width) = (bytes.drop offset).take width :=
    leBytes_recordWord hlength hinside
  have hresult : twosComplement 64 (signed64 (word bytes 40 8)) = word bytes 40 8 :=
    twosComplement_signed64 word_lt
  have hfd : twosComplement 32 (signed32 (word bytes 64 4)) = word bytes 64 4 :=
    twosComplement_signed32 word_lt
  rw [fields_ringLayout]
  simp (disch := decide) only [ringParts, ofRecord, hresult, hfd, hword]

private theorem inRange_ofRecord (hlength : bytes.length = ringLayout.sum) :
    (ofRecord bytes hlength).InRange := by
  have hword8 {offset : ℕ} : word bytes offset 1 < 2 ^ 8 := word_lt
  have hword32 {offset : ℕ} : word bytes offset 4 < 2 ^ 32 := word_lt
  have hword64 {offset : ℕ} : word bytes offset 8 < 2 ^ 64 := word_lt
  constructor
  case comm =>
    have hsum : ringLayout.sum = 1120 := rfl
    change ((bytes.drop 80).take 16).length = 16
    rw [List.length_take, List.length_drop]
    omega
  case result => exact signed64_range hword64
  case fd => exact signed32_range hword32
  case timestampNs | connectionKey | cgroupId | durationNs | bytes => exact hword64
  case pid | tgid | uid | gid | capturedLen => exact hword32
  case eventType | direction | source | operation => exact hword8

private theorem lengths_ringParts (hrange : event.InRange) (originalLen : ℕ) :
    (event.ringParts originalLen).map List.length = ringLayout := by
  simp only [ringParts, List.map_cons, List.map_nil, leBytes_length, hrange.comm,
    event.data_length, ringLayout]

/-- The user side accepts the bytes of a record exactly when they are the bytes of a structure
whose fields are in range, and takes that structure. -/
theorem fromRingBytes_eq_some_iff :
    fromRingBytes bytes = some event ↔
      event.InRange ∧ ∃ originalLen < 2 ^ 32, bytes = event.ringBytes originalLen := by
  constructor
  · intro h
    unfold fromRingBytes at h
    split at h
    · next hlength =>
      cases h
      refine ⟨inRange_ofRecord hlength, word bytes 68 4, word_lt, ?_⟩
      rw [ringBytes, ringParts_ofRecord, flatten_fields hlength]
    · cases h
  · rintro ⟨hrange, originalLen, horiginal, rfl⟩
    have hlengths := lengths_ringParts hrange originalLen
    have hlength : (event.ringBytes originalLen).length = ringLayout.sum := by
      rw [ringBytes, List.length_flatten, hlengths]
    have hfields : fields ringLayout (event.ringBytes originalLen) =
        event.ringParts originalLen := by
      have hparts := fields_flatten (event.ringParts originalLen)
      rwa [hlengths] at hparts
    unfold fromRingBytes
    rw [dif_pos hlength]
    rw [fields_ringLayout] at hfields
    simp only [ringParts, List.cons.injEq, and_true] at hfields
    obtain ⟨h0, h8, h16, h24, h32, h40, h48, h52, h56, h60, h64, -, h72, h76, h77, h78, h79, h80,
      h96⟩ := hfields
    have hword {bytes : Bytes} {offset width value : ℕ}
        (hfield : (bytes.drop offset).take width = leBytes width value)
        (hvalue : value < 256 ^ width) : word bytes offset width = value := by
      rw [word, hfield, leNat_leBytes hvalue]
    have hsame : ofRecord (event.ringBytes originalLen) hlength = event := by
      unfold ofRecord
      obtain ⟨⟩ := event
      simp only [KernelEvent.mk.injEq]
      refine ⟨hword h0 hrange.timestampNs, hword h8 hrange.connectionKey, hword h16 hrange.cgroupId,
        hword h24 hrange.durationNs, hword h32 hrange.bytes, ?_, hword h48 hrange.pid,
        hword h52 hrange.tgid, hword h56 hrange.uid, hword h60 hrange.gid, ?_,
        hword h72 hrange.capturedLen, hword h76 hrange.eventType, hword h77 hrange.direction,
        hword h78 hrange.source, hword h79 hrange.operation, h80, h96⟩
      · rw [hword h40 (twosComplement_lt 64 _),
          signed64_twosComplement hrange.result.1 hrange.result.2]
      · rw [hword h64 (twosComplement_lt 32 _), signed32_twosComplement hrange.fd.1 hrange.fd.2]
    rw [hsame]

end KernelEvent

end MongoDam.Observer
