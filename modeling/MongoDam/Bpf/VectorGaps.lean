import Mathlib.Logic.Function.Iterate
import MongoDam.Bpf.Chunks

/-!
# Gaps in vectored captures

A vectored call moves a number of bytes, of which the handler captures the first
ones of two slots. A byte that no record contains has to show: either the last
record counts more bytes than it captured, or the drop counter moved. This file
follows the walk over the two slots and finds the inputs on which a gap shows.
-/

namespace MongoDam.Bpf

open Lib Observer

/-- The number of captured bytes in a list of records. -/
def capturedTotal (records : List KernelEvent) : ℕ := (records.map KernelEvent.capturedLen).sum

/-- The last record says that bytes follow which it does not contain. -/
def MarksGap (records : List KernelEvent) : Prop :=
  ∃ last ∈ records.getLast?, last.capturedLen < last.bytes

/-- At most `limit` bytes were captured, and if fewer than `moved` were, it shows. -/
def GapShows (before after : Maps) (limit moved : ℕ) : Prop :=
  capturedTotal (submitted before after) ≤ limit ∧
    (capturedTotal (submitted before after) < moved →
      MarksGap (submitted before after) ∨ after.droppedEvents ≠ before.droppedEvents)

/-- What becomes of a segment that the handler tries to capture. -/
inductive SlotFate where
  | refused
  | captured
  | lost
  deriving DecidableEq

/-- The fate of a segment, from the state of the ring buffer and of user memory. -/
def slotFate (ctx : Context) (index : ℕ) (iov : UserIovec) (copied : ℕ) : SlotFate :=
  if iov.iovBase = 0 then .lost
  else if ctx.ringHasRoom index then
    if (ctx.memory.probeRead iov.iovBase copied).isSome then .captured else .lost
  else .refused

/-- The second slot, when there is one that can be read and holds bytes. -/
def secondSlot (memory : UserMemory) (array count : ℕ) : Option UserIovec :=
  if count ≤ 1 then none
  else (readIovec memory array 1).filter fun iov => decide (iov.iovLen ≠ 0)

/-- The second slot is captured or counted as dropped. -/
def SecondSlotKept (ctx : Context) (array count remaining budget : ℕ) : Prop :=
  ∃ iov ∈ secondSlot ctx.memory array count,
    slotFate ctx 1 iov (min (min remaining iov.iovLen) budget) ≠ .lost

/-- The second slot is counted as dropped, or captured with bytes left over. -/
def SecondSlotMarks (ctx : Context) (array count remaining budget : ℕ) : Prop :=
  ∃ iov ∈ secondSlot ctx.memory array count,
    slotFate ctx 1 iov (min (min remaining iov.iovLen) budget) = .refused ∨
      slotFate ctx 1 iov (min (min remaining iov.iovLen) budget) = .captured ∧
        min (min remaining iov.iovLen) budget < remaining

/-- What the first slot leaves to the second one. -/
def FirstSlotKept (ctx : Context) (array count moved budget : ℕ) (iov : UserIovec) : Prop :=
  if iov.iovLen = 0 then SecondSlotKept ctx array count moved budget
  else
    match slotFate ctx 0 iov (min (min moved iov.iovLen) budget) with
    | .refused => True
    | .captured => moved ≤ iov.iovLen ∨ budget ≤ iov.iovLen ∨
        SecondSlotKept ctx array count (moved - iov.iovLen) (budget - iov.iovLen)
    | .lost => iov.iovLen < moved ∧ iov.iovLen < budget ∧
        SecondSlotMarks ctx array count (moved - iov.iovLen) (budget - iov.iovLen)

/-- The array and its first slot can be read, some bytes may be captured, and no byte of the
two slots is lost without a later mark. -/
def SlotsKept (rodata : Rodata) (ctx : Context) (pointer countHint : ℕ) (isMsghdr : Bool)
    (moved : ℕ) : Prop :=
  pointer ≠ 0 ∧ rodata.captureBytes ≠ 0 ∧
    ∃ located ∈ locateIovecs ctx.memory pointer countHint isMsghdr, 0 < located.2 ∧
      ∃ iov ∈ readIovec ctx.memory located.1 0,
        FirstSlotKept ctx located.1 located.2 moved
          (min rodata.captureBytes MAX_CAPTURE_BYTES) iov

private def bump (count : ℕ) : ℕ := (count + 1) % 2 ^ 64

/-- The byte counts and captured lengths of the records a step adds, and its drops. -/
private structure Leaves (before after : Maps) (records : List (ℕ × ℕ)) (drops : ℕ) : Prop where
  events : ∃ added, after.events = before.events ++ added ∧
    added.map (fun event => (event.bytes, event.capturedLen)) = records
  dropped : after.droppedEvents = bump^[drops] before.droppedEvents

private theorem Leaves.refl (m : Maps) : Leaves m m [] 0 := ⟨⟨[], by simp, rfl⟩, rfl⟩

private theorem Leaves.trans {m m' m'' : Maps} {first second : List (ℕ × ℕ)} {drops more : ℕ}
    (hfirst : Leaves m m' first drops) (hsecond : Leaves m' m'' second more) :
    Leaves m m'' (first ++ second) (drops + more) := by
  obtain ⟨⟨added, hadded, rfl⟩, hdrops⟩ := hfirst
  obtain ⟨⟨later, hlater, rfl⟩, hmore⟩ := hsecond
  refine ⟨⟨added ++ later, by rw [hlater, hadded, List.append_assoc], List.map_append⟩, ?_⟩
  rw [hmore, hdrops, Nat.add_comm, Function.iterate_add_apply]

private theorem bump_ne {drops count : ℕ} (hdrops : drops ≤ 2) :
    bump^[drops] count ≠ count ↔ drops ≠ 0 := by
  obtain rfl | rfl | rfl : drops = 0 ∨ drops = 1 ∨ drops = 2 := by omega
  · simp
  · simp only [Function.iterate_succ, Function.iterate_zero, Function.comp_apply, id, bump]
    omega
  · simp only [Function.iterate_succ, Function.iterate_zero, Function.comp_apply, id, bump]
    omega

/-- The last pair counts more bytes than it captured. -/
private def LastMarks (records : List (ℕ × ℕ)) : Prop :=
  ∃ last ∈ records.getLast?, last.2 < last.1

private theorem not_lastMarks_nil : ¬LastMarks [] := by
  rintro ⟨_, hlast, _⟩
  cases hlast

private theorem lastMarks_concat {records : List (ℕ × ℕ)} {bytes copied : ℕ} :
    LastMarks (records ++ [(bytes, copied)]) ↔ copied < bytes := by
  simp [LastMarks]

private theorem lastMarks_singleton {bytes copied : ℕ} :
    LastMarks [(bytes, copied)] ↔ copied < bytes := by
  simp [LastMarks]

/-- Whether a gap shows depends on the lengths in the records and on the drops alone. -/
private theorem Leaves.gapShows_iff {before after : Maps} {records : List (ℕ × ℕ)}
    {drops limit moved : ℕ} (hleaves : Leaves before after records drops) (hdrops : drops ≤ 2) :
    GapShows before after limit moved ↔
      (records.map Prod.snd).sum ≤ limit ∧ ((records.map Prod.snd).sum < moved →
        LastMarks records ∨ drops ≠ 0) := by
  obtain ⟨⟨added, hadded, rfl⟩, hcount⟩ := hleaves
  have hsubmitted := submitted_of_append hadded
  have htotal : ((added.map fun event => (event.bytes, event.capturedLen)).map Prod.snd).sum =
      capturedTotal added := by
    rw [List.map_map]
    rfl
  have hlast : LastMarks (added.map fun event => (event.bytes, event.capturedLen)) ↔
      MarksGap added := by
    simp [LastMarks, MarksGap, List.getLast?_map]
  rw [GapShows, hsubmitted, htotal, hlast, hcount, bump_ne hdrops]

private def SlotFate.records (reported copied : ℕ) : SlotFate → List (ℕ × ℕ)
  | .captured => [(reported, copied)]
  | _ => []

private def SlotFate.drops : SlotFate → ℕ
  | .refused => 1
  | _ => 0

private theorem SlotFate.drops_le (fate : SlotFate) : fate.drops ≤ 1 := by
  cases fate <;> decide

private theorem capturedCount_eq {reported copied : ℕ} (hreported : copied ≤ reported)
    (hmax : copied ≤ MAX_CAPTURE_BYTES) : capturedCount reported copied = copied := by
  simp only [capturedCount, if_neg (Nat.not_lt.mpr hmax), if_neg (Nat.not_lt.mpr hreported)]

/-- Trying to capture a segment leaves what its fate says. -/
private theorem leaves_submitChunkLimited (ctx : Context) (index : ℕ) {reported copied : ℕ}
    (iov : UserIovec) (label : ChunkLabel) (m : Maps) (hcopied : 0 < copied)
    (hreported : copied ≤ reported) (hmax : copied ≤ MAX_CAPTURE_BYTES) :
    Leaves m (submitChunkLimited ctx index iov.iovBase reported label copied m)
      ((slotFate ctx index iov copied).records reported copied)
      (slotFate ctx index iov copied).drops := by
  have hactual : ¬(reported : ℤ) ≤ 0 := by omega
  by_cases hbase : iov.iovBase = 0
  · rw [submitChunkLimited, if_pos (.inr (.inl hbase)), slotFate, if_pos hbase]
    exact .refl m
  · have hguard : ¬((reported : ℤ) ≤ 0 ∨ iov.iovBase = 0 ∨ copied = 0) := by omega
    rw [submitChunkLimited, if_neg hguard, slotFate, if_neg hbase]
    simp only [Int.toNat_natCast, capturedCount_eq hreported hmax]
    cases hroom : ctx.ringHasRoom index with
    | false => exact ⟨⟨[], (List.append_nil _).symm, rfl⟩, rfl⟩
    | true =>
      cases hread : ctx.memory.probeRead iov.iovBase copied with
      | none => exact .refl m
      | some found => exact ⟨⟨_, rfl, rfl⟩, rfl⟩

/-- The reported count exceeds the copied one exactly when the walk ends in the slot with
bytes left over. -/
private theorem reportedSegment_spec {index segment copied : ℕ} (remaining len budget : ℕ)
    (hsegment : segment = min remaining len) (hcopied : copied = min segment budget)
    (hindex : index ≤ 1) :
    copied ≤ reportedSegment index segment copied (remaining - segment) (budget - copied) ∧
      (copied < reportedSegment index segment copied (remaining - segment) (budget - copied) ↔
        copied < remaining ∧ (index = 1 ∨ remaining ≤ len ∨ budget ≤ len)) := by
  have hlast : MAX_VECTOR_CHUNKS - 1 = 1 := rfl
  by_cases hends : 0 < remaining - segment ∧
      (budget - copied = 0 ∨ index = MAX_VECTOR_CHUNKS - 1) ∧ segment ≤ copied
  · rw [reportedSegment, if_pos hends]
    omega
  · rw [reportedSegment, if_neg hends]
    omega

/-- The walk over the second slot alone. -/
private theorem leaves_secondSlot (ctx : Context) (label : ChunkLabel) (array count : ℕ)
    {remaining budget : ℕ} (m : Maps) (hremaining : 0 < remaining) (hbudget : 0 < budget)
    (hmax : budget ≤ MAX_CAPTURE_BYTES) :
    (secondSlot ctx.memory array count = none ∧
      Leaves m (vectorLoop ctx label array count 1 1 remaining budget m) [] 0) ∨
    ∃ iov reported copied, secondSlot ctx.memory array count = some iov ∧
      copied = min (min remaining iov.iovLen) budget ∧
      (copied < reported ↔ copied < remaining) ∧
      Leaves m (vectorLoop ctx label array count 1 1 remaining budget m)
        ((slotFate ctx 1 iov copied).records reported copied)
        (slotFate ctx 1 iov copied).drops := by
  by_cases hcount : count ≤ 1
  · left
    rw [secondSlot, if_pos hcount, vectorLoop, if_pos (.inl hcount)]
    exact ⟨rfl, .refl m⟩
  have hopen : ¬(count ≤ 1 ∨ remaining = 0 ∨ budget = 0) := by omega
  rw [secondSlot, if_neg hcount, vectorLoop, if_neg hopen]
  cases hread : readIovec ctx.memory array 1 with
  | none => exact .inl ⟨rfl, .refl m⟩
  | some iov =>
    by_cases hlen : iov.iovLen = 0
    · left
      refine ⟨by simp [hlen], ?_⟩
      have hsegment : (if remaining < iov.iovLen then remaining else iov.iovLen) = 0 := by
        rw [if_neg (by omega), hlen]
      simp only [hsegment, if_true, vectorLoop]
      exact .refl m
    · right
      have hsegment : (if remaining < iov.iovLen then remaining else iov.iovLen) =
          min remaining iov.iovLen := by
        split_ifs <;> omega
      have hcopied : (if min remaining iov.iovLen < budget then min remaining iov.iovLen
          else budget) = min (min remaining iov.iovLen) budget := by
        split_ifs <;> omega
      obtain ⟨hle, hmore⟩ := reportedSegment_spec remaining iov.iovLen budget rfl rfl
        (Nat.le_refl 1)
      refine ⟨iov, _, _, by simp [hlen], rfl, hmore.trans (by simp), ?_⟩
      have hleaves := leaves_submitChunkLimited ctx 1 iov label m (by omega) hle (by omega)
      have hnonzero : ¬min remaining iov.iovLen = 0 := by omega
      simp only [hsegment, hcopied, if_neg hnonzero, vectorLoop, ite_self]
      exact hleaves

/-- The end of the walk, after a first slot that left `first` and `drops`. -/
private theorem gapShows_secondSlot {ctx : Context} {label : ChunkLabel} {array count : ℕ}
    {remaining budget limit moved drops : ℕ} {first : List (ℕ × ℕ)} {m m' : Maps}
    (hfirst : Leaves m m' first drops) (hdrops : drops ≤ 1)
    (hunmarked : ¬LastMarks first)
    (hremaining : 0 < remaining) (hbudget : 0 < budget) (hmax : budget ≤ MAX_CAPTURE_BYTES)
    (hlimit : (first.map Prod.snd).sum + budget ≤ limit)
    (hmoved : (first.map Prod.snd).sum + remaining ≤ moved) :
    GapShows m (vectorLoop ctx label array count 1 1 remaining budget m') limit moved ↔
      drops ≠ 0 ∨ (if (first.map Prod.snd).sum + remaining = moved
        then SecondSlotKept ctx array count remaining budget
        else SecondSlotMarks ctx array count remaining budget) := by
  rcases leaves_secondSlot ctx label array count m' hremaining hbudget hmax with
    ⟨hnone, hleaves⟩ | hsome
  · rw [(hfirst.trans hleaves).gapShows_iff (by omega)]
    simp only [SecondSlotKept, SecondSlotMarks, hnone, List.append_nil, Nat.add_zero, hunmarked,
      Option.mem_def, reduceCtorEq, false_and, exists_false, ite_self, or_false, false_or]
    omega
  · obtain ⟨iov, reported, copied, hiov, rfl, hmarks, hleaves⟩ := hsome
    have hfate := (slotFate ctx 1 iov (min (min remaining iov.iovLen) budget)).drops_le
    rw [(hfirst.trans hleaves).gapShows_iff (by omega)]
    simp only [SecondSlotKept, SecondSlotMarks, hiov, Option.mem_def, Option.some.injEq,
      exists_eq_left']
    cases slotFate ctx 1 iov (min (min remaining iov.iovLen) budget) with
    | refused =>
      simp only [SlotFate.records, SlotFate.drops, List.append_nil, reduceCtorEq, ne_eq,
        not_false_eq_true, true_or, ite_self, or_true, iff_true,
        Nat.add_eq_zero_iff, Nat.one_ne_zero, and_false, implies_true, and_true]
      omega
    | lost =>
      simp only [SlotFate.records, SlotFate.drops, List.append_nil, hunmarked, reduceCtorEq, ne_eq,
        not_true_eq_false, false_and, or_self, ite_self, or_false, false_or]
      omega
    | captured =>
      simp only [SlotFate.records, SlotFate.drops, List.map_append, List.map_cons, List.map_nil,
        List.sum_append, List.sum_cons, List.sum_nil, lastMarks_concat, reduceCtorEq, ne_eq,
        not_false_eq_true, true_and, false_or]
      by_cases hall : (first.map Prod.snd).sum + remaining = moved
      · simp only [if_pos hall, or_true, iff_true]
        omega
      · simp only [if_neg hall]
        omega

/-- The walk over the first slot and what it hands to the second. -/
private theorem leaves_firstSlot (ctx : Context) (label : ChunkLabel) {array count : ℕ}
    {moved budget : ℕ} {iov : UserIovec} (m : Maps) (hcount : 0 < count) (hmoved : 0 < moved)
    (hbudget : 0 < budget) (hmax : budget ≤ MAX_CAPTURE_BYTES)
    (hread : readIovec ctx.memory array 0 = some iov) (hlen : iov.iovLen ≠ 0) :
    ∃ reported copied m', copied = min (min moved iov.iovLen) budget ∧
      (copied < reported ↔ copied < moved ∧ (moved ≤ iov.iovLen ∨ budget ≤ iov.iovLen)) ∧
      copied ≤ reported ∧
      Leaves m m' ((slotFate ctx 0 iov copied).records reported copied)
        (slotFate ctx 0 iov copied).drops ∧
      vectorLoop ctx label array count MAX_VECTOR_CHUNKS 0 moved budget m =
        if copied < reported then m'
        else vectorLoop ctx label array count 1 1 (moved - min moved iov.iovLen)
          (budget - copied) m' := by
  have hsegment : (if moved < iov.iovLen then moved else iov.iovLen) = min moved iov.iovLen := by
    split_ifs <;> omega
  have hcopied : (if min moved iov.iovLen < budget then min moved iov.iovLen else budget) =
      min (min moved iov.iovLen) budget := by
    split_ifs <;> omega
  obtain ⟨hle, hmore⟩ := reportedSegment_spec moved iov.iovLen budget rfl rfl (Nat.zero_le 1)
  refine ⟨_, _, _, rfl, hmore.trans (by simp), hle,
    leaves_submitChunkLimited ctx 0 iov label m (by omega) hle (by omega), ?_⟩
  have hopen : ¬(count ≤ 0 ∨ moved = 0 ∨ budget = 0) := by omega
  have hnonzero : ¬min moved iov.iovLen = 0 := by omega
  rw [MAX_VECTOR_CHUNKS, vectorLoop, if_neg hopen, hread]
  simp only [hsegment, hcopied, if_neg hnonzero]

/-- The whole walk shows its gap exactly when the slots are kept. -/
private theorem gapShows_vectorLoop {ctx : Context} {label : ChunkLabel} {array count : ℕ}
    {moved budget : ℕ} {iov : UserIovec} {m : Maps} (hcount : 0 < count) (hmoved : 0 < moved)
    (hbudget : 0 < budget) (hmax : budget ≤ MAX_CAPTURE_BYTES)
    (hread : readIovec ctx.memory array 0 = some iov) :
    GapShows m (vectorLoop ctx label array count MAX_VECTOR_CHUNKS 0 moved budget m) budget moved ↔
      FirstSlotKept ctx array count moved budget iov := by
  by_cases hlen : iov.iovLen = 0
  · have hopen : ¬(count ≤ 0 ∨ moved = 0 ∨ budget = 0) := by omega
    have hsegment : (if moved < iov.iovLen then moved else iov.iovLen) = 0 := by
      rw [if_neg (by omega), hlen]
    rw [FirstSlotKept, if_pos hlen, MAX_VECTOR_CHUNKS, vectorLoop, if_neg hopen, hread]
    simp only [hsegment, if_true]
    rw [gapShows_secondSlot (.refl m) (Nat.zero_le 1) not_lastMarks_nil hmoved hbudget hmax
      (by simp) (by simp)]
    simp
  rw [FirstSlotKept, if_neg hlen]
  obtain ⟨reported, copied, m', rfl, hends, hle, hleaves, hloop⟩ :=
    leaves_firstSlot ctx label m hcount hmoved hbudget hmax hread hlen
  have hdrops := (slotFate ctx 0 iov (min (min moved iov.iovLen) budget)).drops_le
  by_cases hlast : moved ≤ iov.iovLen ∨ budget ≤ iov.iovLen
  · -- The walk ends in the first slot: the budget or the bytes are used up.
    have hloop' : vectorLoop ctx label array count MAX_VECTOR_CHUNKS 0 moved budget m = m' := by
      rw [hloop]
      by_cases hmarked : min (min moved iov.iovLen) budget < reported
      · rw [if_pos hmarked]
      · rw [if_neg hmarked, vectorLoop, if_pos (by omega)]
    rw [hloop', hleaves.gapShows_iff (by omega)]
    cases slotFate ctx 0 iov (min (min moved iov.iovLen) budget) with
    | refused =>
      simp only [SlotFate.records, SlotFate.drops, List.map_nil, List.sum_nil, ne_eq,
        Nat.one_ne_zero, not_false_eq_true, or_true, implies_true, and_true, iff_true]
      exact Nat.zero_le budget
    | lost =>
      simp only [SlotFate.records, SlotFate.drops, List.map_nil, List.sum_nil, not_lastMarks_nil,
        ne_eq, not_true_eq_false, or_self, imp_false]
      omega
    | captured =>
      simp only [SlotFate.records, SlotFate.drops, List.map_cons, List.map_nil, List.sum_cons,
        List.sum_nil, lastMarks_singleton]
      omega
  · -- The segment fits whole, and the second slot takes over.
    have hcopied : min (min moved iov.iovLen) budget = iov.iovLen := by omega
    have hunmarked : ¬min (min moved iov.iovLen) budget < reported := by
      rw [hends]
      exact fun h => hlast h.2
    have hwhole : min moved iov.iovLen = iov.iovLen := by omega
    rw [hloop, if_neg hunmarked, hcopied, hwhole]
    rw [hcopied] at hleaves hunmarked
    have hmore : 0 < moved - iov.iovLen := by omega
    have hroom : 0 < budget - iov.iovLen := by omega
    have hstill : budget - iov.iovLen ≤ MAX_CAPTURE_BYTES := by omega
    cases hfate : slotFate ctx 0 iov iov.iovLen with
    | refused =>
      rw [hfate] at hleaves
      rw [gapShows_secondSlot hleaves (Nat.le_refl 1) not_lastMarks_nil hmore hroom hstill
        (by simp only [SlotFate.records, List.map_nil, List.sum_nil]; omega)
        (by simp only [SlotFate.records, List.map_nil, List.sum_nil]; omega)]
      simp [SlotFate.drops]
    | lost =>
      rw [hfate] at hleaves
      rw [gapShows_secondSlot hleaves (Nat.zero_le 1) not_lastMarks_nil hmore hroom hstill
        (by simp only [SlotFate.records, List.map_nil, List.sum_nil]; omega)
        (by simp only [SlotFate.records, List.map_nil, List.sum_nil]; omega)]
      have hrest : ¬((SlotFate.lost.records reported iov.iovLen).map Prod.snd).sum +
          (moved - iov.iovLen) = moved := by
        simp only [SlotFate.records, List.map_nil, List.sum_nil]
        omega
      rw [if_neg hrest]
      simp only [SlotFate.drops, ne_eq, not_true_eq_false, false_or]
      constructor
      · exact fun h => ⟨by omega, by omega, h⟩
      · exact fun h => h.2.2
    | captured =>
      rw [hfate] at hleaves
      have hsum : ((SlotFate.captured.records reported iov.iovLen).map Prod.snd).sum =
          iov.iovLen := by
        simp [SlotFate.records]
      rw [gapShows_secondSlot hleaves (Nat.zero_le 1) (lastMarks_singleton.not.mpr hunmarked) hmore
        hroom hstill (by omega) (by omega), if_pos (by omega)]
      simp only [SlotFate.drops, ne_eq, not_true_eq_false, false_or]
      constructor
      · exact fun h => .inr (.inr h)
      · rintro (h | h | h)
        · exact absurd (.inl h) hlast
        · exact absurd (.inr h) hlast
        · exact h

/-- A vectored capture shows its gaps exactly when its slots are kept. -/
theorem submitVectorChunks_gapShows_iff (rodata : Rodata) (ctx : Context) (pointer countHint : ℕ)
    (isMsghdr : Bool) (actual : ℤ) (label : ChunkLabel) (m : Maps) (hactual : 0 < actual) :
    GapShows m (submitVectorChunks rodata ctx pointer countHint isMsghdr actual label m)
        (min rodata.captureBytes MAX_CAPTURE_BYTES) actual.toNat ↔
      SlotsKept rodata ctx pointer countHint isMsghdr actual.toNat := by
  have hmoved : 0 < actual.toNat := by omega
  have hsilent : ¬GapShows m m (min rodata.captureBytes MAX_CAPTURE_BYTES) actual.toNat := by
    rw [(Leaves.refl m).gapShows_iff (Nat.zero_le 2)]
    simp [not_lastMarks_nil]
    omega
  by_cases hpointer : pointer = 0
  · rw [submitVectorChunks, if_pos (.inr hpointer)]
    exact iff_of_false hsilent fun h => h.1 hpointer
  rw [submitVectorChunks, if_neg (by omega)]
  cases hlocated : locateIovecs ctx.memory pointer countHint isMsghdr with
  | none =>
    refine iff_of_false hsilent ?_
    rintro ⟨_, _, located, hmem, _⟩
    rw [hlocated] at hmem
    cases hmem
  | some located =>
    obtain ⟨array, count⟩ := located
    have hbudget : (if MAX_CAPTURE_BYTES < rodata.captureBytes then MAX_CAPTURE_BYTES
        else rodata.captureBytes) = min rodata.captureBytes MAX_CAPTURE_BYTES := by
      split_ifs <;> omega
    simp only [hbudget, SlotsKept, hlocated, Option.mem_def, Option.some.injEq, exists_eq_left']
    by_cases hnone : rodata.captureBytes = 0 ∨ count = 0
    · have hloop : vectorLoop ctx label array count MAX_VECTOR_CHUNKS 0 actual.toNat
          (min rodata.captureBytes MAX_CAPTURE_BYTES) m = m := by
        rw [MAX_VECTOR_CHUNKS, vectorLoop, if_pos (by omega)]
      rw [hloop]
      refine iff_of_false hsilent ?_
      rintro ⟨_, hcapture, hcount, _⟩
      omega
    · have hcount : 0 < count := by omega
      have hcapture : rodata.captureBytes ≠ 0 := by omega
      have hpositive : 0 < min rodata.captureBytes MAX_CAPTURE_BYTES := by
        simp only [MAX_CAPTURE_BYTES]
        omega
      cases hread : readIovec ctx.memory array 0 with
      | none =>
        have hloop : vectorLoop ctx label array count MAX_VECTOR_CHUNKS 0 actual.toNat
            (min rodata.captureBytes MAX_CAPTURE_BYTES) m = m := by
          rw [MAX_VECTOR_CHUNKS, vectorLoop, if_neg (by omega), hread]
        rw [hloop]
        refine iff_of_false hsilent ?_
        rintro ⟨_, _, _, iov, hiov, _⟩
        cases hiov
      | some iov =>
        rw [gapShows_vectorLoop hcount hmoved hpositive (Nat.min_le_right _ _) hread]
        simp [hpointer, hcapture, hcount]

/-- A process whose memory holds an array of buffers at an address, and zeros elsewhere. -/
def UserMemory.ofIovecs (array : ℕ) (slots : List UserIovec) : UserMemory where
  probeRead address size :=
    if size = 16 ∧ array ≤ address then
      slots[(address - array) / 16]?.map fun iov => leBytes 8 iov.iovBase ++ leBytes 8 iov.iovLen
    else some (List.replicate size 0)
  probeRead_length := by
    intro address size found hread
    by_cases hslot : size = 16 ∧ array ≤ address
    · rw [if_pos hslot] at hread
      obtain ⟨iov, _, rfl⟩ := Option.map_eq_some_iff.mp hread
      rw [List.length_append, leBytes_length, leBytes_length, hslot.1]
    · rw [if_neg hslot] at hread
      rw [← Option.some.inj hread, List.length_replicate]

/-- A firing in a thread of process 7, with room in the ring buffer. -/
def Context.sample (memory : UserMemory) (now : ℕ) : Context where
  thread := ⟨7, 9⟩
  uid := 999
  gid := 999
  cgroupId := 1
  comm := [109, 111, 110, 103, 111, 100]
  now := now
  ringHasRoom _ := true
  residue := []
  memory := memory

/-- The label of bytes written to descriptor 4. -/
def ChunkLabel.sample : ChunkLabel :=
  ⟨4, DIRECTION_OUTBOUND, SOURCE_SYSCALL, 4, EVENT_IO_CHUNK⟩

/-- Two buffers of three and two bytes, both captured. -/
theorem twoBuffers_gapShows :
    GapShows {} (submitVectorChunks {} (.sample (.ofIovecs 4096 [⟨8192, 3⟩, ⟨8448, 2⟩]) 0)
        4096 2 false 5 .sample {})
      (min ({} : Rodata).captureBytes MAX_CAPTURE_BYTES) 5 := by
  refine (submitVectorChunks_gapShows_iff {} (.sample (.ofIovecs 4096 [⟨8192, 3⟩, ⟨8448, 2⟩]) 0)
    4096 2 false 5 .sample {}
    (by decide)).mpr ?_
  refine ⟨by decide, by decide, (4096, 2), rfl, by decide, ⟨8192, 3⟩, by decide +kernel, ?_⟩
  have hfate : slotFate (.sample (.ofIovecs 4096 [⟨8192, 3⟩, ⟨8448, 2⟩]) 0) 0 ⟨8192, 3⟩
      (min (min (Int.toNat 5) 3) (min ({} : Rodata).captureBytes MAX_CAPTURE_BYTES)) =
        .captured := by
    decide +kernel
  rw [FirstSlotKept, if_neg (by decide), hfate]
  exact .inr (.inr ⟨⟨8448, 2⟩, by decide +kernel, by decide +kernel⟩)

/-- An empty second buffer ends the walk without a mark: of the fifteen bytes the last five
are in no record, and nothing shows it. -/
theorem emptySecondBuffer_hides_gap :
    ¬∀ (rodata : Rodata) (ctx : Context) (pointer countHint : ℕ) (isMsghdr : Bool) (actual : ℤ)
      (label : ChunkLabel) (m : Maps), 0 < actual →
        GapShows m (submitVectorChunks rodata ctx pointer countHint isMsghdr actual label m)
          (min rodata.captureBytes MAX_CAPTURE_BYTES) actual.toNat := by
  intro h
  obtain ⟨_, hshows⟩ := h {} (.sample (.ofIovecs 4096 [⟨8192, 10⟩, ⟨8448, 0⟩, ⟨8704, 5⟩]) 0)
    4096 3 false 15 .sample {} (by decide)
  have hrecords : (submitted {} (submitVectorChunks {}
      (.sample (.ofIovecs 4096 [⟨8192, 10⟩, ⟨8448, 0⟩, ⟨8704, 5⟩]) 0) 4096 3 false 15
      .sample {})).map (fun event => (event.bytes, event.capturedLen)) = [(10, 10)] := by
    decide +kernel
  obtain ⟨event, hevent, hlengths⟩ := List.map_eq_singleton_iff.mp hrecords
  rw [hevent] at hshows
  obtain ⟨hbytes, hcaptured⟩ := Prod.mk.inj hlengths
  rcases hshows (by simp [capturedTotal, hcaptured]) with ⟨last, hlast, hmark⟩ | hdropped
  · obtain rfl : event = last := by simpa using hlast
    omega
  · exact hdropped (by decide +kernel)

end MongoDam.Bpf
