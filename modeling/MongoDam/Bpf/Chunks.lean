import MongoDam.Bpf.Maps

/-!
# Capturing the bytes of an I/O call

A chunk record carries the first bytes of one buffer. A vectored call hands over
an array of buffers, of which the handler walks the first two slots with one
budget of captured bytes. A record whose byte count exceeds its captured length
tells user space that the stream has a gap after it.
-/

namespace MongoDam.Bpf

open Lib Observer

/-- The fields of a chunk record that do not depend on the bytes. -/
structure ChunkLabel where
  fd : ℤ
  direction : ℕ
  source : ℕ
  connectionKey : ℕ
  eventType : ℕ
  deriving DecidableEq

/-- The number of bytes a chunk record captures. -/
def capturedCount (actual copyLimit : ℕ) : ℕ :=
  let limit := if MAX_CAPTURE_BYTES < copyLimit then MAX_CAPTURE_BYTES else copyLimit
  if actual < limit then actual else limit

/-- The record of a chunk whose bytes were read. -/
def chunkEvent (ctx : Context) (label : ChunkLabel) (actual : ℤ) (captured : ℕ)
    (found : Bytes) : KernelEvent :=
  { reservedEvent ctx found with
    eventType := label.eventType
    direction := label.direction
    source := label.source
    connectionKey := label.connectionKey
    fd := label.fd
    bytes := actual.toNat
    result := actual
    capturedLen := captured }

def submitChunkLimited (ctx : Context) (place buffer : ℕ) (actual : ℤ) (label : ChunkLabel)
    (copyLimit : ℕ) (m : Maps) : Maps :=
  if actual ≤ 0 ∨ buffer = 0 ∨ copyLimit = 0 then m
  else if ctx.ringHasRoom place then
    let captured := capturedCount actual.toNat copyLimit
    match ctx.memory.probeRead buffer captured with
    | none => m
    | some found => { m with events := m.events ++ [chunkEvent ctx label actual captured found] }
  else m.countDrop

def submitChunk (rodata : Rodata) (ctx : Context) (buffer : ℕ) (actual : ℤ) (label : ChunkLabel)
    (m : Maps) : Maps :=
  submitChunkLimited ctx 0 buffer actual label rodata.captureBytes m

/-- A slot of an array of buffers. -/
structure UserIovec where
  iovBase : ℕ
  iovLen : ℕ
  deriving DecidableEq

/-- Read a slot of an array of buffers. -/
def readIovec (memory : UserMemory) (array index : ℕ) : Option UserIovec :=
  (memory.probeRead (array + 16 * index) 16).map fun found =>
    ⟨leNat (found.take 8), leNat (found.drop 8)⟩

/-- The array of buffers of a vectored call and its number of slots. -/
def locateIovecs (memory : UserMemory) (pointer countHint : ℕ) (isMsghdr : Bool) :
    Option (ℕ × ℕ) :=
  if isMsghdr then
    match memory.probeRead pointer 32 with
    | none => none
    | some message =>
      let iov := leNat ((message.drop 16).take 8)
      let iovlen := leNat ((message.drop 24).take 8)
      if iovlen = 0 ∨ iov = 0 then none else some (iov, iovlen)
  else some (pointer, countHint)

/-- The byte count reported for a segment: one more than what is copied when the walk
ends here with bytes left over. -/
def reportedSegment (index segment copied remainingAfter budgetAfter : ℕ) : ℕ :=
  if 0 < remainingAfter ∧ (budgetAfter = 0 ∨ index = MAX_VECTOR_CHUNKS - 1) ∧ segment ≤ copied
  then copied + 1 else segment

/-- The walk over the slots from `index` on, at most `slots` of them. -/
def vectorLoop (ctx : Context) (label : ChunkLabel) (array count : ℕ) :
    (slots index remaining budget : ℕ) → Maps → Maps
  | 0, _, _, _, m => m
  | slots + 1, index, remaining, budget, m =>
    if count ≤ index ∨ remaining = 0 ∨ budget = 0 then m
    else
      match readIovec ctx.memory array index with
      | none => m
      | some iov =>
        let segment := if remaining < iov.iovLen then remaining else iov.iovLen
        if segment = 0 then vectorLoop ctx label array count slots (index + 1) remaining budget m
        else
          let copied := if segment < budget then segment else budget
          let remainingAfter := remaining - segment
          let budgetAfter := budget - copied
          let reported := reportedSegment index segment copied remainingAfter budgetAfter
          let m := submitChunkLimited ctx index iov.iovBase reported label copied m
          if copied < reported then m
          else vectorLoop ctx label array count slots (index + 1) remainingAfter budgetAfter m

def submitVectorChunks (rodata : Rodata) (ctx : Context) (pointer countHint : ℕ)
    (isMsghdr : Bool) (actual : ℤ) (label : ChunkLabel) (m : Maps) : Maps :=
  if actual ≤ 0 ∨ pointer = 0 then m
  else
    match locateIovecs ctx.memory pointer countHint isMsghdr with
    | none => m
    | some (array, count) =>
      let budget := if MAX_CAPTURE_BYTES < rodata.captureBytes then MAX_CAPTURE_BYTES
        else rodata.captureBytes
      vectorLoop ctx label array count MAX_VECTOR_CHUNKS 0 actual.toNat budget m

end MongoDam.Bpf
