import MongoDam.Lib.Outcome
import MongoDam.Observer.Sockets

/-!
# Readers of `/proc`, with panics

What the processor reads from the files of a process, with the index, slice and
overflow checks: the pod identifier in the path of its control group, and the rows of
its socket tables.
-/

namespace MongoDam.Observer

open Lib Schema Protocol Outcome

/-! ### Pod identifiers -/

/-- What follows each occurrence of `pod`. -/
def podSuffixes : List Char → List (List Char)
  | 'p' :: 'o' :: 'd' :: rest => rest :: podSuffixes rest
  | _ :: rest => podSuffixes rest
  | [] => []

/-- The characters at the beginning of a text that an identifier may have, with hyphens. -/
def podCandidate (suffix : List Char) : List Char :=
  (suffix.takeWhile fun c => (hexDigit? c).isSome || c = '-' || c = '_').map fun c =>
    if c = '_' then '-' else c

/-- Hexadecimal digits in five groups, between hyphens. -/
def isPodUid (uid : List Char) : Bool :=
  uid.zipIdx.all fun entry =>
    if entry.2 ∈ [8, 13, 18, 23] then entry.1 = '-' else (hexDigit? entry.1).isSome

/-- The identifier at the beginning of a text. -/
def podUidOf (suffix : List Char) : Option String :=
  let normalized := podCandidate suffix
  if 36 ≤ utf8Length normalized then
    let uid := normalized.take 36
    if isPodUid uid then some (toAsciiLowercase (String.ofList uid)) else none
  else none

def extractPodUid (cgroup : List Char) : Option String :=
  (podSuffixes cgroup).findSome? podUidOf

/-- The pod of a process. -/
def ProcFs.podUid (proc : ProcFs) (tgid : ℕ) : Option String :=
  (proc.readToString [toString tgid, "cgroup"]).bind extractPodUid

/-- The text of every file fits into memory. -/
def ProcFs.FitsMemory (proc : ProcFs) : Prop :=
  ∀ path text, proc.readToString path = some text → utf8Length text < 2 ^ 63

/-- The host with the answers that its files give, the pods of its processes included. -/
def Host.readingFiles (host : Host) (proc : ProcFs) : Host :=
  { host.withFiles proc with podUid := proc.podUid }

namespace Checked

variable {ε : Type}

/-- The byte offsets of the occurrences of `pod`, from an offset on. -/
def podMarkers : ℕ → List Char → List ℕ
  | offset, 'p' :: 'o' :: 'd' :: rest => offset :: podMarkers (offset + 3) rest
  | offset, c :: rest => podMarkers (offset + c.utf8Size) rest
  | _, [] => []

def podUidOf (suffix : List Char) : Outcome ε (Option String) := do
  let normalized := podCandidate suffix
  if 36 ≤ utf8Length normalized then
    let uid ← strTo normalized 36
    return if isPodUid uid then some (toAsciiLowercase (String.ofList uid)) else none
  else return none

/-- The loop of `extractPodUid`. -/
def extractPodUidLoop (cgroup : List Char) : List ℕ → Outcome ε (Option String)
  | [] => return none
  | marker :: rest => do
    let suffix ← strFrom cgroup (← add marker 3)
    match ← podUidOf suffix with
    | some uid => return some uid
    | none => extractPodUidLoop cgroup rest

def extractPodUid (cgroup : List Char) : Outcome ε (Option String) :=
  extractPodUidLoop cgroup (podMarkers 0 cgroup)

def podUid (proc : ProcFs) (tgid : ℕ) : Outcome ε (Option String) :=
  match proc.readToString [toString tgid, "cgroup"] with
  | none => return none
  | some cgroup => extractPodUid cgroup

/-! ### Socket tables -/

/-- The loop over the words of an IPv6 address. -/
def ipv6Words (encoded : Bytes) : List ℕ → Bytes → Outcome ε (Option Bytes)
  | [], bytes => return some bytes
  | wordIndex :: rest, bytes =>
    match fromUtf8 ((encoded.drop (wordIndex * 8)).take 8) with
    | none => return none
    | some word =>
      match fromStrRadix16 32 word.toList with
      | none => return none
      | some decoded => do
        let start ← mul wordIndex 4
        let stop ← add (← mul wordIndex 4) 4
        ipv6Words encoded rest (← copyFromSlice bytes start stop (leBytes 4 decoded))

def ipv6Bytes (address : List Char) : Outcome ε (Option Bytes) :=
  let encoded := toUtf8 (String.ofList address)
  if encoded.length ≠ 32 then return none
  else ipv6Words encoded [0, 1, 2, 3] (List.replicate 16 0)

/-- The text of the address of an endpoint. -/
def addressText (address : List Char) (ipv6 : Bool) : Outcome ε (Option String) := do
  if ipv6 then return (← ipv6Bytes address).map ipv6Text
  else return (fromStrRadix16 32 address).map fun encoded => ipv4Text (leBytes 4 encoded)

def parseEndpoint (value : List Char) (ipv6 : Bool) : Outcome ε (Option NetworkEndpoint) := do
  match splitOnce ':' value with
  | none => return none
  | some (address, port) =>
    match fromStrRadix16 16 port with
    | none => return none
    | some port =>
      return (← addressText address ipv6).map fun address =>
        { address := some address, port := some port }

/-- The row loop of `parseProcNetTcp`. -/
def parseRows (wantedInode : List Char) (ipv6 : Bool) :
    List (List (List Char)) → Outcome ε (Option (NetworkEndpoint × NetworkEndpoint))
  | [] => return none
  | fields :: rest => do
    if fields.length < 10 then parseRows wantedInode ipv6 rest
    else if (← index fields 9) ≠ wantedInode then parseRows wantedInode ipv6 rest
    else
      match ← parseEndpoint (← index fields 1) ipv6 with
      | none => return none
      | some localEndpoint =>
        match ← parseEndpoint (← index fields 2) ipv6 with
        | none => return none
        | some remoteEndpoint => return some (localEndpoint, remoteEndpoint)

/-- The table loop of `resolveSocketEndpoints`. -/
def searchTables (proc : ProcFs) (tgid : ℕ) (inode : List Char) :
    List (String × Bool) → Outcome ε (Option (NetworkEndpoint × NetworkEndpoint))
  | [] => return none
  | (name, ipv6) :: rest =>
    match proc.table tgid name with
    | none => return none
    | some table => do
      match ← parseRows inode ipv6 (tableRows table) with
      | some value => return some value
      | none => searchTables proc tgid inode rest

def resolveSocketEndpoints (proc : ProcFs) (tgid : ℕ) (fd : ℤ) :
    Outcome ε (Option (NetworkEndpoint × NetworkEndpoint)) :=
  match socketInode proc tgid fd with
  | none => return none
  | some inode => searchTables proc tgid inode socketTables

end Checked

/-! ### Pod identifiers -/

section Pods

variable {ε : Type}

/-- A slice of a text from behind its beginning. -/
theorem strFrom_append (front rest : List Char) :
    (strFrom (front ++ rest) (utf8Length front) : Outcome ε (List Char)) = returned (.ok rest) := by
  induction front with
  | nil =>
    cases rest <;> rfl
  | cons c front ih =>
    have hsize := Char.utf8Size_pos c
    have hlength : utf8Length (c :: front) = utf8Length front + c.utf8Size := by
      rw [utf8Length, List.map_cons, List.sum_cons, Nat.add_comm]
      rfl
    obtain ⟨n, hn⟩ := Nat.exists_eq_succ_of_ne_zero (by omega : utf8Length (c :: front) ≠ 0)
    rw [List.cons_append, hn, strFrom, if_pos (by omega)]
    rw [show n + 1 - c.utf8Size = utf8Length front by omega]
    exact ih

/-- A slice of ASCII characters takes as many characters as bytes. -/
theorem strTo_ascii {text : List Char} (hascii : ∀ c ∈ text, c.utf8Size = 1) {stop : ℕ}
    (hstop : stop ≤ text.length) :
    (strTo text stop : Outcome ε (List Char)) = returned (.ok (text.take stop)) := by
  induction text generalizing stop with
  | nil =>
    obtain rfl := Nat.le_zero.mp hstop
    rfl
  | cons c rest ih =>
    cases stop with
    | zero => rfl
    | succ stop =>
      have hsize := hascii c (by simp)
      rw [strTo, if_pos (by omega), hsize, Nat.add_sub_cancel,
        ih (fun c hc => hascii c (by simp [hc])) (Nat.le_of_succ_le_succ hstop)]
      rfl

theorem utf8Length_append (front rest : List Char) :
    utf8Length (front ++ rest) = utf8Length front + utf8Length rest := by
  rw [utf8Length, List.map_append, List.sum_append]
  rfl

theorem utf8Length_ascii {text : List Char} (hascii : ∀ c ∈ text, c.utf8Size = 1) :
    utf8Length text = text.length := by
  induction text with
  | nil => rfl
  | cons c rest ih =>
    have hrest := ih fun c hc => hascii c (by simp [hc])
    rw [utf8Length] at hrest
    rw [utf8Length, List.map_cons, List.sum_cons, hascii c (by simp), hrest, List.length_cons,
      Nat.add_comm]

theorem utf8Size_of_lt {c : Char} (h : c.toNat < 128) : c.utf8Size = 1 :=
  Char.utf8Size_eq_one_iff.mpr (Nat.le_of_lt_succ h)

theorem podCandidate_ascii (suffix : List Char) : ∀ c ∈ podCandidate suffix, c.utf8Size = 1 := by
  intro c hc
  obtain ⟨d, hd, rfl⟩ := List.mem_map.mp hc
  have hallowed := List.all_eq_true.mp List.all_takeWhile d hd
  split
  · rfl
  · rename_i hother
    simp only [Bool.or_eq_true, decide_eq_true_eq] at hallowed
    rcases hallowed with (hdigit | rfl) | rfl
    · obtain ⟨value, hvalue⟩ := Option.isSome_iff_exists.mp hdigit
      exact utf8Size_of_lt (hexDigit?_lt hvalue)
    · rfl
    · rfl

theorem podUidOf_returned (suffix : List Char) :
    (Checked.podUidOf suffix : Outcome ε (Option String)) = returned (.ok (podUidOf suffix)) := by
  unfold Checked.podUidOf podUidOf
  have hascii := podCandidate_ascii suffix
  dsimp only
  rw [utf8Length_ascii hascii]
  split
  · rename_i hlong
    rw [strTo_ascii hascii hlong]
    rfl
  · rfl

/-- The suffixes are what lies behind the markers. -/
theorem extractPodUidLoop_returned {cgroup front text : List Char}
    (hcgroup : front ++ text = cgroup) (hlength : utf8Length cgroup < 2 ^ 63) :
    (Checked.extractPodUidLoop cgroup (Checked.podMarkers (utf8Length front) text) :
        Outcome ε (Option String)) =
      returned (.ok ((podSuffixes text).findSome? podUidOf)) := by
  fun_induction podSuffixes text generalizing front with
  | case1 rest ih =>
    have hfront : front ++ ['p', 'o', 'd'] ++ rest = cgroup := by
      rw [← hcgroup, List.append_assoc]
      rfl
    have hsize : utf8Length (front ++ ['p', 'o', 'd']) = utf8Length front + 3 :=
      utf8Length_append front ['p', 'o', 'd']
    have hrest : utf8Length (front ++ ['p', 'o', 'd'] ++ rest) =
        utf8Length front + 3 + utf8Length rest := by
      rw [utf8Length_append, hsize]
    rw [hfront] at hrest
    have hsuffix : (strFrom cgroup (utf8Length front + 3) : Outcome ε (List Char)) =
        returned (.ok rest) := by
      rw [← hfront, ← hsize]
      exact strFrom_append _ rest
    have hlater := ih hfront
    rw [hsize] at hlater
    rw [Checked.podMarkers, Checked.extractPodUidLoop, add_eq (by omega), returned_ok_bind, hsuffix,
      returned_ok_bind, podUidOf_returned, returned_ok_bind, List.findSome?_cons]
    cases podUidOf rest with
    | some uid => rfl
    | none => exact hlater
  | case2 c rest hother ih =>
    have hfront : front ++ [c] ++ rest = cgroup := by
      rw [← hcgroup, List.append_assoc]
      rfl
    have hsize : utf8Length (front ++ [c]) = utf8Length front + c.utf8Size :=
      utf8Length_append front [c]
    have hlater := ih hfront
    rw [hsize] at hlater
    rw [Checked.podMarkers]
    · exact hlater
    · exact hother
  | case3 => rfl

theorem podUid_returned {proc : ProcFs} {tgid : ℕ} (hproc : proc.FitsMemory) :
    (Checked.podUid proc tgid : Outcome ε (Option String)) =
      returned (.ok (proc.podUid tgid)) := by
  unfold Checked.podUid ProcFs.podUid
  cases hread : proc.readToString [toString tgid, "cgroup"] with
  | none => rfl
  | some cgroup =>
    exact extractPodUidLoop_returned (List.nil_append cgroup) (hproc _ _ hread)

end Pods

/-! ### Socket tables -/

section Sockets

variable {ε : Type}

/-- A word of an IPv6 address. -/
def ipv6Word (encoded : Bytes) (wordIndex : ℕ) : Option Bytes := do
  let word ← fromUtf8 ((encoded.drop (wordIndex * 8)).take 8)
  let decoded ← fromStrRadix16 32 word.toList
  return leBytes 4 decoded

/-- The words are written one behind the other. -/
theorem ipv6Words_returned (encoded : Bytes) (count : ℕ) {first : ℕ} {done : Bytes}
    (hdone : done.length = first * 4) (hcount : first + count ≤ 4) :
    (Checked.ipv6Words encoded (List.range' first count)
        (done ++ List.replicate (count * 4) 0) : Outcome ε (Option Bytes)) =
      returned (.ok (((List.range' first count).mapM (ipv6Word encoded)).map
        fun words => done ++ words.flatten)) := by
  induction count generalizing first done with
  | zero =>
    rw [List.range'_zero, Nat.zero_mul, List.replicate_zero]
    rfl
  | succ count ih =>
    rw [List.range'_succ, Checked.ipv6Words, List.mapM_cons]
    cases hword : fromUtf8 ((encoded.drop (first * 8)).take 8) with
    | none =>
      have hnone : ipv6Word encoded first = none := by simp [ipv6Word, hword]
      rw [hnone]
      rfl
    | some word =>
      cases hdecoded : fromStrRadix16 32 word.toList with
      | none =>
        have hnone : ipv6Word encoded first = none := by simp [ipv6Word, hword, hdecoded]
        simp only [hdecoded, hnone]
        rfl
      | some decoded =>
        have hsome : ipv6Word encoded first = some (leBytes 4 decoded) := by
          simp [ipv6Word, hword, hdecoded]
        have htarget : (done ++ List.replicate ((count + 1) * 4) (0 : UInt8)).length =
            first * 4 + (count + 1) * 4 := by
          rw [List.length_append, hdone, List.length_replicate]
        have hrest : (done ++ List.replicate ((count + 1) * 4) (0 : UInt8)).drop (first * 4 + 4) =
            List.replicate (count * 4) 0 := by
          rw [← hdone, List.drop_length_add_append, List.drop_replicate, Nat.add_mul,
            Nat.add_sub_cancel]
        have hlater := @ih (first + 1) (done ++ leBytes 4 decoded)
          (by rw [List.length_append, leBytes_length]; omega) (by omega)
        simp only [hdecoded, hsome]
        rw [mul_eq (by omega), returned_ok_bind, returned_ok_bind, add_eq (by omega),
          returned_ok_bind, copyFromSlice_eq (by omega) (by omega) (by rw [leBytes_length]; omega),
          returned_ok_bind, List.take_left' hdone, hrest, hlater]
        cases (List.range' (first + 1) count).mapM (ipv6Word encoded) with
        | none => rfl
        | some words => simp [List.append_assoc]

theorem ipv6Bytes_returned (address : List Char) :
    (Checked.ipv6Bytes address : Outcome ε (Option Bytes)) =
      returned (.ok (ipv6Bytes address)) := by
  unfold Checked.ipv6Bytes ipv6Bytes
  dsimp only
  split
  · rfl
  · exact @ipv6Words_returned ε (toUtf8 (String.ofList address)) 4 0 [] rfl (by decide)

theorem addressText_returned (address : List Char) (ipv6 : Bool) :
    (Checked.addressText address ipv6 : Outcome ε (Option String)) =
      returned (.ok (if ipv6 then (ipv6Bytes address).map ipv6Text
        else (fromStrRadix16 32 address).map fun encoded => ipv4Text (leBytes 4 encoded))) := by
  unfold Checked.addressText
  rw [ipv6Bytes_returned]
  cases ipv6 with
  | true => rfl
  | false => rfl

theorem parseEndpoint_returned (value : List Char) (ipv6 : Bool) :
    (Checked.parseEndpoint value ipv6 : Outcome ε (Option NetworkEndpoint)) =
      returned (.ok (parseEndpoint value ipv6)) := by
  unfold Checked.parseEndpoint parseEndpoint
  cases splitOnce ':' value with
  | none => rfl
  | some parts =>
    obtain ⟨address, port⟩ := parts
    cases hport : fromStrRadix16 16 port with
    | none => simp [hport]
    | some port =>
      simp only [Option.bind_eq_bind, Option.bind_some, hport]
      rw [addressText_returned, returned_ok_bind]
      cases ipv6 with
      | true => cases ipv6Bytes address <;> rfl
      | false => cases fromStrRadix16 32 address <;> rfl

theorem parseRows_returned (wantedInode : List Char) (ipv6 : Bool)
    (rows : List (List (List Char))) :
    (Checked.parseRows wantedInode ipv6 rows :
        Outcome ε (Option (NetworkEndpoint × NetworkEndpoint))) =
      returned (.ok (parseRows wantedInode ipv6 rows)) := by
  induction rows with
  | nil => rfl
  | cons fields rest ih =>
    rw [Checked.parseRows, parseRows]
    unfold isRowOf
    by_cases hshort : fields.length < 10
    · rw [if_pos hshort, ih, if_neg (by simp; omega)]
    rw [if_neg hshort, index_eq (by omega), returned_ok_bind,
      List.getElem?_eq_getElem (by omega : 9 < fields.length)]
    by_cases hinode : fields[9] = wantedInode
    · rw [if_neg (not_not_intro hinode), if_pos (by simp [hinode]; omega), index_eq (by omega),
        returned_ok_bind, parseEndpoint_returned, returned_ok_bind, rowEndpoints,
        List.getElem_eq_getD []]
      cases parseEndpoint (fields.getD 1 []) ipv6 with
      | none => rfl
      | some localEndpoint =>
        dsimp only
        rw [index_eq (by omega), returned_ok_bind, parseEndpoint_returned, returned_ok_bind,
          List.getElem_eq_getD []]
        cases parseEndpoint (fields.getD 2 []) ipv6 with
        | none => rfl
        | some remoteEndpoint => rfl
    · rw [if_pos hinode, ih, if_neg (by simp [hinode])]

theorem searchTables_returned (proc : ProcFs) (tgid : ℕ) (inode : List Char)
    (tables : List (String × Bool)) :
    (Checked.searchTables proc tgid inode tables :
        Outcome ε (Option (NetworkEndpoint × NetworkEndpoint))) =
      returned (.ok (searchTables proc tgid inode tables)) := by
  induction tables with
  | nil => rfl
  | cons entry rest ih =>
    obtain ⟨name, ipv6⟩ := entry
    rw [Checked.searchTables, searchTables]
    cases proc.table tgid name with
    | none => rfl
    | some table =>
      dsimp only
      rw [parseRows_returned, returned_ok_bind, parseProcNetTcp]
      cases parseRows inode ipv6 (tableRows table) with
      | some value => rfl
      | none => exact ih

theorem resolveSocketEndpoints_returned (proc : ProcFs) (tgid : ℕ) (fd : ℤ) :
    (Checked.resolveSocketEndpoints proc tgid fd :
        Outcome ε (Option (NetworkEndpoint × NetworkEndpoint))) =
      returned (.ok (resolveSocketEndpoints proc tgid fd)) := by
  unfold Checked.resolveSocketEndpoints resolveSocketEndpoints
  cases socketInode proc tgid fd with
  | none => rfl
  | some inode => exact searchTables_returned proc tgid inode socketTables

end Sockets

end MongoDam.Observer
