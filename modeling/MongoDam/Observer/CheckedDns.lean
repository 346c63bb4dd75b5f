import MongoDam.Lib.Outcome
import MongoDam.Observer.Dns

/-!
# DNS messages, with panics

The reader of DNS messages with its overflow checks. A round of the loop over a name
follows one of sixteen pointers or decodes some of 254 bytes, a label at a time, so that
the loop is over after at most 144 rounds.
-/

namespace MongoDam.Observer

open Lib Outcome

namespace Checked

def readNetworkU16 (bytes : Bytes) (offset : ℕ) : Outcome String ℕ := do
  let stop ← add offset 2
  match slice? bytes offset stop with
  | some [high, low] => return high.toNat * 256 + low.toNat
  | _ => fail "truncated DNS integer"

/-- The variables of the loop of `parseDnsName`. -/
structure NameState where
  labels : List Bytes := []
  cursor : ℕ
  afterName : Option ℕ := none
  jumps : ℕ := 0
  decodedBytes : ℕ := 0

/-- A round of the loop of `parseDnsName`. -/
def parseDnsNameRound (bytes : Bytes) (state : NameState) :
    Outcome String (NameState ⊕ String × ℕ) := do
  let length ← okOr "truncated DNS name" bytes[state.cursor]?
  if length.toNat / 64 = 3 then
    let second ← okOr "truncated DNS compression pointer" bytes[← add state.cursor 1]?
    let behind ← add state.cursor 2
    let jumps ← add state.jumps 1
    if 16 < jumps then fail "DNS compression pointer loop"
    else
      return .inl { state with
        cursor := length.toNat % 64 * 256 + second.toNat
        afterName := some (state.afterName.getD behind)
        jumps }
  else if length.toNat / 64 ≠ 0 then fail "invalid DNS label type"
  else
    let cursor ← add state.cursor 1
    if length = 0 then return .inr (joinLabels state.labels, state.afterName.getD cursor)
    else if 63 < length.toNat then fail "invalid DNS label length"
    else
      let stop ← okOr "invalid DNS label length" (checkedAdd cursor length.toNat)
      let label ← okOr "truncated DNS label" (slice? bytes cursor stop)
      if !label.all isLabelByte then fail "DNS label contains unsupported bytes"
      else
        let decodedBytes := saturatingAdd state.decodedBytes (← add label.length 1)
        if 254 < decodedBytes then fail "DNS name exceeds protocol limit"
        else
          return .inl { state with labels := state.labels ++ [label], cursor := stop, decodedBytes }

def parseDnsName (fuel : ℕ) (bytes : Bytes) (offset : ℕ) : Outcome String (String × ℕ) :=
  loop (parseDnsNameRound bytes) fuel { cursor := offset }

def decodeDnsMessage (fuel : ℕ) (bytes : Bytes) : Outcome String DecodedDnsMessage := do
  if bytes.length < 12 then fail "truncated DNS header"
  else
    let queryId ← readNetworkU16 bytes 0
    let flags ← readNetworkU16 bytes 2
    let questionCount ← readNetworkU16 bytes 4
    let answerCount ← readNetworkU16 bytes 6
    let (name, recordType) ←
      if 0 < questionCount then do
        let (name, afterName) ← parseDnsName fuel bytes 12
        let recordType ← readNetworkU16 bytes afterName
        let _ ← readNetworkU16 bytes (← add afterName 2)
        pure (some name, some (dnsRecordType recordType))
      else pure (none, none)
    return { queryId, response := flags / 2 ^ 15 % 2 = 1, responseCode := flags % 16, answerCount,
             name, recordType }

end Checked

section Dns

variable {bytes : Bytes}

theorem readNetworkU16_returned {offset : ℕ} (hoffset : offset < 2 ^ 32) :
    Checked.readNetworkU16 bytes offset = returned (readNetworkU16 bytes offset) := by
  unfold Checked.readNetworkU16 readNetworkU16
  rw [add_eq (by omega), returned_ok_bind]
  cases slice? bytes offset (offset + 2) with
  | none => rfl
  | some part =>
    match part with
    | [] => rfl
    | [_] => rfl
    | [_, _] => rfl
    | _ :: _ :: _ :: _ => rfl

/-- The loop of `parseDnsName` on its variables. -/
def parseDnsNameFrom (bytes : Bytes) (state : Checked.NameState) : Except String (String × ℕ) :=
  parseDnsNameLoop bytes state.labels state.cursor state.afterName state.jumps state.decodedBytes

/-- A round of the loop of `parseDnsName`, its numbers unbounded. -/
def parseDnsNameRound (bytes : Bytes) (state : Checked.NameState) :
    Except String (Checked.NameState ⊕ String × ℕ) :=
  match bytes[state.cursor]? with
  | none => .error "truncated DNS name"
  | some length =>
    if length.toNat / 64 = 3 then
      match bytes[state.cursor + 1]? with
      | none => .error "truncated DNS compression pointer"
      | some second =>
        if 16 < state.jumps + 1 then .error "DNS compression pointer loop"
        else
          .ok (.inl { state with
            cursor := length.toNat % 64 * 256 + second.toNat
            afterName := some (state.afterName.getD (state.cursor + 2))
            jumps := state.jumps + 1 })
    else if length.toNat / 64 ≠ 0 then .error "invalid DNS label type"
    else if length = 0 then
      .ok (.inr (joinLabels state.labels, state.afterName.getD (state.cursor + 1)))
    else
      match slice? bytes (state.cursor + 1) (state.cursor + 1 + length.toNat) with
      | none => .error "truncated DNS label"
      | some label =>
        if !label.all isLabelByte then .error "DNS label contains unsupported bytes"
        else if 254 < state.decodedBytes + (label.length + 1) then
          .error "DNS name exceeds protocol limit"
        else
          .ok (.inl { state with
            labels := state.labels ++ [label]
            cursor := state.cursor + 1 + length.toNat
            decodedBytes := state.decodedBytes + (label.length + 1) })

/-- The limits on pointers and on decoded bytes. -/
def Checked.NameState.WithinLimits (state : Checked.NameState) : Prop :=
  state.jumps ≤ 16 ∧ state.decodedBytes ≤ 254

/-- How many pointers and labels the limits still allow; a label takes at least two bytes. -/
def Checked.NameState.remaining (state : Checked.NameState) : ℕ :=
  16 - state.jumps + (254 - state.decodedBytes) / 2

/-- A round that goes on uses up a pointer or a label. -/
theorem parseDnsNameRound_follows (state : Checked.NameState) (hstate : state.WithinLimits) :
    Follows (parseDnsNameFrom bytes)
      (fun next => next.WithinLimits ∧ next.remaining < state.remaining)
      (parseDnsNameFrom bytes state) (returned (parseDnsNameRound bytes state)) := by
  obtain ⟨labels, cursor, afterName, jumps, decodedBytes⟩ := state
  unfold Checked.NameState.WithinLimits Checked.NameState.remaining parseDnsNameRound
    parseDnsNameFrom
  dsimp only [Checked.NameState.WithinLimits] at hstate ⊢
  rw [parseDnsNameLoop]
  split
  · rename_i hlength
    rw [hlength]
    rfl
  rename_i length hlength
  rw [hlength]
  dsimp only
  by_cases hpointer : length.toNat / 64 = 3
  · rw [if_pos hpointer, if_pos hpointer]
    cases bytes[cursor + 1]? with
    | none => rfl
    | some second =>
      dsimp only
      by_cases hjumps : 16 < jumps + 1
      · rw [if_pos hjumps, if_pos hjumps]
        rfl
      · rw [if_neg hjumps, if_neg hjumps]
        exact ⟨⟨⟨by dsimp only; omega, hstate.2⟩, by dsimp only; omega⟩, rfl⟩
  rw [if_neg hpointer, if_neg hpointer]
  by_cases htype : length.toNat / 64 ≠ 0
  · rw [if_pos htype, if_pos htype]
    rfl
  rw [if_neg htype, if_neg htype]
  by_cases hend : length = 0
  · rw [if_pos hend, if_pos hend]
    rfl
  have hpos : length.toNat ≠ 0 := fun h => hend (UInt8.toNat_inj.mp h)
  rw [if_neg hend, if_neg hend]
  cases hlabel : slice? bytes (cursor + 1) (cursor + 1 + length.toNat) with
  | none => rfl
  | some label =>
    have hlabelLength := slice?_length hlabel
    dsimp only
    split
    · rfl
    by_cases hlimit : 254 < decodedBytes + (label.length + 1)
    · rw [if_pos hlimit, if_pos hlimit]
      rfl
    · rw [if_neg hlimit, if_neg hlimit]
      exact ⟨⟨⟨hstate.1, by dsimp only; omega⟩, by dsimp only; omega⟩, rfl⟩

/-- Within the limits, a round of the checked loop does not overflow. -/
theorem checkedNameRound_returned (hbytes : bytes.length < 2 ^ 31) (state : Checked.NameState)
    (hstate : state.WithinLimits) :
    Checked.parseDnsNameRound bytes state = returned (parseDnsNameRound bytes state) := by
  obtain ⟨labels, cursor, afterName, jumps, decodedBytes⟩ := state
  unfold Checked.parseDnsNameRound parseDnsNameRound
  dsimp only [Checked.NameState.WithinLimits] at hstate ⊢
  cases hlength : bytes[cursor]? with
  | none => rfl
  | some length =>
  have hcursor := (List.getElem?_eq_some_iff.mp hlength).1
  have hbyte := length.toNat_lt
  rw [okOr_some, returned_ok_bind]
  dsimp only
  by_cases hpointer : length.toNat / 64 = 3
  · rw [if_pos hpointer, if_pos hpointer, add_eq (by omega), returned_ok_bind]
    cases bytes[cursor + 1]? with
    | none => rfl
    | some second =>
      rw [okOr_some, returned_ok_bind, add_eq (by omega), returned_ok_bind, add_eq (by omega),
        returned_ok_bind]
      dsimp only
      by_cases hjumps : 16 < jumps + 1
      · rw [if_pos hjumps, if_pos hjumps]
        rfl
      · rw [if_neg hjumps, if_neg hjumps]
        rfl
  rw [if_neg hpointer, if_neg hpointer]
  by_cases htype : length.toNat / 64 ≠ 0
  · rw [if_pos htype, if_pos htype]
    rfl
  rw [if_neg htype, if_neg htype, add_eq (by omega), returned_ok_bind]
  by_cases hend : length = 0
  · rw [if_pos hend, if_pos hend]
    rfl
  rw [if_neg hend, if_neg hend, if_neg (by omega), checkedAdd_eq (by omega), okOr_some,
    returned_ok_bind]
  cases hlabel : slice? bytes (cursor + 1) (cursor + 1 + length.toNat) with
  | none => rfl
  | some label =>
    have hlabelLength := slice?_length hlabel
    have hsum : saturatingAdd decodedBytes (label.length + 1) =
        decodedBytes + (label.length + 1) := Nat.min_eq_left (by omega)
    rw [okOr_some, returned_ok_bind, add_eq (by omega), returned_ok_bind, hsum]
    dsimp only
    split
    · rfl
    by_cases hlimit : 254 < decodedBytes + (label.length + 1)
    · rw [if_pos hlimit, if_pos hlimit]
      rfl
    · rw [if_neg hlimit, if_neg hlimit]
      rfl

theorem withinLimits_start (offset : ℕ) :
    ({ cursor := offset } : Checked.NameState).WithinLimits :=
  ⟨Nat.zero_le _, Nat.zero_le _⟩

/-- Sixteen pointers and 127 labels are the most that can be followed. -/
theorem remaining_start (offset : ℕ) :
    ({ cursor := offset } : Checked.NameState).remaining = 143 := by
  simp [Checked.NameState.remaining]

theorem parseDnsName_returned {fuel offset : ℕ} (hbytes : bytes.length < 2 ^ 31)
    (hfuel : 144 ≤ fuel) :
    Checked.parseDnsName fuel bytes offset = returned (parseDnsName bytes offset) := by
  have hround : ∀ state : Checked.NameState, state.WithinLimits →
      Follows (parseDnsNameFrom bytes)
        (fun next => next.WithinLimits ∧ next.remaining < state.remaining)
        (parseDnsNameFrom bytes state) (Checked.parseDnsNameRound bytes state) := by
    intro state hstate
    rw [checkedNameRound_returned hbytes state hstate]
    exact parseDnsNameRound_follows state hstate
  exact loop_returned hround (withinLimits_start offset) (by rw [remaining_start]; omega)

/-- A name ends inside the message, or right behind a pointer. -/
theorem parseDnsNameLoop_le {labels : List Bytes} {cursor jumps decodedBytes stop : ℕ}
    {afterName : Option ℕ} {name : String}
    (h : parseDnsNameLoop bytes labels cursor afterName jumps decodedBytes = .ok (name, stop))
    (hafter : ∀ behind, afterName = some behind → behind ≤ bytes.length + 1) :
    stop ≤ bytes.length + 1 := by
  fun_induction parseDnsNameLoop bytes labels cursor afterName jumps decodedBytes with
  | case4 labels cursor afterName jumps decodedBytes length hlength hpointer second hsecond hjumps
      ih =>
    have hinside := (List.getElem?_eq_some_iff.mp hsecond).1
    refine ih h fun behind hbehind => ?_
    cases afterName with
    | none =>
      cases hbehind
      rw [Option.getD_none]
      omega
    | some earlier => exact hafter behind hbehind
  | case6 labels cursor afterName jumps decodedBytes hlength hpointer htype =>
    have hinside := (List.getElem?_eq_some_iff.mp hlength).1
    cases h
    cases afterName with
    | none => exact Nat.le_succ_of_le hinside
    | some earlier => exact hafter earlier rfl
  | case10 =>
    rename_i ih
    exact ih h hafter
  | _ => cases h

theorem decodeDnsMessage_returned {fuel : ℕ} (hbytes : bytes.length < 2 ^ 31)
    (hfuel : 144 ≤ fuel) :
    Checked.decodeDnsMessage fuel bytes = returned (decodeDnsMessage bytes) := by
  unfold Checked.decodeDnsMessage decodeDnsMessage
  split
  · rfl
  refine bind_returned (readNetworkU16_returned (by decide)) fun queryId _ => ?_
  refine bind_returned (readNetworkU16_returned (by decide)) fun flags _ => ?_
  refine bind_returned (readNetworkU16_returned (by decide)) fun questionCount _ => ?_
  refine bind_returned (readNetworkU16_returned (by decide)) fun answerCount _ => ?_
  dsimp only
  split
  · refine bind_returned (parseDnsName_returned hbytes hfuel) ?_
    rintro ⟨name, afterName⟩ hname
    have hle := parseDnsNameLoop_le hname nofun
    refine bind_returned (readNetworkU16_returned (by omega)) fun recordType _ => ?_
    rw [add_eq (by omega), returned_ok_bind]
    exact bind_returned (readNetworkU16_returned (by omega)) fun recordClass _ => rfl
  · rfl

end Dns

end MongoDam.Observer
