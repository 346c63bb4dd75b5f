import MongoDam.Observer.CheckedDns
import MongoDam.Lib.Text

/-!
# The names of DNS messages

A name is a list of labels, of at most 254 bytes with their lengths. In a message it is
followed from an offset through labels and pointers up to a zero byte. The reader accepts
exactly the names that are reached through at most sixteen pointers, and returns them in
lower case with the position behind the part at the offset.
-/

namespace MongoDam.Observer

open Lib Outcome

/-! ### Names -/

/-- A character of a label. -/
def isNameCharacter (c : Char) : Bool := c.isAlphanum || c = '-' || c = '_'

/-- A label: up to 63 letters, digits, hyphens and underscores. -/
structure DnsLabel where
  text : List Char
  nonempty : text ≠ []
  short : text.length ≤ 63
  allowed : text.all isNameCharacter = true

namespace DnsLabel

def bytes (label : DnsLabel) : Bytes := label.text.map fun c => UInt8.ofNat c.toNat

/-- A label behind its length. -/
def encode (label : DnsLabel) : Bytes := UInt8.ofNat label.text.length :: label.bytes

end DnsLabel

/-- The bytes that labels take up with their lengths. -/
def nameLength (labels : List DnsLabel) : ℕ :=
  (labels.map fun label => label.text.length + 1).sum

/-- Labels, joined by dots. -/
def nameText (labels : List DnsLabel) : String :=
  String.ofList (['.'].intercalate (labels.map DnsLabel.text))

/-- A name, of at most 254 bytes. -/
structure DnsName where
  labels : List DnsLabel
  short : nameLength labels ≤ 254

namespace DnsName

def text (name : DnsName) : String := nameText name.labels

/-- The uncompressed encoding: the labels and a zero byte. -/
def encode (name : DnsName) : Bytes := name.labels.flatMap DnsLabel.encode ++ [0]

end DnsName

/-- A pointer to a position of the message: two bits that are set, and 14 bits of the target. -/
def encodePointer (target : ℕ) : Bytes :=
  [UInt8.ofNat (0xc0 + target / 256), UInt8.ofNat (target % 256)]

/-- From the cursor, labels and pointers lead to a zero byte. The name stops behind the zero byte,
or behind the first pointer when there is one. -/
inductive NameAt (bytes : Bytes) : (cursor : ℕ) → (labels : List DnsLabel) → (pointers : ℕ) →
    (stop : ℕ) → Prop
  | root {cursor : ℕ} (hzero : [0] <+: bytes.drop cursor) : NameAt bytes cursor [] 0 (cursor + 1)
  | label {cursor pointers stop : ℕ} {label : DnsLabel} {labels : List DnsLabel}
      (hlabel : label.encode <+: bytes.drop cursor)
      (hrest : NameAt bytes (cursor + label.encode.length) labels pointers stop) :
      NameAt bytes cursor (label :: labels) pointers stop
  | pointer {cursor target pointers stop : ℕ} {labels : List DnsLabel}
      (htarget : target < 2 ^ 14) (hpointer : encodePointer target <+: bytes.drop cursor)
      (hrest : NameAt bytes target labels pointers stop) :
      NameAt bytes cursor labels (pointers + 1) (cursor + 2)

/-! ### Labels as bytes -/

private theorem isLabelByte_eq_ascii : ∀ n < 256,
    isLabelByte (UInt8.ofNat n) = isNameCharacter (Char.ofNat n) := by
  decide +kernel

theorem isLabelByte_eq (b : UInt8) : isLabelByte b = isNameCharacter (Char.ofNat b.toNat) := by
  have hbyte := isLabelByte_eq_ascii b.toNat b.toNat_lt
  rwa [UInt8.ofNat_toNat] at hbyte

theorem isNameCharacter_lt {c : Char} (h : isNameCharacter c) : c.toNat < 128 := by
  have hupper : c.isUpper = true → c.toNat ≤ 90 := fun h => (of_decide_eq_true h).2
  have hlower : c.isLower = true → c.toNat ≤ 122 := fun h =>
    of_decide_eq_true (Bool.and_eq_true_iff.mp h).2
  have hdigit : c.isDigit = true → c.toNat ≤ 57 := fun h => (Char.isDigit_iff_toNat.mp h).2
  have halphanum : c.isAlphanum = ((c.isUpper || c.isLower) || c.isDigit) := rfl
  simp only [isNameCharacter, halphanum, Bool.or_eq_true, decide_eq_true_eq] at h
  obtain (((h | h) | h) | rfl) | rfl := h
  · exact Nat.lt_of_le_of_lt (hupper h) (by decide)
  · exact Nat.lt_of_le_of_lt (hlower h) (by decide)
  · exact Nat.lt_of_le_of_lt (hdigit h) (by decide)
  · decide
  · decide

theorem char_of_byte {c : Char} (h : c.toNat < 128) :
    Char.ofNat (UInt8.ofNat c.toNat).toNat = c := by
  rw [UInt8.toNat_ofNat', Nat.mod_eq_of_lt (by omega), Char.ofNat_toNat]

private theorem toNat_charOfNat : ∀ n < 256, (Char.ofNat n).toNat = n := by
  decide +kernel

theorem byte_of_char (b : UInt8) : UInt8.ofNat (Char.ofNat b.toNat).toNat = b := by
  rw [toNat_charOfNat b.toNat b.toNat_lt, UInt8.ofNat_toNat]

namespace DnsLabel

variable (label : DnsLabel)

theorem text_lt {c : Char} (hc : c ∈ label.text) : c.toNat < 128 :=
  isNameCharacter_lt (List.all_eq_true.mp label.allowed c hc)

@[simp] theorem length_bytes : label.bytes.length = label.text.length := List.length_map ..

@[simp] theorem length_encode : label.encode.length = label.text.length + 1 := by
  rw [encode, List.length_cons, length_bytes]

theorem toNat_length : (UInt8.ofNat label.text.length).toNat = label.text.length := by
  have hshort := label.short
  rw [UInt8.toNat_ofNat', Nat.mod_eq_of_lt (by omega)]

/-- The characters of a label are read back from its bytes. -/
theorem chars_bytes : label.bytes.map (fun b => Char.ofNat b.toNat) = label.text := by
  rw [bytes, List.map_map]
  exact (List.map_congr_left fun c hc => char_of_byte (label.text_lt hc)).trans (List.map_id _)

theorem bytes_allowed : label.bytes.all isLabelByte = true := by
  rw [bytes, List.all_map, List.all_eq_true]
  intro c hc
  rw [Function.comp_apply, isLabelByte_eq, char_of_byte (label.text_lt hc)]
  exact List.all_eq_true.mp label.allowed c hc

/-- Up to 63 allowed bytes are the bytes of a label. -/
theorem exists_of_bytes {part : Bytes} (hnonempty : part ≠ []) (hshort : part.length ≤ 63)
    (hallowed : part.all isLabelByte = true) : ∃ label : DnsLabel, label.bytes = part := by
  refine ⟨⟨part.map fun b => Char.ofNat b.toNat, ?_, ?_, ?_⟩, ?_⟩
  · rwa [Ne, List.map_eq_nil_iff]
  · rwa [List.length_map]
  · rw [List.all_map, ← hallowed]
    exact congrArg part.all (funext fun b => (isLabelByte_eq b).symm)
  · rw [bytes, List.map_map]
    exact (List.map_congr_left fun b _ => byte_of_char b).trans (List.map_id _)

end DnsLabel

theorem nameLength_cons (label : DnsLabel) (labels : List DnsLabel) :
    nameLength (label :: labels) = label.text.length + 1 + nameLength labels := by
  rw [nameLength, List.map_cons, List.sum_cons, nameLength]

/-! ### Texts of names -/

theorem joinLabels_bytes (labels : List DnsLabel) :
    joinLabels (labels.map DnsLabel.bytes) = toAsciiLowercase (nameText labels) := by
  have hlabel : ∀ label : DnsLabel,
      label.bytes.map (fun b => (Char.ofNat b.toNat).toLower) = label.text.map Char.toLower := by
    intro label
    rw [← label.chars_bytes, List.map_map]
    rfl
  rw [joinLabels, toAsciiLowercase, nameText, String.toList_ofList, map_intercalate,
    List.map_map, List.map_map]
  exact congrArg (fun parts => String.ofList (['.'].intercalate parts))
    (List.map_congr_left fun label _ => hlabel label)

/-! ### A round of the loop -/

section Round

variable {bytes : Bytes}

/-- The two bytes of a pointer. -/
theorem encodePointer_eq {length second : UInt8} (h : length.toNat / 64 = 3) :
    encodePointer (length.toNat % 64 * 256 + second.toNat) = [length, second] := by
  have hlength := length.toNat_lt
  have hsecond := second.toNat_lt
  have hhigh : 0xc0 + (length.toNat % 64 * 256 + second.toNat) / 256 = length.toNat := by omega
  have hlow : (length.toNat % 64 * 256 + second.toNat) % 256 = second.toNat := by omega
  rw [encodePointer, hhigh, hlow, UInt8.ofNat_toNat, UInt8.ofNat_toNat]

theorem exists_of_pointer {target : ℕ} (htarget : target < 2 ^ 14) :
    ∃ length second : UInt8, encodePointer target = [length, second] ∧
      length.toNat / 64 = 3 ∧ length.toNat % 64 * 256 + second.toNat = target := by
  refine ⟨_, _, rfl, ?_⟩
  rw [UInt8.toNat_ofNat', UInt8.toNat_ofNat']
  omega

/-- Go on at the target of a pointer. -/
def Checked.NameState.jumpTo (state : Checked.NameState) (target : ℕ) : Checked.NameState :=
  { state with
    cursor := target
    afterName := some (state.afterName.getD (state.cursor + 2))
    jumps := state.jumps + 1 }

/-- Go on behind a label. -/
def Checked.NameState.readLabel (state : Checked.NameState) (label : DnsLabel) :
    Checked.NameState :=
  { state with
    labels := state.labels ++ [label.bytes]
    cursor := state.cursor + label.encode.length
    decodedBytes := state.decodedBytes + label.encode.length }

variable {state : Checked.NameState}

theorem parseDnsNameRound_root (hzero : [0] <+: bytes.drop state.cursor) :
    parseDnsNameRound bytes state =
      .ok (.inr (joinLabels state.labels, state.afterName.getD (state.cursor + 1))) := by
  rw [parseDnsNameRound, (cons_prefix_drop.mp hzero).1]
  rfl

theorem parseDnsNameRound_pointer {target : ℕ} (htarget : target < 2 ^ 14)
    (hpointer : encodePointer target <+: bytes.drop state.cursor) (hjumps : state.jumps < 16) :
    parseDnsNameRound bytes state = .ok (.inl (state.jumpTo target)) := by
  obtain ⟨length, second, hencode, htype, rfl⟩ := exists_of_pointer htarget
  rw [hencode] at hpointer
  obtain ⟨hlength, hpointer⟩ := cons_prefix_drop.mp hpointer
  have hsecond := (cons_prefix_drop.mp hpointer).1
  unfold parseDnsNameRound
  rw [hlength, hsecond]
  dsimp only
  rw [if_pos htype, if_neg (by omega)]
  rfl

theorem parseDnsNameRound_label {label : DnsLabel}
    (hlabel : label.encode <+: bytes.drop state.cursor)
    (hdecoded : state.decodedBytes + label.encode.length ≤ 254) :
    parseDnsNameRound bytes state = .ok (.inl (state.readLabel label)) := by
  obtain ⟨hlength, hpart⟩ := cons_prefix_drop.mp hlabel
  have hpos : 0 < label.text.length := List.length_pos_iff.mpr label.nonempty
  have hshort := label.short
  have hnonzero : UInt8.ofNat label.text.length ≠ 0 := by
    intro hzero
    have hnat := label.toNat_length
    rw [hzero] at hnat
    exact absurd hnat (Nat.ne_of_lt hpos)
  have hslice : slice? bytes (state.cursor + 1) (state.cursor + 1 + label.text.length) =
      some label.bytes :=
    (slice?_eq_some_iff hpos).mpr ⟨label.length_bytes, hpart⟩
  rw [label.length_encode] at hdecoded
  unfold parseDnsNameRound
  rw [hlength]
  dsimp only
  rw [label.toNat_length, if_neg (by omega), if_neg (by omega), if_neg hnonzero, hslice]
  dsimp only
  rw [label.bytes_allowed, label.length_bytes, Bool.not_true, if_neg Bool.false_ne_true,
    if_neg (by omega), Checked.NameState.readLabel, label.length_encode, Nat.add_right_comm]
  rfl

/-- A length of at most 63 and as many allowed bytes behind it are a label. -/
theorem exists_label_at {cursor : ℕ} {length : UInt8} {part : Bytes}
    (hlength : bytes[cursor]? = some length) (hnonzero : length ≠ 0) (hshort : length.toNat ≤ 63)
    (hslice : slice? bytes (cursor + 1) (cursor + 1 + length.toNat) = some part)
    (hallowed : part.all isLabelByte = true) :
    ∃ label : DnsLabel, label.bytes = part ∧ label.text.length = length.toNat ∧
      label.encode <+: bytes.drop cursor := by
  have hpos : 0 < length.toNat :=
    Nat.pos_of_ne_zero fun hnat => hnonzero (UInt8.toNat_inj.mp hnat)
  obtain ⟨hpart, hprefix⟩ := (slice?_eq_some_iff hpos).mp hslice
  obtain ⟨label, rfl⟩ := DnsLabel.exists_of_bytes (List.length_pos_iff.mp (hpart ▸ hpos))
    (hpart ▸ hshort) hallowed
  rw [label.length_bytes] at hpart
  refine ⟨label, rfl, hpart, ?_⟩
  rw [DnsLabel.encode, hpart, UInt8.ofNat_toNat]
  exact cons_prefix_drop.mpr ⟨hlength, hprefix⟩

/-- Whatever a round goes on to or ends with comes from a zero byte, a pointer or a label. -/
theorem parseDnsNameRound_cases {out : Checked.NameState ⊕ String × ℕ}
    (h : parseDnsNameRound bytes state = .ok out) :
    ([0] <+: bytes.drop state.cursor ∧
      out = .inr (joinLabels state.labels, state.afterName.getD (state.cursor + 1))) ∨
    (∃ target < 2 ^ 14, encodePointer target <+: bytes.drop state.cursor ∧
      state.jumps < 16 ∧ out = .inl (state.jumpTo target)) ∨
    ∃ label : DnsLabel, label.encode <+: bytes.drop state.cursor ∧
      state.decodedBytes + label.encode.length ≤ 254 ∧ out = .inl (state.readLabel label) := by
  unfold parseDnsNameRound at h
  cases hlength : bytes[state.cursor]? with
  | none => rw [hlength] at h; cases h
  | some length =>
  rw [hlength] at h
  dsimp only at h
  by_cases hpointer : length.toNat / 64 = 3
  · rw [if_pos hpointer] at h
    cases hsecond : bytes[state.cursor + 1]? with
    | none => rw [hsecond] at h; cases h
    | some second =>
    rw [hsecond] at h
    dsimp only at h
    split at h
    · cases h
    cases h
    have hbyte := length.toNat_lt
    have hsecondByte := second.toNat_lt
    refine .inr (.inl ⟨_, by omega, ?_, by omega, rfl⟩)
    rw [encodePointer_eq hpointer]
    exact cons_prefix_drop.mpr
      ⟨hlength, cons_prefix_drop.mpr ⟨hsecond, List.nil_prefix⟩⟩
  rw [if_neg hpointer] at h
  split at h
  · cases h
  rename_i htype
  split at h
  · rename_i hzero
    cases h
    rw [hzero] at hlength
    exact .inl ⟨cons_prefix_drop.mpr ⟨hlength, List.nil_prefix⟩, rfl⟩
  rename_i hnonzero
  cases hslice : slice? bytes (state.cursor + 1) (state.cursor + 1 + length.toNat) with
  | none => rw [hslice] at h; cases h
  | some part =>
  rw [hslice] at h
  dsimp only at h
  split at h
  · cases h
  rename_i hallowed
  split at h
  · cases h
  rename_i hdecoded
  cases h
  obtain ⟨label, rfl, hpart, hlabel⟩ :=
    exists_label_at hlength hnonzero (by omega) hslice (by simpa using hallowed)
  rw [label.length_bytes] at hdecoded ⊢
  refine .inr (.inr ⟨label, hlabel, ?_, ?_⟩)
  · rw [label.length_encode]
    omega
  · rw [Checked.NameState.readLabel, label.length_encode, ← hpart, Nat.add_right_comm]
    rfl

end Round

/-! ### The loop -/

section Run

variable {bytes : Bytes} {state : Checked.NameState}

/-- The loop has the result of the state that its round goes on to. -/
theorem parseDnsNameFrom_next {next : Checked.NameState} (hstate : state.WithinLimits)
    (hround : parseDnsNameRound bytes state = .ok (.inl next)) :
    (next.WithinLimits ∧ next.remaining < state.remaining) ∧
      parseDnsNameFrom bytes state = parseDnsNameFrom bytes next := by
  have hfollows : Follows (parseDnsNameFrom bytes) _ _ _ := parseDnsNameRound_follows state hstate
  rwa [hround] at hfollows

theorem parseDnsNameFrom_value {value : String × ℕ} (hstate : state.WithinLimits)
    (hround : parseDnsNameRound bytes state = .ok (.inr value)) :
    parseDnsNameFrom bytes state = .ok value := by
  have hfollows : Follows (parseDnsNameFrom bytes) _ _ _ := parseDnsNameRound_follows state hstate
  rwa [hround] at hfollows

/-- A name within the limits is read: the loop goes through its labels and pointers. -/
theorem NameAt.parsed {cursor pointers stop : ℕ} {labels : List DnsLabel}
    (hname : NameAt bytes cursor labels pointers stop) (hcursor : state.cursor = cursor)
    (hpointers : state.jumps + pointers ≤ 16)
    (hdecoded : state.decodedBytes + nameLength labels ≤ 254) :
    parseDnsNameFrom bytes state =
      .ok (joinLabels (state.labels ++ labels.map DnsLabel.bytes),
        state.afterName.getD stop) := by
  have hstate : state.WithinLimits := ⟨by omega, by omega⟩
  induction hname generalizing state with
  | root hzero =>
    subst hcursor
    rw [parseDnsNameFrom_value hstate (parseDnsNameRound_root hzero), List.map_nil,
      List.append_nil]
  | @label cursor pointers stop label labels hlabel hrest ih =>
    subst hcursor
    rw [nameLength_cons, ← label.length_encode] at hdecoded
    obtain ⟨⟨hnext, -⟩, heq⟩ :=
      parseDnsNameFrom_next hstate (parseDnsNameRound_label hlabel (by omega))
    have hrestPointers : (state.readLabel label).jumps + pointers ≤ 16 := hpointers
    have hrestDecoded : (state.readLabel label).decodedBytes + nameLength labels ≤ 254 := by
      rwa [Checked.NameState.readLabel, Nat.add_assoc]
    rw [heq, ih rfl hrestPointers hrestDecoded hnext, Checked.NameState.readLabel,
      List.append_assoc]
    rfl
  | @pointer cursor target pointers stop labels htarget hpointer hrest ih =>
    subst hcursor
    obtain ⟨⟨hnext, -⟩, heq⟩ :=
      parseDnsNameFrom_next hstate (parseDnsNameRound_pointer htarget hpointer (by omega))
    have hrestPointers : (state.jumpTo target).jumps + pointers ≤ 16 := by
      rwa [Checked.NameState.jumpTo, Nat.add_right_comm, Nat.add_assoc]
    rw [heq, ih rfl hrestPointers hdecoded hnext]
    rfl

/-- Whatever is read is a name within the limits. -/
theorem nameAt_of_parsed {name : String} {stop : ℕ} (hstate : state.WithinLimits)
    (h : parseDnsNameFrom bytes state = .ok (name, stop)) :
    ∃ labels pointers behind, NameAt bytes state.cursor labels pointers behind ∧
      state.jumps + pointers ≤ 16 ∧ state.decodedBytes + nameLength labels ≤ 254 ∧
      name = joinLabels (state.labels ++ labels.map DnsLabel.bytes) ∧
      stop = state.afterName.getD behind := by
  induction hremaining : state.remaining using Nat.strongRecOn generalizing state with
  | _ remaining ih =>
  subst hremaining
  cases hround : parseDnsNameRound bytes state with
  | error e =>
    have hfollows : Follows (parseDnsNameFrom bytes) _ _ _ :=
      parseDnsNameRound_follows state hstate
    rw [hround] at hfollows
    exact nomatch h.symm.trans hfollows
  | ok out =>
  obtain ⟨hzero, rfl⟩ | ⟨target, htarget, hpointer, hjumps, rfl⟩ |
    ⟨label, hlabel, hdecoded, rfl⟩ := parseDnsNameRound_cases hround
  · rw [parseDnsNameFrom_value hstate hround] at h
    cases h
    exact ⟨[], 0, _, .root hzero, hstate.1, hstate.2, by rw [List.map_nil, List.append_nil], rfl⟩
  · obtain ⟨⟨hnext, hlt⟩, heq⟩ := parseDnsNameFrom_next hstate hround
    obtain ⟨labels, pointers, behind, hname, hpointers, hlength, rfl, rfl⟩ :=
      ih _ hlt hnext (heq.symm.trans h) rfl
    refine ⟨labels, pointers + 1, _, .pointer htarget hpointer hname, ?_, hlength, rfl, rfl⟩
    rwa [Checked.NameState.jumpTo, Nat.add_right_comm, Nat.add_assoc] at hpointers
  · obtain ⟨⟨hnext, hlt⟩, heq⟩ := parseDnsNameFrom_next hstate hround
    obtain ⟨labels, pointers, behind, hname, hpointers, hlength, rfl, rfl⟩ :=
      ih _ hlt hnext (heq.symm.trans h) rfl
    refine ⟨label :: labels, pointers, behind, .label hlabel hname, hpointers, ?_, ?_, rfl⟩
    · rwa [Checked.NameState.readLabel, Nat.add_assoc, label.length_encode,
        ← nameLength_cons] at hlength
    · rw [Checked.NameState.readLabel, List.append_assoc]
      rfl

end Run

/-- The uncompressed encoding of labels, wherever it stands, leads to its zero byte. -/
theorem nameAt_encode_labels (front rest : Bytes) (labels : List DnsLabel) :
    NameAt (front ++ (labels.flatMap DnsLabel.encode ++ 0 :: rest)) front.length labels 0
      (front.length + (labels.flatMap DnsLabel.encode).length + 1) := by
  induction labels generalizing front with
  | nil =>
    refine .root ?_
    rw [List.drop_left]
    exact List.prefix_append [0] rest
  | cons label labels ih =>
    have hbytes : front ++ ((label :: labels).flatMap DnsLabel.encode ++ 0 :: rest) =
        (front ++ label.encode) ++ (labels.flatMap DnsLabel.encode ++ 0 :: rest) := by
      rw [List.flatMap_cons, List.append_assoc, List.append_assoc]
    have hstop : front.length + ((label :: labels).flatMap DnsLabel.encode).length =
        (front ++ label.encode).length + (labels.flatMap DnsLabel.encode).length := by
      rw [List.flatMap_cons, List.length_append, List.length_append, Nat.add_assoc]
    have hrest := ih (front ++ label.encode)
    rw [← hbytes, ← hstop, List.length_append] at hrest
    refine .label ?_ hrest
    rw [List.drop_left, List.flatMap_cons, List.append_assoc]
    exact List.prefix_append ..

theorem DnsName.nameAt_encode (front rest : Bytes) (name : DnsName) :
    NameAt (front ++ (name.encode ++ rest)) front.length name.labels 0
      (front.length + name.encode.length) := by
  have hbytes : name.encode ++ rest = name.labels.flatMap DnsLabel.encode ++ 0 :: rest := by
    rw [encode, List.append_assoc, List.singleton_append]
  have hlength : name.encode.length = (name.labels.flatMap DnsLabel.encode).length + 1 := by
    rw [encode, List.length_append, List.length_singleton]
  rw [hbytes, hlength]
  exact nameAt_encode_labels front rest name.labels

private theorem toLower_ne_dot_ascii : ∀ n < 128, isNameCharacter (Char.ofNat n) = true →
    (Char.ofNat n).toLower ≠ '.' := by
  decide +kernel

/-- The labels of a name are found between the dots of its text, in lower case. -/
theorem splitOn_toAsciiLowercase_nameText {labels : List DnsLabel} (hlabels : labels ≠ []) :
    (toAsciiLowercase (nameText labels)).toList.splitOn '.' =
      labels.map fun label => label.text.map Char.toLower := by
  have hdot : ∀ label : DnsLabel, '.' ∉ label.text.map Char.toLower := by
    intro label hmem
    obtain ⟨c, hc, hlower⟩ := List.mem_map.mp hmem
    have hallowed := List.all_eq_true.mp label.allowed c hc
    exact forall_ascii (P := fun c => isNameCharacter c = true → c.toLower ≠ '.')
      toLower_ne_dot_ascii (isNameCharacter_lt hallowed) hallowed hlower
  rw [toAsciiLowercase, nameText, String.toList_ofList, String.toList_ofList, map_intercalate,
    List.map_map]
  refine List.splitOn_intercalate '.' ?_ (by simpa using hlabels)
  intro part hpart
  obtain ⟨label, -, rfl⟩ := List.mem_map.mp hpart
  exact hdot label

/-- A name that is reached within the limits is read. -/
theorem DnsName.parsed {bytes : Bytes} {offset pointers stop : ℕ} (name : DnsName)
    (hname : NameAt bytes offset name.labels pointers stop) (hpointers : pointers ≤ 16) :
    parseDnsName bytes offset = .ok (toAsciiLowercase name.text, stop) := by
  have hshort := name.short
  have hfrom : parseDnsNameFrom bytes { cursor := offset } = _ :=
    hname.parsed rfl (by simpa using hpointers) (by simpa using hshort)
  rwa [List.nil_append, joinLabels_bytes] at hfrom

/-- The loop ends within 144 rounds, wherever its pointers lead. It returns a name exactly when
labels and at most sixteen pointers lead from the offset to a zero byte: their text in lower
case, and where the part of the name at the offset stops. The uncompressed encoding of a name is
read back up to case. -/
theorem parseDnsName_reads_names (bytes : Bytes) (offset : ℕ) :
    loop (fun state => returned (parseDnsNameRound bytes state)) 144 { cursor := offset } =
      returned (parseDnsName bytes offset) ∧
    (∀ text stop, parseDnsName bytes offset = .ok (text, stop) ↔
      ∃ (name : DnsName) (pointers : ℕ), NameAt bytes offset name.labels pointers stop ∧
        pointers ≤ 16 ∧ text = toAsciiLowercase name.text) ∧
    ∀ (front rest : Bytes) (name : DnsName),
      parseDnsName (front ++ (name.encode ++ rest)) front.length =
        .ok (toAsciiLowercase name.text, front.length + name.encode.length) ∧
      (name.labels ≠ [] → (toAsciiLowercase name.text).toList.splitOn '.' =
        name.labels.map fun label => label.text.map Char.toLower) := by
  refine ⟨?_, fun text stop => ⟨fun h => ?_, ?_⟩, fun front rest name =>
    ⟨name.parsed (name.nameAt_encode front rest) (Nat.zero_le _),
      splitOn_toAsciiLowercase_nameText⟩⟩
  · exact loop_returned parseDnsNameRound_follows (withinLimits_start offset)
      (by rw [remaining_start]; decide)
  · obtain ⟨labels, pointers, behind, hname, hpointers, hlength, rfl, rfl⟩ :=
      nameAt_of_parsed (withinLimits_start offset) h
    rw [Nat.zero_add] at hpointers hlength
    refine ⟨⟨labels, hlength⟩, pointers, hname, hpointers, ?_⟩
    rw [List.nil_append, joinLabels_bytes]
    rfl
  · rintro ⟨name, pointers, hname, hpointers, rfl⟩
    exact name.parsed hname hpointers

/-- A name that continues at a pointer back to the beginning stops behind the pointer. -/
theorem parseDnsName_reads_names_through_pointer :
    parseDnsName [1, 98, 0, 1, 65, 0xc0, 0] 3 = .ok ("a.b", 7) := by
  have hfirst : NameAt [1, 98, 0, 1, 65, 0xc0, 0] 0 [⟨['b'], by decide, by decide, by decide⟩]
      0 3 := .label (by decide) (.root (by decide))
  have hname : NameAt [1, 98, 0, 1, 65, 0xc0, 0] 3
      [⟨['A'], by decide, by decide, by decide⟩, ⟨['b'], by decide, by decide, by decide⟩] 1 7 :=
    .label (by decide) (.pointer (by decide) (by decide) hfirst)
  exact ((parseDnsName_reads_names _ 3).2.1 _ _).mpr
    ⟨⟨_, by decide⟩, 1, hname, by decide, by decide⟩

end MongoDam.Observer
