import MongoDam.Lib.AddressTexts
import MongoDam.Lib.Utf8
import MongoDam.Observer.Sockets

/-!
# The rows of socket tables

The kernel of a little-endian host prints an address word by word: each word of the
network-order address as the number it is to the host, in eight hexadecimal digits, and
behind a colon the port in four. The addresses and ports of a row are read back, word by
word, and a table gives the endpoints of the first of its rows that has the inode.
-/

namespace MongoDam.Observer

open Lib Schema

/-! ### Addresses -/

/-- The words of an address. -/
def addressWords : Bytes → List Bytes
  | a :: b :: c :: d :: rest => [a, b, c, d] :: addressWords rest
  | _ => []

/-- An address in network order, of one of the two families, and a port. -/
structure SocketAddress (ipv6 : Bool) where
  address : Bytes
  length_address : address.length = if ipv6 then 16 else 4
  port : UInt16

namespace SocketAddress

variable {ipv6 : Bool}

/-- The address as a socket table shows it. -/
def digits (socket : SocketAddress ipv6) : List Char :=
  (addressWords socket.address).flatMap fun word => upperHex 8 (leNat word)

/-- The address and the port as a socket table shows them. -/
def kernelText (socket : SocketAddress ipv6) : List Char :=
  socket.digits ++ ':' :: upperHex 4 socket.port.toNat

/-- The endpoint with the standard text of the address. -/
def endpoint (socket : SocketAddress ipv6) : NetworkEndpoint where
  address := some (if ipv6 then ipv6Text socket.address else ipv4Text socket.address)
  port := some socket.port.toNat

end SocketAddress

theorem addressWords_spec {bytes : Bytes} (h : bytes.length % 4 = 0) :
    (addressWords bytes).flatten = bytes ∧ (addressWords bytes).length = bytes.length / 4 ∧
      ∀ word ∈ addressWords bytes, word.length = 4 := by
  fun_induction addressWords bytes with
  | case1 a b c d rest ih =>
    simp only [List.length_cons] at h ⊢
    obtain ⟨hflatten, hlength, hwords⟩ := ih (by omega)
    refine ⟨?_, by omega, List.forall_mem_cons.mpr ⟨rfl, hwords⟩⟩
    rw [List.flatten_cons, hflatten]
    rfl
  | case2 bytes hshort =>
    match bytes, hshort with
    | [], _ => exact ⟨rfl, rfl, nofun⟩
    | [_], _ => cases h
    | [_, _], _ => cases h
    | [_, _, _], _ => cases h
    | a :: b :: c :: d :: rest, hshort => exact absurd rfl (hshort a b c d rest)

/-- A word is read back from its digits. -/
theorem fromStrRadix16_word {word : Bytes} (hword : word.length = 4) :
    fromStrRadix16 32 (upperHex 8 (leNat word)) = some (leNat word) := by
  have hlt := leNat_lt word
  rw [hword] at hlt
  refine fromStrRadix16_eq ?_ (hexValue?_upperHex hlt) hlt
  rw [← List.length_pos_iff, length_upperHex]
  decide

theorem leBytes_word {word : Bytes} (hword : word.length = 4) : leBytes 4 (leNat word) = word := by
  rw [← hword, leBytes_leNat]

theorem upperHex_lt {width value : ℕ} (h : value < 16 ^ width) :
    ∀ c ∈ upperHex width value, c.toNat < 128 := by
  intro c hc
  obtain ⟨digit, hdigit⟩ :=
    Option.isSome_iff_exists.mp (isSome_of_hexValue? (hexValue?_upperHex h) c hc)
  exact hexDigit?_lt hdigit

/-- ASCII characters are as many bytes. -/
theorem length_toUtf8_ascii {chars : List Char} (h : ∀ c ∈ chars, c.toNat < 128) :
    (toUtf8 (String.ofList chars)).length = chars.length := by
  rw [toUtf8_ofList]
  induction chars with
  | nil => rfl
  | cons c rest ih =>
    obtain ⟨hc, hrest⟩ := List.forall_mem_cons.mp h
    rw [List.flatMap_cons, utf8EncodeChar_of_lt hc, List.length_append, ih hrest,
      List.length_singleton, List.length_cons, Nat.add_comm]

/-- The digits of a word, as bytes. -/
def wordDigits (word : Bytes) : Bytes := toUtf8 (String.ofList (upperHex 8 (leNat word)))

theorem length_wordDigits {word : Bytes} (hword : word.length = 4) :
    (wordDigits word).length = 8 := by
  have hlt := leNat_lt word
  rw [hword] at hlt
  exact (length_toUtf8_ascii (upperHex_lt hlt)).trans (length_upperHex ..)

/-- The word whose digits start at a position: a round of the loop of `ipv6Bytes`. -/
def wordAt (encoded : Bytes) (start : ℕ) : Option Bytes := do
  let word ← fromUtf8 ((encoded.drop start).take 8)
  let decoded ← fromStrRadix16 32 word.toList
  return leBytes 4 decoded

theorem wordAt_eq {encoded word : Bytes} {start : ℕ} (front rest : Bytes)
    (hword : word.length = 4) (hencoded : encoded = front ++ (wordDigits word ++ rest))
    (hstart : front.length = start) : wordAt encoded start = some word := by
  rw [wordAt, hencoded, List.drop_left' hstart, List.take_left' (length_wordDigits hword),
    wordDigits, fromUtf8_toUtf8, Option.bind_eq_bind, Option.bind_some, String.toList_ofList,
    fromStrRadix16_word hword]
  exact congrArg some (leBytes_word hword)

/-- The four words of an address are read back one by one. -/
theorem ipv6Bytes_words {first second third fourth : Bytes} (hfirst : first.length = 4)
    (hsecond : second.length = 4) (hthird : third.length = 4) (hfourth : fourth.length = 4) :
    ipv6Bytes ([first, second, third, fourth].flatMap fun word => upperHex 8 (leNat word)) =
      some (first ++ (second ++ (third ++ fourth))) := by
  have hencoded : toUtf8 (String.ofList
      ([first, second, third, fourth].flatMap fun word => upperHex 8 (leNat word))) =
        wordDigits first ++ (wordDigits second ++ (wordDigits third ++ wordDigits fourth)) := by
    simp only [wordDigits, toUtf8_ofList, List.flatMap_cons, List.flatMap_nil,
      List.flatMap_append, List.append_nil]
  have hfirstDigits := length_wordDigits hfirst
  have hsecondDigits := length_wordDigits hsecond
  have hthirdDigits := length_wordDigits hthird
  have hfourthDigits := length_wordDigits hfourth
  unfold ipv6Bytes
  rw [hencoded]
  generalize hbytes : wordDigits first ++ (wordDigits second ++ (wordDigits third ++
    wordDigits fourth)) = encoded
  have hlength : encoded.length = 32 := by
    simp only [← hbytes, List.length_append]
    omega
  have h0 : wordAt encoded 0 = some first :=
    wordAt_eq [] (wordDigits second ++ (wordDigits third ++ wordDigits fourth)) hfirst
      (by rw [← hbytes, List.nil_append]) List.length_nil
  have h8 : wordAt encoded 8 = some second := wordAt_eq _ _ hsecond hbytes.symm hfirstDigits
  have h16 : wordAt encoded 16 = some third :=
    wordAt_eq (wordDigits first ++ wordDigits second) (wordDigits fourth) hthird
      (by rw [← hbytes, List.append_assoc]) (by rw [List.length_append]; omega)
  have h24 : wordAt encoded 24 = some fourth :=
    wordAt_eq (wordDigits first ++ (wordDigits second ++ wordDigits third)) [] hfourth
      (by rw [← hbytes, List.append_nil, List.append_assoc, List.append_assoc])
      (by rw [List.length_append, List.length_append]; omega)
  dsimp only
  rw [if_neg (not_not.mpr hlength)]
  change ([0, 8, 16, 24].mapM (wordAt encoded)).map List.flatten = _
  simp [h0, h8, h16, h24]

namespace SocketAddress

variable {ipv6 : Bool}

theorem words_spec (socket : SocketAddress ipv6) :
    (addressWords socket.address).flatten = socket.address ∧
      (addressWords socket.address).length = (if ipv6 then 4 else 1) ∧
      ∀ word ∈ addressWords socket.address, word.length = 4 := by
  have hwhole : socket.address.length % 4 = 0 := by
    rw [socket.length_address]
    cases ipv6 <;> rfl
  obtain ⟨hflatten, hlength, hwords⟩ := addressWords_spec hwhole
  refine ⟨hflatten, ?_, hwords⟩
  rw [hlength, socket.length_address]
  cases ipv6 <;> rfl

theorem isSome_of_mem_digits (socket : SocketAddress ipv6) {c : Char} (hc : c ∈ socket.digits) :
    (hexDigit? c).isSome := by
  obtain ⟨word, hword, hdigit⟩ := List.mem_flatMap.mp hc
  have hlt := leNat_lt word
  rw [socket.words_spec.2.2 word hword] at hlt
  exact isSome_of_hexValue? (hexValue?_upperHex hlt) c hdigit

/-- The text of a socket consists of digits and a colon. -/
theorem mem_kernelText (socket : SocketAddress ipv6) {c : Char} (hc : c ∈ socket.kernelText) :
    (hexDigit? c).isSome ∨ c = ':' := by
  obtain hdigit | hcolon | hport := (List.mem_append.mp hc).imp_right List.mem_cons.mp
  · exact .inl (socket.isSome_of_mem_digits hdigit)
  · exact .inr hcolon
  · exact .inl (isSome_of_hexValue? (hexValue?_upperHex socket.port.toNat_lt) c hport)

/-- The single word of an IPv4 address is read back. -/
theorem fromStrRadix16_digits (socket : SocketAddress false) :
    fromStrRadix16 32 socket.digits = some (leNat socket.address) := by
  obtain ⟨hflatten, hlength, hwords⟩ := socket.words_spec
  unfold digits
  generalize addressWords socket.address = words at hflatten hlength hwords
  obtain ⟨word, rfl⟩ := List.length_eq_one_iff.mp hlength
  rw [List.flatten_singleton] at hflatten
  rw [List.flatMap_singleton, fromStrRadix16_word (hwords word (List.mem_singleton_self word)),
    hflatten]

/-- The four words of an IPv6 address are read back. -/
theorem ipv6Bytes_digits (socket : SocketAddress true) :
    ipv6Bytes socket.digits = some socket.address := by
  obtain ⟨hflatten, hlength, hwords⟩ := socket.words_spec
  unfold digits
  generalize addressWords socket.address = words at hflatten hlength hwords
  match words, hlength with
  | [first, second, third, fourth], _ =>
    simp only [List.forall_mem_cons] at hwords
    obtain ⟨hfirst, hsecond, hthird, hfourth, -⟩ := hwords
    rw [ipv6Bytes_words hfirst hsecond hthird hfourth, ← hflatten]
    simp

/-- An address and a port are read back from what a socket table shows. -/
theorem parseEndpoint_kernelText (socket : SocketAddress ipv6) :
    parseEndpoint socket.kernelText ipv6 = some socket.endpoint := by
  have hport : fromStrRadix16 16 (upperHex 4 socket.port.toNat) = some socket.port.toNat := by
    refine fromStrRadix16_eq ?_ (hexValue?_upperHex socket.port.toNat_lt) socket.port.toNat_lt
    rw [← List.length_pos_iff, length_upperHex]
    decide
  have hcolon : ':' ∉ socket.digits := fun hmem =>
    Bool.false_ne_true (socket.isSome_of_mem_digits hmem)
  rw [kernelText, parseEndpoint, splitOnce_append hcolon]
  cases ipv6 with
  | false =>
    have haddress : leBytes 4 (leNat socket.address) = socket.address :=
      leBytes_word socket.length_address
    simp [hport, socket.fromStrRadix16_digits, haddress, endpoint]
  | true => simp [hport, socket.ipv6Bytes_digits, endpoint]

/-- Different addresses and ports are different endpoints. -/
theorem endpoint_inj {first second : SocketAddress ipv6} (h : first.endpoint = second.endpoint) :
    first = second := by
  obtain ⟨address, hlength, port⟩ := first
  obtain ⟨other, hother, otherPort⟩ := second
  obtain ⟨htext, hport⟩ := NetworkEndpoint.mk.inj h
  have hports : port = otherPort := UInt16.toNat_inj.mp (Option.some.inj hport)
  have haddresses : address = other := by
    cases ipv6 with
    | false =>
      simp only [Bool.false_eq_true, if_false, Option.some.injEq] at hlength hother htext
      refine ipv4Text_inj ?_ ?_ htext
      · exact List.length_pos_iff.mp (by omega)
      · exact List.length_pos_iff.mp (by omega)
    | true =>
      simp only [if_true, Option.some.injEq] at hlength hother htext
      exact ipv6Text_inj hlength hother htext
  subst hports haddresses
  rfl

end SocketAddress

/-! ### Fields of a line -/

/-- A field of a line: some text without white space. -/
structure TableField where
  text : List Char
  nonempty : text ≠ []
  unbroken : text.any isWhitespace = false

/-- What stands behind the first field of a line: fields behind one or more blanks each, and any
number of blanks. `more` counts the blanks that are not needed. -/
def spread (more : ℕ → ℕ) : List TableField → List Char
  | [] => List.replicate (more 0) ' '
  | field :: rest =>
    ' ' :: (List.replicate (more 0) ' ' ++ (field.text ++ spread (fun i => more (i + 1)) rest))

/-- White space ends a field. -/
theorem splitWhitespace_append {c : Char} (hc : isWhitespace c) (before behind : List Char) :
    splitWhitespace (before ++ c :: behind) =
      splitWhitespace before ++ splitWhitespace behind := by
  unfold splitWhitespace
  rw [List.splitOnP_append_cons before behind hc, List.filter_append]

theorem splitWhitespace_blanks (count : ℕ) (text : List Char) :
    splitWhitespace (List.replicate count ' ' ++ text) = splitWhitespace text := by
  induction count with
  | zero => rfl
  | succ count ih =>
    rw [List.replicate_succ, List.cons_append]
    exact (splitWhitespace_append (by decide) [] _).trans ih

theorem TableField.not_isWhitespace (field : TableField) {c : Char} (hc : c ∈ field.text) :
    isWhitespace c = false := by
  simpa using List.any_eq_false.mp field.unbroken c hc

theorem TableField.splitWhitespace_text (field : TableField) :
    splitWhitespace field.text = [field.text] := by
  rw [splitWhitespace, List.splitOnP_eq_singleton fun c hc => field.not_isWhitespace hc]
  simp [field.nonempty]

/-- The fields of a line are found between its blanks. -/
theorem splitWhitespace_spread (more : ℕ → ℕ) (field : TableField) (rest : List TableField) :
    splitWhitespace (field.text ++ spread more rest) =
      field.text :: rest.map TableField.text := by
  induction rest generalizing more field with
  | nil =>
    rw [spread]
    cases more 0 with
    | zero => rw [List.replicate_zero, List.append_nil, field.splitWhitespace_text, List.map_nil]
    | succ count =>
      have hblanks := splitWhitespace_blanks count []
      rw [List.append_nil] at hblanks
      rw [List.replicate_succ, splitWhitespace_append (by decide), hblanks,
        field.splitWhitespace_text]
      rfl
  | cons next rest ih =>
    rw [spread, splitWhitespace_append (by decide), splitWhitespace_blanks, ih,
      field.splitWhitespace_text]
    rfl

/-- Blanks are the only white space of a line. -/
theorem not_mem_spread {c : Char} (hc : isWhitespace c) (hblank : c ≠ ' ') (more : ℕ → ℕ)
    (fields : List TableField) : c ∉ spread more fields := by
  have hfield : ∀ field : TableField, c ∉ field.text := fun field hmem =>
    Bool.false_ne_true ((field.not_isWhitespace hmem).symm.trans hc)
  induction fields generalizing more with
  | nil => exact fun hmem => hblank (List.eq_of_mem_replicate hmem)
  | cons field rest ih =>
    simp only [spread, List.mem_cons, List.mem_append, List.mem_replicate, not_or]
    exact ⟨hblank, fun hmem => hblank hmem.2, hfield field, ih _⟩

/-! ### Rows -/

private theorem not_isWhitespace_ascii : ∀ n < 128, (hexDigit? (Char.ofNat n)).isSome = true →
    isWhitespace (Char.ofNat n) = false := by
  decide +kernel

theorem not_isWhitespace_of_isSome {c : Char} (hc : (hexDigit? c).isSome) :
    isWhitespace c = false := by
  obtain ⟨digit, hdigit⟩ := Option.isSome_iff_exists.mp hc
  exact forall_ascii (P := fun c => (hexDigit? c).isSome = true → isWhitespace c = false)
    not_isWhitespace_ascii (hexDigit?_lt hdigit) hc

/-- The field that shows an address and a port. -/
def SocketAddress.field {ipv6 : Bool} (socket : SocketAddress ipv6) : TableField where
  text := socket.kernelText
  nonempty := List.append_ne_nil_of_right_ne_nil _ nofun
  unbroken := by
    refine List.any_eq_false.mpr fun c hc => ?_
    obtain hdigit | rfl := socket.mem_kernelText hc
    · rw [not_isWhitespace_of_isSome hdigit]
      exact Bool.false_ne_true
    · decide

/-- A row of a socket table. -/
structure SocketRow (ipv6 : Bool) where
  slot : TableField
  localAddress : SocketAddress ipv6
  remoteAddress : SocketAddress ipv6
  /-- State, queues, timer, retransmits, user and timeout. -/
  status : List TableField
  length_status : status.length = 6
  inode : TableField
  others : List TableField
  /-- The blanks before the first field. -/
  indent : ℕ
  /-- The blanks behind each field that are not needed. -/
  more : ℕ → ℕ

namespace SocketRow

variable {ipv6 : Bool}

/-- The fields behind the first. -/
def fields (row : SocketRow ipv6) : List TableField :=
  row.localAddress.field :: row.remoteAddress.field :: (row.status ++ row.inode :: row.others)

/-- The line of the row. -/
def text (row : SocketRow ipv6) : List Char :=
  List.replicate row.indent ' ' ++ (row.slot.text ++ spread row.more row.fields)

def endpoints (row : SocketRow ipv6) : NetworkEndpoint × NetworkEndpoint :=
  (row.localAddress.endpoint, row.remoteAddress.endpoint)

/-- The columns of a row are its fields. -/
theorem splitWhitespace_text (row : SocketRow ipv6) :
    splitWhitespace row.text = row.slot.text :: row.fields.map TableField.text := by
  rw [text, splitWhitespace_blanks, splitWhitespace_spread]

theorem isRowOf_eq (row : SocketRow ipv6) (inode : List Char) :
    isRowOf inode (row.slot.text :: row.fields.map TableField.text) =
      decide (row.inode.text = inode) := by
  have hlength : 10 ≤ (row.slot.text :: row.fields.map TableField.text).length := by
    simp only [fields, List.length_cons, List.length_map, List.length_append, row.length_status]
    omega
  have hinode : (row.slot.text :: row.fields.map TableField.text)[9]? = some row.inode.text := by
    simp [fields, row.length_status]
  rw [isRowOf, hinode]
  simp only [hlength, true_and, Option.some.injEq]

/-- The addresses of a row are read back. -/
theorem rowEndpoints_eq (row : SocketRow ipv6) :
    rowEndpoints ipv6 (row.slot.text :: row.fields.map TableField.text) = some row.endpoints := by
  simp [rowEndpoints, fields, SocketAddress.field, SocketAddress.parseEndpoint_kernelText,
    endpoints]

/-- Blanks are the only white space of a row. -/
theorem not_mem_text (row : SocketRow ipv6) {c : Char} (hc : isWhitespace c) (hblank : c ≠ ' ') :
    c ∉ row.text := by
  have hslot : c ∉ row.slot.text := fun hmem =>
    Bool.false_ne_true ((row.slot.not_isWhitespace hmem).symm.trans hc)
  simp only [text, List.mem_append, List.mem_replicate, not_or]
  exact ⟨fun hmem => hblank hmem.2, hslot, not_mem_spread hc hblank _ _⟩

end SocketRow

/-- A table: a heading, and rows that are each ended by a line feed. -/
def tableText {ipv6 : Bool} (heading : List Char) (rows : List (SocketRow ipv6)) : List Char :=
  heading ++ '\n' :: rows.flatMap fun row => row.text ++ ['\n']

theorem lines_rows {ipv6 : Bool} (rows : List (SocketRow ipv6)) :
    lines (rows.flatMap fun row => row.text ++ ['\n']) = rows.map SocketRow.text := by
  induction rows with
  | nil => rfl
  | cons row rows ih =>
    have hstrip : stripLast '\r' row.text = none :=
      if_neg fun hlast => row.not_mem_text (by decide) (by decide) (List.mem_of_getLast? hlast)
    rw [List.flatMap_cons, List.append_assoc, List.singleton_append,
      lines_append (row.not_mem_text (by decide) (by decide)), hstrip, ih]
    rfl

/-- A table gives the endpoints of its first row of the inode. -/
theorem parseProcNetTcp_tableText {ipv6 : Bool} {heading : List Char} (hheading : '\n' ∉ heading)
    (rows : List (SocketRow ipv6)) (inode : List Char) :
    parseProcNetTcp (tableText heading rows) inode ipv6 =
      (rows.find? fun row => row.inode.text = inode).map SocketRow.endpoints := by
  have hrows : tableRows (tableText heading rows) =
      rows.map fun row => row.slot.text :: row.fields.map TableField.text := by
    rw [tableRows, tableText, lines_append hheading, List.drop_one, List.tail_cons, lines_rows,
      List.map_map]
    exact List.map_congr_left fun row _ => row.splitWhitespace_text
  have hfind : (isRowOf inode ∘ fun row : SocketRow ipv6 =>
      row.slot.text :: row.fields.map TableField.text) =
        fun row : SocketRow ipv6 => decide (row.inode.text = inode) :=
    funext fun row => row.isRowOf_eq inode
  rw [parseProcNetTcp_eq, firstRow, hrows, List.find?_map, hfind, Option.bind_map,
    Option.map_eq_bind]
  exact congrArg (Option.bind _) (funext fun row => row.rowEndpoints_eq)

/-- An address and a port are read back from what the kernel prints, for both families and
without two of them becoming one, and a table gives the endpoints of the first of its rows that
has the inode. -/
theorem parseProcNetTcp_reads_back (ipv6 : Bool) :
    (∀ socket : SocketAddress ipv6,
      parseEndpoint socket.kernelText ipv6 = some socket.endpoint) ∧
    (∀ first second : SocketAddress ipv6, first.endpoint = second.endpoint → first = second) ∧
    ∀ (heading : { heading : List Char // '\n' ∉ heading }) (rows : List (SocketRow ipv6))
      (inode : List Char),
      parseProcNetTcp (tableText heading.1 rows) inode ipv6 =
        (rows.find? fun row => row.inode.text = inode).map SocketRow.endpoints :=
  ⟨SocketAddress.parseEndpoint_kernelText, fun _ _ => SocketAddress.endpoint_inj,
    fun heading => parseProcNetTcp_tableText heading.2⟩

example : (⟨[127, 0, 0, 1], rfl, 27017⟩ : SocketAddress false).kernelText =
    "0100007F:6989".toList := by
  decide +kernel

example : (⟨List.replicate 15 0 ++ [1], rfl, 80⟩ : SocketAddress true).kernelText =
    "00000000000000000000000001000000:0050".toList := by
  decide +kernel

/-- A row of a server that listens on its loopback address. -/
def serverRow (slot state inode : TableField) (remoteAddress : SocketAddress false) :
    SocketRow false where
  slot
  localAddress := ⟨[127, 0, 0, 1], rfl, 27017⟩
  remoteAddress
  status :=
    [state, ⟨"00000000:00000000".toList, by decide, by decide⟩,
      ⟨"00:00000000".toList, by decide, by decide⟩, ⟨"00000000".toList, by decide, by decide⟩,
      ⟨"999".toList, by decide, by decide⟩, ⟨['0'], by decide, by decide⟩]
  length_status := rfl
  inode
  others := [⟨['1'], by decide, by decide⟩]
  indent := 3
  more := fun field => if field = 7 then 6 else 0

example :
    (serverRow ⟨"1:".toList, by decide, by decide⟩ ⟨"01".toList, by decide, by decide⟩
        ⟨"28507".toList, by decide, by decide⟩ ⟨[10, 0, 0, 2], rfl, 40001⟩).text =
      "   1: 0100007F:6989 0200000A:9C41 01 ".toList ++
        "00000000:00000000 00:00000000 00000000 999       0 28507 1".toList := by
  decide +kernel

/-- The listening socket and a connection to it, of which the connection is asked for. -/
example :
    parseProcNetTcp (tableText "  sl  local_address rem_address".toList
      [serverRow ⟨"0:".toList, by decide, by decide⟩ ⟨"0A".toList, by decide, by decide⟩
          ⟨"28413".toList, by decide, by decide⟩ ⟨[0, 0, 0, 0], rfl, 0⟩,
        serverRow ⟨"1:".toList, by decide, by decide⟩ ⟨"01".toList, by decide, by decide⟩
          ⟨"28507".toList, by decide, by decide⟩ ⟨[10, 0, 0, 2], rfl, 40001⟩])
        "28507".toList false =
      some (⟨some "127.0.0.1", some 27017⟩, ⟨some "10.0.0.2", some 40001⟩) := by
  decide +kernel

end MongoDam.Observer
