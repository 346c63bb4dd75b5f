import Mathlib.Data.List.TakeWhile
import MongoDam.Lib.Text

/-!
# The texts of addresses

The standard text of an address determines the address. The numbers of an IPv4 address are
read back between dots, and the segments of an IPv6 address between colons: the pieces
before the first empty one and behind the last are the segments around the zeros that were
left out. Only the text of a mapped address has dots.
-/

namespace MongoDam.Lib

/-- A character of parts that are joined by a separator. -/
theorem mem_intercalate {separator c : Char} {parts : List (List Char)}
    (h : c ∈ [separator].intercalate parts) : c = separator ∨ ∃ part ∈ parts, c ∈ part := by
  induction parts with
  | nil => cases h
  | cons part parts ih =>
    cases parts with
    | nil =>
      rw [List.intercalate_singleton] at h
      exact .inr ⟨part, List.mem_singleton_self part, h⟩
    | cons next parts =>
      rw [List.intercalate_cons_cons, List.append_assoc] at h
      obtain hpart | hrest := List.mem_append.mp h
      · exact .inr ⟨part, List.mem_cons_self, hpart⟩
      · obtain hseparator | hrest := List.mem_cons.mp hrest
        · exact .inl hseparator
        · exact (ih hrest).imp_right fun ⟨found, hfound, hc⟩ =>
            ⟨found, List.mem_cons_of_mem _ hfound, hc⟩

/-! ### IPv4 -/

theorem toList_ipv4Text (address : Bytes) :
    (ipv4Text address).toList =
      ['.'].intercalate (address.map fun byte => Nat.toDigits 10 byte.toNat) := by
  rw [ipv4Text, String.toList_intercalate, List.map_map]
  refine congrArg ['.'].intercalate (List.map_congr_left fun byte _ => ?_)
  rw [Function.comp_apply, Nat.toString_eq_ofList_toDigits, String.toList_ofList]

/-- The numbers of an address stand between the dots of its text. -/
theorem splitOn_ipv4Text {address : Bytes} (haddress : address ≠ []) :
    (ipv4Text address).toList.splitOn '.' =
      address.map fun byte => Nat.toDigits 10 byte.toNat := by
  rw [toList_ipv4Text]
  refine List.splitOn_intercalate '.' ?_ (by simpa using haddress)
  intro part hpart hdot
  obtain ⟨byte, -, rfl⟩ := List.mem_map.mp hpart
  have hdigit := Nat.isDigit_of_mem_toDigits (by decide) (by decide) hdot
  cases hdigit

theorem ipv4Text_inj {a b : Bytes} (ha : a ≠ []) (hb : b ≠ []) (h : ipv4Text a = ipv4Text b) :
    a = b := by
  have hpieces := splitOn_ipv4Text ha
  rw [h, splitOn_ipv4Text hb] at hpieces
  have hinjective : ∀ first second : UInt8,
      Nat.toDigits 10 first.toNat = Nat.toDigits 10 second.toNat → first = second := by
    intro first second hdigits
    have hvalues := congrArg (Nat.ofDigitChars 10 · 0) hdigits
    simpa [Nat.ofDigitChars_ten_toDigits, UInt8.toNat_inj] using hvalues
  exact ((List.map_inj_right hinjective).mp hpieces).symm

/-! ### Runs of zeros -/

/-- From the start of the run on, as many parts as it has are zeros. -/
def IsZeroRun (parts : List ℕ) (run : ℕ × ℕ) : Prop :=
  ∀ i < run.2, parts[run.1 + i]? = some 0

theorem longestZeros_isZeroRun {parts rest : List ℕ} {position : ℕ} {current longest : ℕ × ℕ}
    (hrest : parts.drop position = rest) (hcurrent : IsZeroRun parts current)
    (hposition : current.2 ≠ 0 → current.1 + current.2 = position)
    (hlongest : IsZeroRun parts longest) :
    IsZeroRun parts (longestZeros position current longest rest) := by
  induction rest generalizing position current longest with
  | nil => exact hlongest
  | cons part rest ih =>
    have hpart : parts[position]? = some part := by
      have hhead := congrArg (·[0]?) hrest
      simpa [List.getElem?_drop] using hhead
    have hnext : parts.drop (position + 1) = rest := by
      rw [← List.tail_drop, hrest, List.tail_cons]
    rw [longestZeros]
    by_cases hzero : part = 0
    · rw [if_pos hzero]
      subst hzero
      dsimp only
      generalize hstart : (if current.2 = 0 then position else current.1) = start
      have hlonger : start + current.2 = position := by
        split at hstart
        · omega
        · next hrun => rw [← hstart, hposition hrun]
      have hrun : IsZeroRun parts (start, current.2 + 1) := by
        intro i hi
        obtain hi | rfl := Nat.lt_succ_iff_lt_or_eq.mp hi
        · rw [if_neg (by omega)] at hstart
          rw [← hstart]
          exact hcurrent i hi
        · rwa [hlonger]
      refine ih hnext hrun (fun _ => by dsimp only; omega) ?_
      split
      · exact hrun
      · exact hlongest
    · rw [if_neg hzero]
      exact ih hnext nofun nofun hlongest

/-- A run of zeros, with what is before and behind it. -/
theorem IsZeroRun.split {parts : List ℕ} {start length : ℕ} (h : IsZeroRun parts (start, length)) :
    parts = parts.take start ++ (List.replicate length 0 ++ parts.drop (start + length)) := by
  have hzeros : (parts.drop start).take length = List.replicate length 0 := by
    apply List.ext_getElem?
    intro i
    rw [List.getElem?_take, List.getElem?_drop, List.getElem?_replicate]
    split
    · next hi => exact h i hi
    · rfl
  rw [← hzeros, ← List.drop_drop, List.take_append_drop, List.take_append_drop]

/-! ### IPv6 -/

/-- The segments that pieces of a text denote. The zeros that fill up eight segments stand between
the pieces before the first empty one and those behind the last. -/
def readSegments (pieces : List (List Char)) : List ℕ :=
  let front := pieces.takeWhile (· ≠ [])
  let back := (pieces.reverse.takeWhile (· ≠ [])).reverse
  let values := List.map fun digits => (hexValue? digits).getD 0
  if front.length = 8 then values front
  else values front ++ (List.replicate (8 - (front.length + back.length)) 0 ++ values back)

/-- What a text is split into when parts are joined: an empty piece when there are none. -/
def joinedPieces (parts : List (List Char)) : List (List Char) :=
  if parts = [] then [[]] else parts

theorem takeWhile_joinedPieces {parts : List (List Char)} (hparts : [] ∉ parts)
    (rest : List (List Char)) :
    (joinedPieces parts ++ [] :: rest).takeWhile (· ≠ []) = parts := by
  have hnonempty : ∀ part ∈ parts, decide (part ≠ []) = true :=
    fun part hpart => decide_eq_true fun hempty => hparts (hempty ▸ hpart)
  unfold joinedPieces
  split
  · next hempty => rw [hempty]; rfl
  · rw [List.takeWhile_append_of_pos hnonempty]
    simp

theorem reverse_joinedPieces (parts : List (List Char)) :
    (joinedPieces parts).reverse = joinedPieces parts.reverse := by
  unfold joinedPieces
  split
  · next hempty => rw [hempty]; rfl
  · next hparts => rw [if_neg (by simpa using hparts)]

theorem nil_not_mem_digits (parts : List ℕ) : [] ∉ parts.map (Nat.toDigits 16) := by
  intro hmem
  obtain ⟨part, -, hpart⟩ := List.mem_map.mp hmem
  exact Nat.toDigits_ne_nil hpart

theorem values_digits (parts : List ℕ) :
    (parts.map (Nat.toDigits 16)).map (fun digits => (hexValue? digits).getD 0) = parts := by
  rw [List.map_map]
  refine (List.map_congr_left fun part _ => ?_).trans (List.map_id parts)
  rw [Function.comp_apply, hexValue?_toDigits]
  rfl

/-- Eight segments without an empty piece are read back. -/
theorem readSegments_digits {parts : List ℕ} (hlength : parts.length = 8) :
    readSegments (parts.map (Nat.toDigits 16)) = parts := by
  have hfront : (parts.map (Nat.toDigits 16)).takeWhile (· ≠ []) =
      parts.map (Nat.toDigits 16) :=
    List.takeWhile_eq_self_iff.mpr fun piece hpiece => decide_eq_true fun hempty =>
      nil_not_mem_digits parts (hempty ▸ hpiece)
  unfold readSegments
  dsimp only
  rw [hfront, if_pos (by rw [List.length_map, hlength]), values_digits]

/-- Segments around a run of zeros that is left out are read back. -/
theorem readSegments_around {front back : List ℕ} {zeros : ℕ} (hzeros : 0 < zeros)
    (hlength : front.length + zeros + back.length = 8) :
    readSegments (joinedPieces (front.map (Nat.toDigits 16)) ++
        [] :: joinedPieces (back.map (Nat.toDigits 16))) =
      front ++ (List.replicate zeros 0 ++ back) := by
  have hback : ((joinedPieces (front.map (Nat.toDigits 16)) ++
      [] :: joinedPieces (back.map (Nat.toDigits 16))).reverse.takeWhile (· ≠ [])).reverse =
        back.map (Nat.toDigits 16) := by
    rw [List.reverse_append, List.reverse_cons, List.append_assoc, List.singleton_append,
      reverse_joinedPieces, takeWhile_joinedPieces, List.reverse_reverse]
    rw [List.mem_reverse]
    exact nil_not_mem_digits back
  unfold readSegments
  dsimp only
  rw [takeWhile_joinedPieces (nil_not_mem_digits front), hback, List.length_map, List.length_map,
    if_neg (by omega), values_digits, values_digits]
  rw [show 8 - (front.length + back.length) = zeros by omega]

theorem toList_segmentsText (parts : List ℕ) :
    (segmentsText parts).toList = [':'].intercalate (parts.map (Nat.toDigits 16)) := by
  rw [segmentsText, String.toList_intercalate, List.map_map]
  refine congrArg [':'].intercalate (List.map_congr_left fun part _ => ?_)
  rw [Function.comp_apply, String.toList_ofList]

/-- What is not a digit does not stand in the digits of a number. -/
theorem not_mem_toDigits {c : Char} (hc : hexDigit? c = none) (part : ℕ) :
    c ∉ Nat.toDigits 16 part := by
  intro hmem
  have hdigit := isSome_of_hexValue? (hexValue?_toDigits part) c hmem
  rw [hc] at hdigit
  cases hdigit

theorem splitOn_segmentsText (parts : List ℕ) :
    (segmentsText parts).toList.splitOn ':' = joinedPieces (parts.map (Nat.toDigits 16)) := by
  rw [toList_segmentsText, joinedPieces]
  split
  · next hempty => rw [hempty]; rfl
  · next hparts =>
    refine List.splitOn_intercalate ':' ?_ hparts
    intro piece hpiece
    obtain ⟨part, -, rfl⟩ := List.mem_map.mp hpiece
    exact not_mem_toDigits (by decide) part

/-- The address is an IPv4 address in the form of an IPv6 address. -/
def IsMapped (address : Bytes) : Prop := address.take 12 = List.replicate 10 0 ++ [0xff, 0xff]

theorem ipv6Text_of_isMapped {address : Bytes} (h : IsMapped address) :
    ipv6Text address = "::ffff:" ++ ipv4Text (address.drop 12) :=
  if_pos h

theorem ipv6Text_of_not_isMapped {address : Bytes} (h : ¬ IsMapped address) :
    ipv6Text address =
      let parts := segments address
      let (start, length) := longestZeros 0 (0, 0) (0, 0) parts
      if 1 < length then
        segmentsText (parts.take start) ++ "::" ++ segmentsText (parts.drop (start + length))
      else segmentsText parts :=
  if_neg h

theorem length_segments (address : Bytes) : (segments address).length = address.length / 2 := by
  fun_induction segments address with
  | case1 high low rest ih =>
    simp only [List.length_cons, ih]
    omega
  | case2 bytes hshort =>
    match bytes, hshort with
    | [], _ => rfl
    | [_], _ => simp
    | high :: low :: rest, hshort => exact absurd rfl (hshort high low rest)

/-- The segments of an address are read back from its text. -/
theorem readSegments_ipv6Text {address : Bytes} (hlength : address.length = 16)
    (hmapped : ¬ IsMapped address) :
    readSegments ((ipv6Text address).toList.splitOn ':') = segments address := by
  have hsegments : (segments address).length = 8 := by rw [length_segments, hlength]
  have hrun : IsZeroRun (segments address) (longestZeros 0 (0, 0) (0, 0) (segments address)) :=
    longestZeros_isZeroRun rfl nofun nofun nofun
  rw [ipv6Text_of_not_isMapped hmapped]
  dsimp only
  generalize segments address = parts at hsegments hrun ⊢
  generalize longestZeros 0 (0, 0) (0, 0) parts = run at hrun ⊢
  obtain ⟨start, length⟩ := run
  dsimp only
  split
  · next hlong =>
    have hlast := (List.getElem?_eq_some_iff.mp (hrun (length - 1) (by dsimp only; omega))).1
    dsimp only at hlast
    have htake : (parts.take start).length = start := by
      rw [List.length_take]
      omega
    have hdrop := List.length_drop (i := start + length) (l := parts)
    have hcolon : ∀ text : List Char, (':' :: text).splitOn ':' = [] :: text.splitOn ':' :=
      List.splitOn_append_cons_self []
    have htext : (segmentsText (parts.take start) ++ "::" ++
        segmentsText (parts.drop (start + length))).toList =
          (segmentsText (parts.take start)).toList ++
            ':' :: ':' :: (segmentsText (parts.drop (start + length))).toList := by
      rw [String.toList_append, String.toList_append, List.append_assoc]
      rfl
    rw [htext, List.splitOn_append_cons_self, hcolon, splitOn_segmentsText, splitOn_segmentsText]
    exact (readSegments_around (by omega) (by omega)).trans hrun.split.symm
  · next hshort =>
    have hparts : parts.map (Nat.toDigits 16) ≠ [] := by
      rw [← List.length_pos_iff, List.length_map, hsegments]
      decide
    rw [splitOn_segmentsText, joinedPieces, if_neg hparts, readSegments_digits hsegments]

theorem segments_inj {a b : Bytes} (ha : a.length % 2 = 0) (hb : b.length % 2 = 0)
    (h : segments a = segments b) : a = b := by
  fun_induction segments a generalizing b with
  | case1 high low rest ih =>
    match b, hb with
    | [], _ => cases h
    | high' :: low' :: rest', hb =>
      have hlow := low.toNat_lt
      have hlow' := low'.toNat_lt
      rw [segments, List.cons_eq_cons] at h
      simp only [List.length_cons] at ha hb
      have hrest := ih (by omega) (by omega) h.2
      have hhighEq : high = high' := UInt8.toNat_inj.mp (by omega)
      have hlowEq : low = low' := UInt8.toNat_inj.mp (by omega)
      rw [hrest, hhighEq, hlowEq]
  | case2 a hshort =>
    match a, hshort, b with
    | [], _, [] => rfl
    | [], _, [_] => cases hb
    | [], _, _ :: _ :: _ => cases h
    | [_], _, _ => cases ha
    | high :: low :: rest, hshort, _ => exact absurd rfl (hshort high low rest)

theorem dot_mem_ipv4Text {address : Bytes} (hlength : 1 < address.length) :
    '.' ∈ (ipv4Text address).toList := by
  by_contra hdot
  have haddress : address ≠ [] := List.length_pos_iff.mp (by omega)
  have hpieces := congrArg List.length (splitOn_ipv4Text haddress)
  rw [List.splitOn_eq_singleton hdot, List.length_map, List.length_singleton] at hpieces
  omega

theorem dot_not_mem_segmentsText (parts : List ℕ) : '.' ∉ (segmentsText parts).toList := by
  rw [toList_segmentsText]
  intro hmem
  obtain hcolon | ⟨piece, hpiece, hdot⟩ := mem_intercalate hmem
  · cases hcolon
  · obtain ⟨part, -, rfl⟩ := List.mem_map.mp hpiece
    exact not_mem_toDigits (by decide) part hdot

/-- Only the text of a mapped address has dots. -/
theorem dot_mem_ipv6Text_iff {address : Bytes} (hlength : address.length = 16) :
    '.' ∈ (ipv6Text address).toList ↔ IsMapped address := by
  refine ⟨fun hdot => ?_, fun hmapped => ?_⟩
  · by_contra hmapped
    rw [ipv6Text_of_not_isMapped hmapped] at hdot
    dsimp only at hdot
    split at hdot
    · rw [String.toList_append, String.toList_append] at hdot
      obtain hbefore | hback := List.mem_append.mp hdot
      · obtain hfront | hcolons := List.mem_append.mp hbefore
        · exact dot_not_mem_segmentsText _ hfront
        · exact absurd hcolons (by decide)
      · exact dot_not_mem_segmentsText _ hback
    · exact dot_not_mem_segmentsText _ hdot
  · have hlong : 1 < (address.drop 12).length := by
      rw [List.length_drop, hlength]
      decide
    rw [ipv6Text_of_isMapped hmapped, String.toList_append]
    exact List.mem_append_right _ (dot_mem_ipv4Text hlong)

/-- Different addresses have different texts. -/
theorem ipv6Text_inj {a b : Bytes} (ha : a.length = 16) (hb : b.length = 16)
    (h : ipv6Text a = ipv6Text b) : a = b := by
  have hmapped : IsMapped a ↔ IsMapped b := by
    rw [← dot_mem_ipv6Text_iff ha, ← dot_mem_ipv6Text_iff hb, h]
  by_cases hsame : IsMapped a
  · have hother : IsMapped b := hmapped.mp hsame
    have hnonempty : ∀ address : Bytes, address.length = 16 → address.drop 12 ≠ [] := by
      intro address haddress
      rw [← List.length_pos_iff, List.length_drop, haddress]
      decide
    rw [ipv6Text_of_isMapped hsame, ipv6Text_of_isMapped hother, String.append_right_inj] at h
    have htake : a.take 12 = b.take 12 := Eq.trans hsame hother.symm
    have hdrop := ipv4Text_inj (hnonempty a ha) (hnonempty b hb) h
    rw [← List.take_append_drop 12 a, htake, hdrop, List.take_append_drop]
  · have hread := readSegments_ipv6Text ha hsame
    rw [h, readSegments_ipv6Text hb (mt hmapped.mpr hsame)] at hread
    exact (segments_inj (by omega) (by omega) hread).symm

end MongoDam.Lib
