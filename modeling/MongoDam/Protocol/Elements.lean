import MongoDam.Protocol.Locality

/-!
# Summaries element by element

The element loops record one element after the other. Over a whole document the
summary is that of all its elements; over a captured beginning it is that of the
elements the loop reaches, which are those that are captured whole, up to the first
one whose value takes no bytes. A field that one key sets is read off the element
with that key, in both loops.
-/

namespace MongoDam.Protocol

open Lib

/-- One element of a document: its type and key, where its value starts, and where it ends. -/
structure Element where
  elementType : UInt8
  key : String
  valueStart : ℕ
  next : ℕ
  deriving DecidableEq, Repr

/-- The element at an offset. -/
def elementAt? (document : Bytes) (offset : ℕ) : Option Element :=
  match readCstring document (offset + 1) with
  | .error _ => none
  | .ok (key, afterKey) =>
    match skipValue document afterKey (document.getD offset 0) with
    | .error _ => none
    | .ok next => some ⟨document.getD offset 0, key, afterKey, next⟩

theorem elementAt?_eq_some {document : Bytes} {offset : ℕ} {element : Element} :
    elementAt? document offset = some element ↔
      element.elementType = document.getD offset 0 ∧
        readCstring document (offset + 1) = .ok (element.key, element.valueStart) ∧
        skipValue document element.valueStart element.elementType = .ok element.next := by
  unfold elementAt?
  constructor
  · intro h
    split at h
    · cases h
    · rename_i hkey
      split at h
      · cases h
      · rename_i hskip
        cases h
        exact ⟨rfl, hkey, hskip⟩
  · rintro ⟨htype, hkey, hskip⟩
    rw [htype] at hskip
    rw [hkey]
    dsimp only
    rw [hskip, ← htype]

/-- An element takes bytes, and its value lies behind its key. -/
theorem elementAt?_lt {document : Bytes} {offset : ℕ} {element : Element}
    (h : elementAt? document offset = some element) :
    offset + 1 < element.valueStart ∧ element.valueStart ≤ element.next := by
  obtain ⟨-, hkey, hskip⟩ := elementAt?_eq_some.mp h
  exact ⟨(readCstring_lt hkey).1, (skipValue_le hskip).1⟩

/-- The elements from an offset on. -/
def elementsFrom (document : Bytes) (offset : ℕ) : List Element :=
  if offset < document.length - 1 then
    match _h : elementAt? document offset with
    | none => []
    | some element =>
      if document.length - 1 < element.next then []
      else element :: elementsFrom document element.next
  else []
termination_by document.length - offset
decreasing_by
  have := elementAt?_lt _h
  omega

theorem elementsFrom_cons {document : Bytes} {offset : ℕ} {element : Element}
    (hoffset : offset < document.length - 1) (helement : elementAt? document offset = some element)
    (hnext : element.next ≤ document.length - 1) :
    elementsFrom document offset = element :: elementsFrom document element.next := by
  rw [elementsFrom, if_pos hoffset]
  split
  · rename_i hnone
    cases helement.symm.trans hnone
  · rename_i hsome
    cases helement.symm.trans hsome
    exact if_neg (Nat.not_lt_of_le hnext)

/-- There are no elements where the next one is not complete. -/
theorem elementsFrom_nil {document : Bytes} {offset : ℕ}
    (h : ∀ element, elementAt? document offset = some element →
      document.length - 1 < element.next) : elementsFrom document offset = [] := by
  rw [elementsFrom]
  split
  · split
    · rfl
    · rename_i element helement
      exact if_pos (h element helement)
  · rfl

/-- The top-level elements of a document. -/
def documentElements (document : Bytes) : List Element := elementsFrom document 4

/-- The summaries of embedded documents, where they are allowed. -/
def nestedSummary : Option (Bytes → Except DecodeError BsonSummary) := some (summarizeWith none)

/-- Record an element whose value is complete. -/
def Element.record (document : Bytes) (ordinal : ℕ) (element : Element) (summary : BsonSummary) :
    BsonSummary :=
  recordElement nestedSummary document ordinal element.elementType element.key element.valueStart
    (some element.next) summary

/-- Record elements, the first one under the given number. -/
def recordAll (document : Bytes) (ordinal : ℕ) (elements : List Element) (summary : BsonSummary) :
    BsonSummary :=
  match elements with
  | [] => summary
  | element :: rest =>
    recordAll document (ordinal + 1) rest (element.record document ordinal summary)

/-! ### Whole documents -/

/-- The elements follow each other from the offset to the end of the document. -/
def Placed (document : Bytes) : ℕ → List Element → Prop
  | offset, [] => document.length - 1 ≤ offset
  | offset, element :: rest =>
    offset < document.length - 1 ∧ elementAt? document offset = some element ∧
      element.next ≤ document.length - 1 ∧ Placed document element.next rest

/-- A document that is summarized consists of its elements, and they make its summary. -/
theorem summarizeLoop_elements {document : Bytes} {offset ordinal : ℕ}
    {summary result : BsonSummary}
    (h : summarizeLoop nestedSummary document offset ordinal summary = .ok result) :
    Placed document offset (elementsFrom document offset) ∧
      result = recordAll document ordinal (elementsFrom document offset) summary := by
  fun_induction summarizeLoop nestedSummary document offset ordinal summary with
  | case1 => cases h
  | case2 => cases h
  | case3 => cases h
  | case4 offset ordinal summary hlt key afterKey hkey next hskip hnext ih =>
    rw [List.getElem_eq_getD 0] at hskip ih h
    have helement : elementAt? document offset =
        some ⟨document.getD offset 0, key, afterKey, next⟩ :=
      elementAt?_eq_some.mpr ⟨rfl, hkey, hskip⟩
    obtain ⟨hplaced, hresult⟩ := ih h
    rw [elementsFrom_cons hlt helement (Nat.le_of_not_lt hnext)]
    exact ⟨⟨hlt, helement, Nat.le_of_not_lt hnext, hplaced⟩, hresult⟩
  | case5 offset ordinal summary hend =>
    rw [elementsFrom, if_neg hend]
    exact ⟨by unfold Placed; omega, (Except.ok.inj h).symm⟩

/-- Later elements end later. -/
theorem Placed.lt {document : Bytes} {offset : ℕ} {elements : List Element}
    (h : Placed document offset elements) : ∀ element ∈ elements, offset < element.next := by
  induction elements generalizing offset with
  | nil => nofun
  | cons first rest ih =>
    obtain ⟨-, helement, -, hrest⟩ := h
    have hfirst := elementAt?_lt helement
    intro element helement
    rcases List.mem_cons.mp helement with rfl | hmem
    · omega
    · have := ih hrest element hmem
      omega

theorem Placed.pairwise {document : Bytes} {offset : ℕ} {elements : List Element}
    (h : Placed document offset elements) :
    elements.Pairwise fun earlier later => earlier.next < later.next := by
  induction elements generalizing offset with
  | nil => exact .nil
  | cons first rest ih => exact .cons h.2.2.2.lt (ih h.2.2.2)

/-! ### Captured beginnings -/

/-- A key that is captured whole is read. -/
theorem readCstring_take {bytes : Bytes} {offset stop m : ℕ} {key : String}
    (h : readCstring bytes offset = .ok (key, stop)) (hm : stop ≤ m) :
    readCstring (bytes.take m) offset = .ok (key, stop) := by
  obtain ⟨hlt, hle⟩ := readCstring_lt h
  unfold readCstring sliceFrom? at h ⊢
  rw [if_pos (by omega)] at h
  rw [if_pos (by rw [List.length_take]; omega)]
  dsimp only at h ⊢
  split at h
  · cases h
  · rename_i relativeEnd hfind
    split at h
    · cases h
    · rename_i value hvalue
      have hstop : offset + relativeEnd + 1 = stop := congrArg Prod.snd (Except.ok.inj h)
      -- the terminator is not behind the cut
      have hfind' : ((bytes.drop offset).take (m - offset)).findIdx? (· == 0) =
          some relativeEnd := by
        rw [← List.take_append_drop (m - offset) (bytes.drop offset), List.findIdx?_append] at hfind
        cases hfirst : ((bytes.drop offset).take (m - offset)).findIdx? (· == 0) with
        | some index =>
          rw [hfirst, Option.some_or] at hfind
          exact hfind
        | none =>
          rw [hfirst, Option.none_or] at hfind
          obtain ⟨index, -, hindex⟩ := Option.map_eq_some_iff.mp hfind
          rw [List.length_take, List.length_drop] at hindex
          omega
      rw [List.drop_take, hfind']
      dsimp only
      rw [List.take_take, Nat.min_eq_left (by omega), hvalue]
      exact h

theorem checkedEnd_take {bytes : Bytes} {stop next m : ℕ} (h : checkedEnd bytes stop = .ok next)
    (hm : next ≤ m) : checkedEnd (bytes.take m) stop = .ok next := by
  obtain ⟨rfl, hle⟩ := checkedEnd_eq_ok h
  unfold checkedEnd
  rw [if_pos (by rw [List.length_take]; omega)]

theorem skipPrefixed_take {bytes : Bytes} {offset next extra m : ℕ} {least : ℤ}
    (hroom : 4 ≤ extra + least) (h : skipPrefixed bytes offset least extra = .ok next)
    (hm : next ≤ m) : skipPrefixed (bytes.take m) offset least extra = .ok next := by
  obtain ⟨length, hread, hleast, rfl, hle⟩ := skipPrefixed_eq_ok h
  unfold skipPrefixed
  rw [readI32_take (by rw [List.length_take]; omega), hread]
  dsimp only
  rw [if_neg (by omega)]
  unfold checkedEnd
  rw [if_pos (by rw [List.length_take]; omega)]

/-- A value that is captured whole ends where it ends. -/
theorem skipValue_take {bytes : Bytes} {offset next m : ℕ} {elementType : UInt8}
    (h : skipValue bytes offset elementType = .ok next) (hm : next ≤ m) :
    skipValue (bytes.take m) offset elementType = .ok next := by
  unfold skipValue at h ⊢
  split at h
  · exact checkedEnd_take h hm
  · split at h
    case h_8 =>
      cases hpattern : readCstring bytes offset with
      | error e =>
        rw [hpattern] at h
        cases h
      | ok pattern =>
        rw [hpattern] at h
        dsimp only at h
        cases hoptions : readCstring bytes pattern.2 with
        | error e =>
          rw [hoptions] at h
          cases h
        | ok options =>
          rw [hoptions] at h
          obtain rfl : options.2 = next := Except.ok.inj h
          have hlt := readCstring_lt hoptions
          rw [readCstring_take hpattern (by omega)]
          dsimp only
          rw [readCstring_take hoptions hm]
    case h_10 => cases h
    all_goals exact skipPrefixed_take (by decide) h hm

/-- An element that is captured whole is the same element. -/
theorem elementAt?_take {document : Bytes} {offset m : ℕ} {element : Element}
    (h : elementAt? document offset = some element) (hm : element.next ≤ m) :
    elementAt? (document.take m) offset = some element := by
  obtain ⟨htype, hkey, hskip⟩ := elementAt?_eq_some.mp h
  have hlt := elementAt?_lt h
  refine elementAt?_eq_some.mpr
    ⟨?_, readCstring_take hkey (by omega), skipValue_take hskip hm⟩
  rw [htype, List.getD_eq_getElem?_getD, List.getD_eq_getElem?_getD, List.getElem?_take,
    if_pos (by omega)]

/-- What is recorded depends on the bytes of the value only. -/
private theorem Element.record_value {front value : Bytes} {element : Element}
    (hstart : element.valueStart = front.length)
    (hnext : element.next = front.length + value.length)
    (hvalue : IsValue element.elementType value)
    (tail : Bytes) (ordinal : ℕ) (summary : BsonSummary) :
    element.record (front ++ (value ++ tail)) ordinal summary =
      recordElement nestedSummary value ordinal element.elementType element.key 0
        (some value.length) summary := by
  rw [← recordElement_value nestedSummary tail hvalue]
  rw [← recordElement_append_left nestedSummary front (value ++ tail)]
  unfold record
  rw [hstart, hnext]
  rfl

/-- A value that is captured whole is recorded the same. -/
theorem Element.record_take {document : Bytes} {m : ℕ} {element : Element}
    (hskip : skipValue document element.valueStart element.elementType = .ok element.next)
    (hm : element.next ≤ m) (ordinal : ℕ) (summary : BsonSummary) :
    element.record (document.take m) ordinal summary = element.record document ordinal summary := by
  obtain ⟨hle, hlength⟩ := skipValue_le hskip
  have hfront : (document.take element.valueStart).length = element.valueStart := by
    rw [List.length_take]
    omega
  have hvalue : ((document.take element.next).drop element.valueStart).length =
      element.next - element.valueStart := by
    rw [List.length_drop, List.length_take]
    omega
  have hparts : document.take element.next = document.take element.valueStart ++
      (document.take element.next).drop element.valueStart := by
    have hsplit := List.take_append_drop element.valueStart (document.take element.next)
    rw [List.take_take, Nat.min_eq_left hle] at hsplit
    exact hsplit.symm
  have hisValue : IsValue element.elementType
      ((document.take element.next).drop element.valueStart) := by
    have hcut := skipValue_take hskip (Nat.le_refl element.next)
    rw [hparts] at hcut
    have hmoved := skipValue_append_left (document.take element.valueStart)
      ((document.take element.next).drop element.valueStart) 0 element.elementType
    rw [Nat.add_zero, hfront, hcut] at hmoved
    unfold IsValue
    cases hvalue' : skipValue ((document.take element.next).drop element.valueStart) 0
        element.elementType with
    | error e =>
      rw [hvalue'] at hmoved
      cases hmoved
    | ok stop =>
      rw [hvalue'] at hmoved
      have hstop : element.next = element.valueStart + stop := Except.ok.inj hmoved
      rw [hvalue, hstop, Nat.add_sub_cancel_left]
  have hrecord := fun tail => @Element.record_value _ _ element hfront.symm
    (by rw [hfront, hvalue]; omega) hisValue tail ordinal summary
  have htake : document.take m = document.take element.next ++
      (document.drop element.next).take (m - element.next) := by
    rw [← List.take_add, Nat.add_sub_cancel' hm]
  have hwhole := hrecord (document.drop element.next)
  rw [← List.append_assoc, ← hparts, List.take_append_drop] at hwhole
  rw [htake, hparts, List.append_assoc, hrecord, hwhole]

/-- The elements the loop reaches in the first `m` bytes: those that are captured whole, up to
the first one whose value takes no bytes. -/
def reached (m : ℕ) : List Element → List Element
  | [] => []
  | element :: rest =>
    if m < element.next then []
    else if element.valueStart < element.next then element :: reached m rest
    else [element]

theorem reached_isPrefix (m : ℕ) (elements : List Element) : reached m elements <+: elements := by
  induction elements with
  | nil => exact List.nil_prefix
  | cons element rest ih =>
    unfold reached
    split
    · exact List.nil_prefix
    · split
      · exact List.cons_prefix_cons.mpr ⟨rfl, ih⟩
      · exact List.cons_prefix_cons.mpr ⟨rfl, List.nil_prefix⟩

/-- An element is reached when it is captured whole and the values before it take bytes. -/
theorem mem_reached_iff {document : Bytes} {offset m : ℕ} {elements : List Element}
    (h : Placed document offset elements) {element : Element} (hmem : element ∈ elements) :
    element ∈ reached m elements ↔ element.next ≤ m ∧
      ∀ earlier ∈ elements, earlier.next < element.next → earlier.valueStart < earlier.next := by
  induction elements generalizing offset with
  | nil => cases hmem
  | cons first rest ih =>
    obtain ⟨-, hfirst, -, hrest⟩ := h
    have hlater := hrest.lt
    rcases List.mem_cons.mp hmem with rfl | hmem
    · have hbefore : ∀ earlier ∈ element :: rest, earlier.next < element.next →
          earlier.valueStart < earlier.next := by
        intro earlier hearlier hlt
        rcases List.mem_cons.mp hearlier with rfl | hin
        · exact absurd hlt (Nat.lt_irrefl _)
        · exact absurd hlt (Nat.lt_asymm (hlater earlier hin))
      by_cases hcut : m < element.next
      · rw [reached, if_pos hcut]
        exact ⟨nofun, fun h => absurd h.1 (Nat.not_le_of_lt hcut)⟩
      · have hin : element ∈ reached m (element :: rest) := by
          rw [reached, if_neg hcut]
          split <;> exact List.mem_cons_self ..
        exact ⟨fun _ => ⟨Nat.le_of_not_lt hcut, hbefore⟩, fun _ => hin⟩
    · have hlt := hlater element hmem
      have hne : element ≠ first := fun heq => Nat.lt_irrefl _ (heq ▸ hlt)
      by_cases hcut : m < first.next
      · rw [reached, if_pos hcut]
        exact ⟨nofun, fun h => absurd h.1 (by omega)⟩
      · rw [reached, if_neg hcut]
        by_cases hbytes : first.valueStart < first.next
        · rw [if_pos hbytes, List.mem_cons, or_iff_right hne, ih hrest hmem,
            List.forall_mem_cons]
          exact ⟨fun h => ⟨h.1, fun _ => hbytes, h.2⟩, fun h => ⟨h.1, h.2.2⟩⟩
        · rw [if_neg hbytes, List.mem_singleton]
          exact ⟨fun heq => absurd heq hne,
            fun h => absurd (h.2 first (List.mem_cons_self ..) hlt) hbytes⟩

/-- The loop over a captured beginning ends behind the elements it reaches, or it records the
next one, whose value is cut. -/
inductive PrefixEnd (document : Bytes) (m ordinal : ℕ) (elements : List Element)
    (summary : BsonSummary) : BsonSummary → Prop
  | reached : PrefixEnd document m ordinal elements summary
      (recordAll document ordinal (reached m elements) summary)
  | cut {element : Element} {rest : List Element}
      (hrest : elements = Protocol.reached m elements ++ element :: rest)
      (hskip : ∀ stop,
        skipValue (document.take m) element.valueStart element.elementType ≠ .ok stop) :
      PrefixEnd document m ordinal elements summary
        (recordElement nestedSummary (document.take m)
          (ordinal + (Protocol.reached m elements).length) element.elementType element.key
          element.valueStart none
            (recordAll document ordinal (Protocol.reached m elements) summary))

private theorem getElem?_take_of_lt {bytes : Bytes} {offset m : ℕ} (hm : offset < m)
    (h : offset < bytes.length) : (bytes.take m)[offset]? = some (bytes.getD offset 0) := by
  rw [List.getElem?_take, if_pos hm, List.getElem?_eq_getElem h, List.getElem_eq_getD 0]

theorem summarizePrefixLoop_elements {document : Bytes} {m offset : ℕ} {elements : List Element}
    (hplaced : Placed document offset elements) (hm : m ≤ document.length - 1) (ordinal : ℕ)
    (summary : BsonSummary) :
    PrefixEnd document m ordinal elements summary
      (summarizePrefixLoop (document.take m) m offset ordinal summary) := by
  induction elements generalizing offset ordinal summary with
  | nil =>
    have hend : document.length - 1 ≤ offset := hplaced
    rw [summarizePrefixLoop_eq, if_neg (by omega)]
    exact .reached
  | cons element rest ih =>
    obtain ⟨hoffset, helement, hnext, hrest⟩ := hplaced
    have hlt := elementAt?_lt helement
    obtain ⟨htype, hkey, hskip⟩ := elementAt?_eq_some.mp helement
    by_cases hcut : m < element.next
    · have hreached : reached m (element :: rest) = [] := if_pos hcut
      have hend : PrefixEnd document m ordinal (element :: rest) summary summary := by
        have hnothing := @PrefixEnd.reached document m ordinal (element :: rest) summary
        rw [hreached] at hnothing
        exact hnothing
      have hne := skipValue_take_ne_ok hskip hcut
      rw [summarizePrefixLoop_eq]
      split
      · rename_i hoffset'
        rw [getElem?_take_of_lt hoffset' (by omega), ← htype]
        dsimp only
        cases hkey' : readCstring (document.take m) (offset + 1) with
        | error e => exact hend
        | ok result =>
          -- the key is captured whole, but the value is not
          have hwhole := readCstring_append (document.drop m) hkey'
          rw [List.take_append_drop, hkey] at hwhole
          obtain rfl := Except.ok.inj hwhole
          dsimp only
          cases hskip' : skipValue (document.take m) element.valueStart element.elementType with
          | ok stop => exact absurd hskip' (hne stop)
          | error e =>
            have hlast := @PrefixEnd.cut document m ordinal (element :: rest) summary element rest
              (by rw [hreached]; rfl) hne
            rw [hreached] at hlast
            exact hlast
      · exact hend
    · have hle : element.next ≤ m := Nat.le_of_not_lt hcut
      obtain ⟨htype', hkey', hskip'⟩ := elementAt?_eq_some.mp (elementAt?_take helement hle)
      have hrecord := element.record_take hskip hle ordinal summary
      rw [summarizePrefixLoop_eq, if_pos (by omega), getElem?_take_of_lt (by omega) (by omega),
        ← htype]
      dsimp only
      rw [hkey']
      dsimp only
      rw [hskip']
      dsimp only
      by_cases hbytes : element.valueStart < element.next
      · have hreached : reached m (element :: rest) = element :: reached m rest := by
          rw [reached, if_neg hcut, if_pos hbytes]
        rw [if_pos ⟨hbytes, hle⟩]
        change PrefixEnd _ _ _ _ _ (summarizePrefixLoop _ _ _ _ (element.record _ _ _))
        rw [hrecord]
        have hnext' := ih hrest (ordinal + 1) (element.record document ordinal summary)
        generalize summarizePrefixLoop (document.take m) m element.next (ordinal + 1)
          (element.record document ordinal summary) = result at hnext' ⊢
        cases hnext' with
        | reached =>
          have hend := @PrefixEnd.reached document m ordinal (element :: rest) summary
          rw [hreached] at hend
          exact hend
        | @cut last others hlast hskip =>
          have hend := @PrefixEnd.cut document m ordinal (element :: rest) summary last others
            (by rw [hreached, List.cons_append, ← hlast]) hskip
          rw [hreached, List.length_cons, ← Nat.add_assoc, Nat.add_right_comm] at hend
          exact hend
      · have hreached : reached m (element :: rest) = [element] := by
          rw [reached, if_neg hcut, if_neg hbytes]
        rw [if_neg fun h => hbytes h.1]
        change PrefixEnd _ _ _ _ _ (element.record _ _ _)
        rw [hrecord]
        have hstopped := @PrefixEnd.reached document m ordinal (element :: rest) summary
        rw [hreached] at hstopped
        exact hstopped

end MongoDam.Protocol
