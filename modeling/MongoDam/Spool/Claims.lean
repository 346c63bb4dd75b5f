import MongoDam.Spool.Custody
import MongoDam.Spool.Faults
import Mathlib.Algebra.BigOperators.Group.Finset.Basic
import Mathlib.Algebra.Order.BigOperators.Group.Finset

/-!
# Claims on the capacity

An item takes up its size. A temporary file takes up the size of its body as soon as
it may be promoted by the next recovery, although the capacity check does not see it.
The claims of a disk are covered by a budget: a set of bodies that fit together. What
is stored then never exceeds the capacity.
-/

namespace MongoDam.Spool

open Lib FileSystem

/-! ### What is stored -/

/-- The length of a listed item. -/
def itemLength (entry : Name × ℕ) : Option ℕ := entry.1.itemId?.map fun _ => entry.2

/-- The total size of the items in a directory. -/
def bytesAt (fs : Disk) (place : Place) : ℕ := ((fs.listing place).filterMap itemLength).sum

/-- The total size of the items in both directories. -/
def storedBytes (fs : Disk) : ℕ := bytesAt fs .root + bytesAt fs .quarantine

private theorem foldl_countEntry_bytes (names : List (Name × ℕ)) (stats : SpoolStats)
    (hstats : stats.bytes ≤ 2 ^ 64 - 1) :
    (names.foldl countEntry stats).bytes =
      min (stats.bytes + (names.filterMap itemLength).sum) (2 ^ 64 - 1) := by
  induction names generalizing stats with
  | nil => exact (Nat.min_eq_left hstats).symm
  | cons entry rest ih =>
    rw [List.foldl_cons]
    cases hid : entry.1.itemId? with
    | none =>
      have hcount : countEntry stats entry = stats := by simp [countEntry, hid]
      have hlength : itemLength entry = none := by simp [itemLength, hid]
      rw [hcount, ih stats hstats, List.filterMap_cons_none hlength]
    | some id =>
      have hcount : (countEntry stats entry).bytes = min (stats.bytes + entry.2) (2 ^ 64 - 1) := by
        simp [countEntry, hid, saturatingAdd]
      have hlength : itemLength entry = some entry.2 := by simp [itemLength, hid]
      rw [ih _ (by rw [hcount]; omega), hcount, List.filterMap_cons_some hlength, List.sum_cons]
      omega

/-- The statistics give the total size, as far as it can be counted. -/
theorem statsAt_bytes (fs : Disk) (place : Place) :
    (statsAt fs place).bytes = min (bytesAt fs place) (2 ^ 64 - 1) := by
  unfold statsAt
  rw [foldl_countEntry_bytes _ _ (Nat.zero_le _), bytesAt, Nat.zero_add]

/-- A body that passes the capacity check fits beside what is stored. -/
theorem fits_of_not_exceeds {maxBytes : ℕ} {fs : Disk} {body : Bytes}
    (hmax : maxBytes < 2 ^ 64 - 1) (h : ¬Exceeds maxBytes fs body) :
    storedBytes fs + body.length ≤ maxBytes := by
  unfold Exceeds saturatingAdd at h
  rw [statsAt_bytes, statsAt_bytes] at h
  unfold storedBytes
  omega

/-! ### Claims -/

section Claims

variable (sha256 : Digest32) (used : Bytes → Prop) (files : ℕ → File) (fresh : ℕ)
  (entries : Table (Place × Name) ℕ)

/-- The temporary file of the id may be complete, now or after a crash, and no item in
quarantine stands in the way of its promotion. -/
def Promotable (id : String) : Prop :=
  entries.get? (.quarantine, .item id) = none ∧
    ∃ file, entries.get? (.root, .temporary id) = some file ∧
      ((files file).synced = false ∨ bodyId sha256 (files file).data = id)

/-- A part of the capacity is taken. -/
inductive Claims : Place → String → Prop
  | item {place : Place} {id : String} (hitem : (entries.get? (place, .item id)).isSome) :
      Claims place id
  | promotable {id : String} (hpromotable : Promotable sha256 files entries id) : Claims .root id

/-- Items are durable bodies under their ids, and temporary files are named after bodies. -/
structure Sound : Prop where
  numbered : ∀ path file, entries.get? path = some file → file < fresh
  contents : ∀ path file, entries.get? path = some file → (files file).synced = true →
    used (files file).data
  items : ∀ place id file, entries.get? (place, .item id) = some file →
    (files file).synced = true ∧ bodyId sha256 (files file).data = id
  temporaries : ∀ id file, entries.get? (.root, .temporary id) = some file →
    ∃ body, used body ∧ bodyId sha256 body = id

/-- Every claim is one of a body of the budget. -/
def Covers (budget : Finset (Place × Bytes)) : Prop :=
  ∀ place id, Claims sha256 files entries place id →
    ∃ body, (place, body) ∈ budget ∧ bodyId sha256 body = id

/-- Bodies that fit together. -/
structure Budget (maxBytes : ℕ) (budget : Finset (Place × Bytes)) : Prop where
  used : ∀ claim ∈ budget, used claim.2
  fits : ∑ claim ∈ budget, claim.2.length ≤ maxBytes

/-- The claims are covered by a budget. -/
def Within (maxBytes : ℕ) : Prop :=
  ∃ budget, Budget used maxBytes budget ∧ Covers sha256 files entries budget

end Claims

variable {sha256 : Digest32} {used : Bytes → Prop} {files : ℕ → File} {fresh maxBytes : ℕ}
  {entries : Table (Place × Name) ℕ} {budget : Finset (Place × Bytes)}

/-- The bodies of the items. -/
def heldBodies (files : ℕ → File) (entries : Table (Place × Name) ℕ) : List (Place × Bytes) :=
  entries.entries.filterMap fun entry =>
    entry.1.2.itemId?.map fun _ => (entry.1.1, (files entry.2).data)

/-- No body has the empty id. -/
theorem itemId?_bodyId (sha256 : Digest32) (body : Bytes) :
    (Name.item (bodyId sha256 body)).itemId? = some (bodyId sha256 body) := by
  refine if_neg fun hempty => ?_
  have hdigest : sha256.digest body = [] := encodeHex_inj (hempty.trans (by rfl))
  have hlength := sha256.digest_length body
  rw [hdigest] at hlength
  cases hlength

/-- What is stored are the bodies of the items. -/
private theorem storedBytes_eq (fs : Disk) :
    storedBytes fs = ((heldBodies fs.files fs.entries).map fun held => held.2.length).sum := by
  unfold storedBytes bytesAt listing heldBodies
  induction fs.entries.entries with
  | nil => rfl
  | cons entry rest ih =>
    obtain ⟨⟨place, name⟩, file⟩ := entry
    cases hid : name.itemId? with
    | none =>
      cases place with
      | root => simpa [itemLength, hid, List.filterMap_cons] using ih
      | quarantine => simpa [itemLength, hid, List.filterMap_cons] using ih
    | some id =>
      cases place with
      | root =>
        simp only [List.filterMap_cons, itemLength, hid, reduceCtorEq, if_true, if_false,
          Option.map_some, List.map_cons, List.sum_cons] at ih ⊢
        omega
      | quarantine =>
        simp only [List.filterMap_cons, itemLength, hid, reduceCtorEq, if_true, if_false,
          Option.map_some, List.map_cons, List.sum_cons] at ih ⊢
        omega

theorem Sound.mem_heldBodies (h : Sound sha256 used files fresh entries) {place : Place}
    {body : Bytes} (hmem : (place, body) ∈ heldBodies files entries) :
    used body ∧ ∃ file, entries.get? (place, .item (bodyId sha256 body)) = some file ∧
      (files file).data = body := by
  obtain ⟨⟨⟨other, name⟩, file⟩, hentry, hmap⟩ := List.mem_filterMap.mp hmem
  obtain ⟨id, hid, heq⟩ := Option.map_eq_some_iff.mp hmap
  have hname : name = .item id := eq_of_itemId? hid
  cases heq
  rw [hname] at hentry
  have hget := Table.get?_eq_some_iff.mpr hentry
  obtain ⟨hsynced, hbody⟩ := h.items _ _ _ hget
  refine ⟨h.contents _ _ hget hsynced, file, ?_, rfl⟩
  rw [hbody]
  exact hget

/-- Two items of one directory hold different bodies. -/
theorem Sound.nodup_heldBodies (h : Sound sha256 used files fresh entries) :
    (heldBodies files entries).Nodup := by
  have hpaths : (heldBodies files entries).map
      (fun held => (held.1, Name.item (bodyId sha256 held.2))) =
        entries.keys.filter fun path => path.2.itemId?.isSome := by
    have hall : ∀ entry ∈ entries.entries, ∀ id, entry.1.2 = .item id →
        bodyId sha256 (files entry.2).data = id := by
      rintro ⟨⟨place, name⟩, file⟩ hentry id rfl
      exact (h.items _ _ _ (Table.get?_eq_some_iff.mpr hentry)).2
    unfold heldBodies Table.keys
    generalize entries.entries = listed at hall
    induction listed with
    | nil => rfl
    | cons entry rest ih =>
      have hrest := ih fun other hother => hall other (List.mem_cons_of_mem _ hother)
      cases hid : entry.1.2.itemId? with
      | none => simpa [hid, List.filterMap_cons] using hrest
      | some id =>
        have hname : entry.1.2 = .item id := eq_of_itemId? hid
        have hbody := hall entry (List.mem_cons_self ..) id hname
        have hpath : (entry.1.1, Name.item id) = entry.1 := Prod.ext rfl hname.symm
        simpa [hid, List.filterMap_cons, hbody, hpath] using hrest
  have hnodup : ((heldBodies files entries).map
      fun held => (held.1, Name.item (bodyId sha256 held.2))).Nodup := by
    rw [hpaths]
    exact entries.nodup.filter _
  exact hnodup.of_map _

/-- What is stored is the sum over the bodies of the items. -/
theorem Sound.storedBytes_eq_sum {fs : Disk} (h : Sound sha256 used fs.files fresh fs.entries) :
    storedBytes fs = ∑ held ∈ (heldBodies fs.files fs.entries).toFinset, held.2.length := by
  rw [storedBytes_eq, List.sum_toFinset _ h.nodup_heldBodies]

/-- Claims that are covered by a budget do not exceed the capacity. -/
theorem Sound.storedBytes_le {fs : Disk} (hinjective : ∀ a b, used a → used b →
    bodyId sha256 a = bodyId sha256 b → a = b) (h : Sound sha256 used fs.files fresh fs.entries)
    (hwithin : Within sha256 used fs.files fs.entries maxBytes) : storedBytes fs ≤ maxBytes := by
  obtain ⟨budget, hbudget, hcovers⟩ := hwithin
  rw [h.storedBytes_eq_sum]
  refine Nat.le_trans (Finset.sum_le_sum_of_subset fun held hheld => ?_) hbudget.fits
  obtain ⟨place, body⟩ := held
  obtain ⟨hused, file, hget, -⟩ := h.mem_heldBodies (List.mem_toFinset.mp hheld)
  obtain ⟨other, hother, hid⟩ := hcovers place _ (.item (by rw [hget]; rfl))
  rwa [hinjective other body (hbudget.used _ hother) hused hid] at hother

/-! ### Changes of the entries -/

theorem Sound.erase (h : Sound sha256 used files fresh entries) (path : Place × Name) :
    Sound sha256 used files fresh (entries.erase path) := by
  have hget : ∀ {other file}, (entries.erase path).get? other = some file →
      entries.get? other = some file := by
    intro other file hother
    rw [Table.get?_erase] at hother
    split at hother
    · cases hother
    · exact hother
  exact ⟨fun _ _ hother => h.numbered _ _ (hget hother),
    fun _ _ hother => h.contents _ _ (hget hother),
    fun _ _ _ hother => h.items _ _ _ (hget hother),
    fun _ _ hother => h.temporaries _ _ (hget hother)⟩

/-- An item file under its id. -/
theorem Sound.insert_item (h : Sound sha256 used files fresh entries) {place : Place} {id : String}
    {file : ℕ} (hfresh : file < fresh) (hused : used (files file).data)
    (hsynced : (files file).synced = true) (hid : bodyId sha256 (files file).data = id) :
    Sound sha256 used files fresh (entries.insert (place, .item id) file) := by
  refine ⟨fun path other hget => ?_, fun path other hget => ?_, fun p i other hget => ?_,
    fun i other hget => ?_⟩
  · rw [Table.get?_insert] at hget
    split at hget
    · cases hget
      exact hfresh
    · exact h.numbered _ _ hget
  · rw [Table.get?_insert] at hget
    split at hget
    · cases hget
      exact fun _ => hused
    · exact h.contents _ _ hget
  · rw [Table.get?_insert] at hget
    split at hget
    · rename_i heq
      cases heq
      cases hget
      exact ⟨hsynced, hid⟩
    · exact h.items _ _ _ hget
  · rw [Table.get?_insert_of_ne _ _ (by simp)] at hget
    exact h.temporaries _ _ hget

/-- A temporary file that is named after a body. -/
theorem Sound.insert_temporary (h : Sound sha256 used files fresh entries) {body : Bytes}
    {file : ℕ} (hfresh : file < fresh)
    (hcontents : (files file).synced = true → used (files file).data) (hused : used body) :
    Sound sha256 used files fresh
      (entries.insert (.root, .temporary (bodyId sha256 body)) file) := by
  refine ⟨fun path other hget => ?_, fun path other hget => ?_, fun p i other hget => ?_,
    fun i other hget => ?_⟩
  · rw [Table.get?_insert] at hget
    split at hget
    · cases hget
      exact hfresh
    · exact h.numbered _ _ hget
  · rw [Table.get?_insert] at hget
    split at hget
    · cases hget
      exact hcontents
    · exact h.contents _ _ hget
  · rw [Table.get?_insert_of_ne _ _ (by simp)] at hget
    exact h.items _ _ _ hget
  · rw [Table.get?_insert] at hget
    split at hget
    · rename_i heq
      cases heq
      exact ⟨body, hused, rfl⟩
    · exact h.temporaries _ _ hget

section Changes

variable {place : Place} {id other : String} {file : ℕ}

/-- A new temporary file that may be completed claims its size, unless the item is in
quarantine. -/
theorem claims_link
    (hcomplete : (files file).synced = false ∨ bodyId sha256 (files file).data = id) :
    Claims sha256 files (entries.insert (.root, .temporary id) file) place other ↔
      Claims sha256 files entries place other ∨
        (place = .root ∧ other = id ∧ entries.get? (.quarantine, .item id) = none) := by
  constructor
  · rintro (hitem | ⟨hquarantine, found, hget, hfound⟩)
    · rw [Table.get?_insert_of_ne _ _ (by simp)] at hitem
      exact Or.inl (.item hitem)
    · rw [Table.get?_insert_of_ne _ _ (by simp)] at hquarantine
      by_cases heq : other = id
      · subst heq
        exact Or.inr ⟨rfl, rfl, hquarantine⟩
      · rw [Table.get?_insert_of_ne _ _ (by simp [heq])] at hget
        exact Or.inl (.promotable ⟨hquarantine, found, hget, hfound⟩)
  · have hnew : entries.get? (.quarantine, .item id) = none →
        Claims sha256 files (entries.insert (.root, .temporary id) file) .root id := by
      intro hquarantine
      refine .promotable ⟨?_, file, Table.get?_insert_self .., hcomplete⟩
      rw [Table.get?_insert_of_ne _ _ (by simp)]
      exact hquarantine
    rintro ((hitem | ⟨hquarantine, found, hget, hfound⟩) | ⟨rfl, rfl, hquarantine⟩)
    · refine .item ?_
      rw [Table.get?_insert_of_ne _ _ (by simp)]
      exact hitem
    · by_cases heq : other = id
      · subst heq
        exact hnew hquarantine
      · refine .promotable ⟨?_, found, ?_, hfound⟩
        · rw [Table.get?_insert_of_ne _ _ (by simp)]
          exact hquarantine
        · rw [Table.get?_insert_of_ne _ _ (by simp [heq])]
          exact hget
    · exact hnew hquarantine

/-- A promoted temporary file claims its size. -/
theorem claims_promote :
    Claims sha256 files ((entries.erase (.root, .temporary id)).insert (.root, .item id) file)
        place other ↔
      Claims sha256 files entries place other ∨ (place = .root ∧ other = id) := by
  have hquarantine : ∀ i, ((entries.erase (.root, .temporary id)).insert (.root, .item id)
      file).get? (.quarantine, .item i) = entries.get? (.quarantine, .item i) := by
    intro i
    rw [Table.get?_insert_of_ne _ _ (by simp), Table.get?_erase_of_ne _ (by simp)]
  constructor
  · rintro (hitem | ⟨hnone, found, hget, hfound⟩)
    · by_cases heq : place = .root ∧ other = id
      · exact Or.inr heq
      · rw [Table.get?_insert_of_ne _ _ (by simpa using heq), Table.get?_erase_of_ne _ (by simp)]
          at hitem
        exact Or.inl (.item hitem)
    · by_cases heq : other = id
      · exact Or.inr ⟨rfl, heq⟩
      · rw [Table.get?_insert_of_ne _ _ (by simp), Table.get?_erase_of_ne _ (by simp [heq])] at hget
        rw [hquarantine] at hnone
        exact Or.inl (.promotable ⟨hnone, found, hget, hfound⟩)
  · have hnew : Claims sha256 files ((entries.erase (.root, .temporary id)).insert
        (.root, .item id) file) .root id := .item (by rw [Table.get?_insert_self]; rfl)
    rintro ((hitem | ⟨hnone, found, hget, hfound⟩) | ⟨rfl, rfl⟩)
    · by_cases heq : place = .root ∧ other = id
      · obtain ⟨rfl, rfl⟩ := heq
        exact hnew
      · refine .item ?_
        rw [Table.get?_insert_of_ne _ _ (by simpa using heq), Table.get?_erase_of_ne _ (by simp)]
        exact hitem
    · by_cases heq : other = id
      · subst heq
        exact hnew
      · refine .promotable ⟨by rw [hquarantine]; exact hnone, found, ?_, hfound⟩
        rw [Table.get?_insert_of_ne _ _ (by simp), Table.get?_erase_of_ne _ (by simp [heq])]
        exact hget
    · exact hnew

/-- Nothing is claimed by removing a file from the root. -/
theorem claims_erase {name : Name} {other : String}
    (h : Claims sha256 files (entries.erase (.root, name)) place other) :
    Claims sha256 files entries place other := by
  have hget : ∀ {path found}, (entries.erase (.root, name)).get? path = some found →
      entries.get? path = some found := by
    intro path found hpath
    rw [Table.get?_erase] at hpath
    split at hpath
    · cases hpath
    · exact hpath
  rcases h with hitem | ⟨hnone, found, hfound, hcomplete⟩
  · obtain ⟨found, hfound⟩ := Option.isSome_iff_exists.mp hitem
    exact .item (by rw [hget hfound]; rfl)
  · rw [Table.get?_erase_of_ne _ (by simp)] at hnone
    exact .promotable ⟨hnone, found, hget hfound, hcomplete⟩

/-- An item that goes to the quarantine takes its claim along. -/
theorem claims_quarantine
    (h : Claims sha256 files ((entries.erase (.root, .item id)).insert (.quarantine, .item id) file)
      place other) :
    (place = .quarantine ∧ other = id) ∨
      (Claims sha256 files entries place other ∧ ¬(place = .root ∧ other = id)) := by
  rcases h with hitem | ⟨hnone, found, hget, hfound⟩
  · by_cases hmoved : place = .quarantine ∧ other = id
    · exact Or.inl hmoved
    · rw [Table.get?_insert_of_ne _ _ (by simpa using hmoved), Table.get?_erase] at hitem
      split at hitem
      · cases hitem
      · rename_i hne
        exact Or.inr ⟨.item hitem, by simpa using hne⟩
  · by_cases heq : other = id
    · subst heq
      rw [Table.get?_insert_self] at hnone
      cases hnone
    · rw [Table.get?_insert_of_ne _ _ (by simp [heq]), Table.get?_erase_of_ne _ (by simp)] at hnone
      rw [Table.get?_insert_of_ne _ _ (by simp), Table.get?_erase_of_ne _ (by simp)] at hget
      exact Or.inr ⟨.promotable ⟨hnone, found, hget, hfound⟩, fun hroot => heq hroot.2⟩

end Changes

/-! ### Files that change -/

theorem Sound.agree {files' : ℕ → File} {fresh' : ℕ} (h : Sound sha256 used files fresh entries)
    (hfiles : ∀ file < fresh, files' file = files file) (hfresh : fresh ≤ fresh') :
    Sound sha256 used files' fresh' entries where
  numbered path file hget := Nat.lt_of_lt_of_le (h.numbered path file hget) hfresh
  contents path file hget := by
    rw [hfiles file (h.numbered path file hget)]
    exact h.contents path file hget
  items place id file hget := by
    rw [hfiles file (h.numbered _ file hget)]
    exact h.items place id file hget
  temporaries := h.temporaries

/-- Claims do not depend on files that are not in use. -/
theorem Sound.claims_agree {files' : ℕ → File} (h : Sound sha256 used files fresh entries)
    (hfiles : ∀ file < fresh, files' file = files file) {place : Place} {id : String} :
    Claims sha256 files' entries place id ↔ Claims sha256 files entries place id := by
  have hsame : ∀ path file, entries.get? path = some file → files' file = files file :=
    fun path file hget => hfiles file (h.numbered path file hget)
  constructor
  · rintro (hitem | ⟨hnone, file, hget, hcomplete⟩)
    · exact .item hitem
    · rw [hsame _ _ hget] at hcomplete
      exact .promotable ⟨hnone, file, hget, hcomplete⟩
  · rintro (hitem | ⟨hnone, file, hget, hcomplete⟩)
    · exact .item hitem
    · rw [← hsame _ _ hget] at hcomplete
      exact .promotable ⟨hnone, file, hget, hcomplete⟩

end MongoDam.Spool
