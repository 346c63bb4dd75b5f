import MongoDam.Spool.Holdings

/-!
# Enqueuing when operations fail

Every way in which `enqueue` can end when its file operations may fail, and every state
of the disk on the way. A body is first written to a new temporary file. An error after
that leaves the temporary file behind; an error before leaves everything as it was.
-/

namespace MongoDam.Spool

open Lib FileSystem

/-! ### What listings give -/

/-- The statistics of a directory. -/
def statsAt (fs : Disk) (place : Place) : SpoolStats := (fs.listing place).foldl countEntry {}

/-- The pending items. -/
def itemsAt (fs : Disk) : List PendingItem := itemsOf (fs.listing .root)

private theorem saturatingAdd_right_comm (a b c : ℕ) :
    saturatingAdd (saturatingAdd a b) c = saturatingAdd (saturatingAdd a c) b := by
  unfold saturatingAdd
  omega

private theorem countEntry_comm (stats : SpoolStats) (first second : Name × ℕ) :
    countEntry (countEntry stats first) second = countEntry (countEntry stats second) first := by
  unfold countEntry
  cases first.1.itemId? with
  | none =>
    cases second.1.itemId? with
    | none => rfl
    | some other => rfl
  | some id =>
    cases second.1.itemId? with
    | none => rfl
    | some other =>
      exact SpoolStats.mk.injEq .. ▸ ⟨rfl, saturatingAdd_right_comm ..⟩

/-- The order of a listing does not matter for the statistics. -/
theorem statsAt_of_perm {fs : Disk} {place : Place} {names : List (Name × ℕ)}
    (h : names.Perm (fs.listing place)) : names.foldl countEntry {} = statsAt fs place :=
  h.foldl_eq' (fun first _ second _ stats => countEntry_comm stats first second) {}

/-- Only an item has an item id. -/
theorem eq_of_itemId? {name : Name} {id : String} (h : name.itemId? = some id) :
    name = .item id := by
  cases name with
  | temporary other => cases h
  | item other =>
    change (if other = "" then none else some other) = some id at h
    by_cases hempty : other = ""
    · rw [if_pos hempty] at h
      cases h
    · rw [if_neg hempty] at h
      rw [Option.some.inj h]

/-- Items are listed by increasing id. -/
theorem itemsOf_sorted (entries : List (Name × ℕ)) :
    (itemsOf entries).Pairwise fun left right => left.id ≤ right.id := by
  have hsorted : (itemsOf entries).Pairwise
      fun left right => decide (left.id ≤ right.id) = true := by
    refine List.pairwise_mergeSort ?_ ?_ _
    · intro first second third hfirst hsecond
      rw [decide_eq_true_iff] at hfirst hsecond ⊢
      exact String.le_trans hfirst hsecond
    · intro first second
      rw [Bool.or_eq_true, decide_eq_true_iff, decide_eq_true_iff]
      exact String.le_total ..
  exact hsorted.imp of_decide_eq_true

/-- An item is listed for each item file whose name is not only an extension. -/
theorem mem_itemsOf {entries : List (Name × ℕ)} {item : PendingItem} :
    item ∈ itemsOf entries ↔ item.id ≠ "" ∧ (Name.item item.id, item.bytes) ∈ entries := by
  unfold itemsOf
  rw [(List.mergeSort_perm ..).mem_iff, List.mem_filterMap]
  constructor
  · rintro ⟨⟨name, bytes⟩, hentry, hmap⟩
    obtain ⟨id, hid, rfl⟩ := Option.map_eq_some_iff.mp hmap
    have hname : name = .item id := eq_of_itemId? hid
    rw [hname] at hentry hid
    refine ⟨fun hempty => ?_, hentry⟩
    change (if id = "" then none else some id) = some id at hid
    rw [if_pos hempty] at hid
    cases hid
  · rintro ⟨hid, hentry⟩
    refine ⟨_, hentry, ?_⟩
    change (if item.id = "" then none else some item.id).map _ = some item
    rw [if_neg hid, Option.map_some]

/-- The order of a listing does not matter for the pending items. -/
theorem itemsAt_of_perm {fs : Disk} {names : List (Name × ℕ)}
    (h : names.Perm (fs.listing .root)) : itemsOf names = itemsAt fs := by
  refine List.Perm.eq_of_pairwise (fun first second hfirst hsecond hle hge => ?_)
    (itemsOf_sorted names) (itemsOf_sorted (fs.listing .root)) ?_
  · have hid : first.id = second.id := String.le_antisymm hle hge
    have hfirst := h.mem_iff.mp (mem_itemsOf.mp hfirst).2
    have hsecond := (mem_itemsOf.mp hsecond).2
    rw [hid] at hfirst
    have hbytes := List.inj_on_of_nodup_map (nodup_listing fs .root) hfirst hsecond rfl
    cases first
    cases second
    cases hid
    cases hbytes
    rfl
  · exact (List.mergeSort_perm ..).trans ((h.filterMap _).trans (List.mergeSort_perm ..).symm)

/-- An item is pending for each id under which something is held, the empty one apart. -/
theorem exists_mem_itemsAt {fs : Disk} {id : String} :
    (∃ item ∈ itemsAt fs, item.id = id) ↔ id ≠ "" ∧ (held fs .root id).isSome := by
  have hheld : (held fs .root id).isSome ↔ .item id ∈ (fs.listing .root).map Prod.fst := by
    rw [mem_listing]
    unfold held holdings
    rw [Option.isSome_map]
  rw [hheld, List.mem_map]
  constructor
  · rintro ⟨item, hitem, rfl⟩
    obtain ⟨hid, hentry⟩ := mem_itemsOf.mp hitem
    exact ⟨hid, _, hentry, rfl⟩
  · rintro ⟨hid, ⟨name, bytes⟩, hentry, rfl⟩
    exact ⟨{ id, bytes }, mem_itemsOf.mpr ⟨hid, hentry⟩, rfl⟩

/-- The ids of pending items are distinct. -/
theorem itemsAt_sorted (fs : Disk) :
    (itemsAt fs).Pairwise fun left right => left.id < right.id := by
  have hnodup : (itemsAt fs).Pairwise fun left right => left.id ≠ right.id := by
    have hlisting : (fs.listing .root).Pairwise fun left right => left.1 ≠ right.1 :=
      List.pairwise_map.mp (nodup_listing fs .root)
    refine (List.mergeSort_perm ..).symm.pairwise ?_ fun hne => hne.symm
    refine List.Pairwise.filterMap _ (fun first second hne left hleft right hright => ?_) hlisting
    obtain ⟨leftId, hleftId, rfl⟩ := Option.map_eq_some_iff.mp hleft
    obtain ⟨rightId, hrightId, rfl⟩ := Option.map_eq_some_iff.mp hright
    rintro rfl
    exact hne ((eq_of_itemId? hleftId).trans (eq_of_itemId? hrightId).symm)
  refine List.Pairwise.imp₂ (fun left right hle hne => ?_) (itemsOf_sorted _) hnodup
  exact lt_of_le_of_ne hle hne

/-! ### The disk while a body is stored -/

/-- The numbers of the files in use are less than that of the next file. -/
def Numbered (fs : Disk) : Prop :=
  ∀ path file, fs.entries.get? path = some file → file < fs.fresh

/-- A new temporary file has been created, and it is in some state. -/
def written (fs : Disk) (id : String) (state : File) : Disk :=
  { (fs.setFile fs.fresh state).change (.link (.root, .temporary id) fs.fresh) with
    fresh := fs.fresh + 1 }

/-- The temporary file was complete, and it was moved to its name. -/
def stored (fs : Disk) (id : String) (body : Bytes) : Disk :=
  (written fs id { data := body, synced := true }).change
    (.move (.root, .temporary id) (.root, .item id) fs.fresh)

variable {fs : Disk} {id : String} {body : Bytes} {state : File}

theorem createNew_written (habsent : fs.entries.get? (.root, .temporary id) = none) :
    fs.createNew (.root, .temporary id) =
      (.ok fs.fresh, written fs id { data := [], synced := false }) := by
  unfold createNew
  rw [habsent]
  rfl

theorem written_setFile (state' : File) :
    (written fs id state).setFile fs.fresh state' = written fs id state' := by
  unfold written FileSystem.setFile FileSystem.change
  congr 1
  funext file
  by_cases h : file = fs.fresh
  · simp [h]
  · simp [h]

@[simp] theorem written_files : (written fs id state).files fs.fresh = state :=
  setFile_files ..

@[simp] theorem written_entries :
    (written fs id state).entries = fs.entries.insert (.root, .temporary id) fs.fresh := rfl

theorem written_files_of_lt {file : ℕ} (h : file < fs.fresh) :
    (written fs id state).files file = fs.files file :=
  setFile_files_ne _ _ (Nat.ne_of_lt h)

theorem rename_written (body : Bytes) :
    (written fs id { data := body, synced := true }).rename (.root, .temporary id)
      (.root, .item id) = (.ok (), stored fs id body) := by
  unfold rename
  rw [written_entries, Table.get?_insert_self]
  rfl

/-- What the disk refers to does not depend on files that are not in use. -/
theorem Numbered.holdings_written (h : Numbered fs) :
    holdings (written fs id state).files fs.entries = held fs := by
  funext place other
  unfold held holdings
  cases hget : fs.entries.get? (place, .item other) with
  | none => rfl
  | some file => rw [Option.map_some, Option.map_some, written_files_of_lt (h _ _ hget)]

/-- A temporary file is not held. -/
theorem Numbered.held_written (h : Numbered fs) : held (written fs id state) = held fs := by
  unfold held
  rw [written_entries, holdings_insert_temporary]
  exact h.holdings_written

theorem Numbered.held_stored (h : Numbered fs) :
    held (stored fs id body) = (held fs).set .root id (some body) := by
  change holdings (written fs id _).files (((written fs id _).entries.erase _).insert _ _) = _
  rw [holdings_insert_item, holdings_erase_temporary, written_entries, holdings_insert_temporary,
    h.holdings_written, written_files]

/-! ### Every way to enqueue a body -/

/-- The body does not fit beside what the directories hold. -/
def Exceeds (maxBytes : ℕ) (fs : Disk) (body : Bytes) : Prop :=
  maxBytes < saturatingAdd (saturatingAdd (statsAt fs .root).bytes (statsAt fs .quarantine).bytes)
    body.length

instance (maxBytes : ℕ) (fs : Disk) (body : Bytes) : Decidable (Exceeds maxBytes fs body) :=
  inferInstanceAs (Decidable (_ < _))

/-- The states of a disk while a body is enqueued. -/
inductive Partway (fs : Disk) (id : String) (body : Bytes) : Disk → Prop
  | unchanged : Partway fs id body fs
  | written {state : File} (hdata : state.data = body ∨ state.synced = false) :
      Partway fs id body (written fs id state)
  | stored : Partway fs id body (stored fs id body)
  | synced : Partway fs id body ((stored fs id body).syncDir .root)

section Outcomes

variable (faults : FileOp Place Name → Prop) (sha256 : Digest32) (maxBytes : ℕ) (body : Bytes)

/-- How storing a body under an id can end. -/
inductive StoreOutcome (fs : Disk) (id : String) (body : Bytes) :
    Except SpoolError String → Disk → Prop
  | occupied : fs.entries.get? (.root, .temporary id) ≠ none →
      StoreOutcome fs id body (.error (.io .alreadyExists)) fs
  | uncreated {e : IoError} : faults (.createNew (.root, .temporary id)) →
      StoreOutcome fs id body (.error (.io e)) fs
  | unwritten {e : IoError} {count : ℕ} : fs.entries.get? (.root, .temporary id) = none →
      faults (.writeAll fs.fresh body) →
      StoreOutcome fs id body (.error (.io e))
        (written fs id { data := body.take count, synced := false })
  | unsynced {e : IoError} : fs.entries.get? (.root, .temporary id) = none →
      faults (.syncFile fs.fresh) →
      StoreOutcome fs id body (.error (.io e)) (written fs id { data := body, synced := false })
  | unmoved {e : IoError} : fs.entries.get? (.root, .temporary id) = none →
      faults (.rename (.root, .temporary id) (.root, .item id)) →
      StoreOutcome fs id body (.error (.io e)) (written fs id { data := body, synced := true })
  | undurable {e : IoError} : fs.entries.get? (.root, .temporary id) = none →
      faults (.syncDir .root) → StoreOutcome fs id body (.error (.io e)) (stored fs id body)
  | done : fs.entries.get? (.root, .temporary id) = none →
      StoreOutcome fs id body (.ok id) ((stored fs id body).syncDir .root)

end Outcomes

variable {faults : FileOp Place Name → Prop}

/-- An operation that succeeds, or fails where faults allow it. -/
private theorem ensures_faulty {op : FileOp Place Name} {f : op.Value → Action β}
    {I : Disk → Prop} {Q : Except SpoolError β → Disk → Prop}
    (hexec : ∀ result fs', Exec op fs result fs' → I fs' ∧ match result with
      | .ok value => (f value).Ensures (ExecWith faults) I Q fs'
      | .error e => Q (.error (.io e)) fs')
    (hfails : ∀ e fs', faults op → Fails op fs (.error e) fs' → I fs' ∧ Q (.error (.io e)) fs') :
    (io op >>= f).Ensures (ExecWith faults) I Q fs := by
  refine ensures_io_bind fun result fs' hstep => ?_
  rcases hstep with hdone | ⟨hfault, hfailed⟩
  · exact hexec result fs' hdone
  · have herror : ∃ e, result = .error e := by
      cases op <;> obtain ⟨e, h⟩ := hfailed
      all_goals first
        | exact ⟨e, h.1⟩
        | exact ⟨e, h.choose_spec.1⟩
    obtain ⟨e, rfl⟩ := herror
    exact hfails e fs' hfault hfailed

/-- Storing a body under an id, with faults. -/
theorem store_outcome :
    (store id body).Ensures (ExecWith faults) (Partway fs id body)
      (StoreOutcome faults fs id body) fs := by
  refine ensures_faulty (fun result created hexec => ?_) fun e fs' hfault hfailed => ?_
  swap
  · obtain ⟨-, -, rfl⟩ := hfailed
    exact ⟨.unchanged, .uncreated hfault⟩
  change (result, created) = fs.createNew (.root, .temporary id) at hexec
  cases habsent : fs.entries.get? (.root, .temporary id) with
  | some file =>
    unfold createNew at hexec
    rw [habsent] at hexec
    cases hexec
    exact ⟨.unchanged, .occupied (by rw [habsent]; nofun)⟩
  | none =>
    rw [createNew_written habsent] at hexec
    cases hexec
    refine ⟨.written (Or.inr rfl), ?_⟩
    refine ensures_faulty (fun result wrote hexec => ?_) fun e fs' hfault hfailed => ?_
    swap
    · obtain ⟨e', count, he, rfl⟩ := hfailed
      cases he
      rw [written_setFile]
      exact ⟨.written (Or.inr rfl), .unwritten habsent hfault⟩
    obtain ⟨rfl, rfl⟩ := hexec
    rw [written_setFile]
    refine ⟨.written (Or.inl rfl), ?_⟩
    refine ensures_faulty (fun result synced hexec => ?_) fun e fs' hfault hfailed => ?_
    swap
    · obtain ⟨-, -, rfl⟩ := hfailed
      exact ⟨.written (Or.inl rfl), .unsynced habsent hfault⟩
    obtain ⟨rfl, rfl⟩ := hexec
    rw [written_files, written_setFile]
    refine ⟨.written (Or.inl rfl), ?_⟩
    refine ensures_faulty (fun result moved hexec => ?_) fun e fs' hfault hfailed => ?_
    swap
    · obtain ⟨-, -, rfl⟩ := hfailed
      exact ⟨.written (Or.inl rfl), .unmoved habsent hfault⟩
    change (result, moved) = _ at hexec
    obtain ⟨rfl, rfl⟩ := Prod.mk.inj (hexec.trans (rename_written body))
    refine ⟨.stored, ?_⟩
    refine ensures_faulty (fun result ended hexec => ?_) fun e fs' hfault hfailed => ?_
    swap
    · obtain ⟨-, -, rfl⟩ := hfailed
      exact ⟨.stored, .undurable habsent hfault⟩
    obtain ⟨rfl, rfl⟩ := hexec
    exact ⟨.synced, ensures_pure (.done habsent)⟩

/-- An item is absent, or looking for it may fail. -/
def Unseen (faults : FileOp Place Name → Prop) (fs : Disk) (place : Place) (id : String) : Prop :=
  held fs place id = none ∨ faults (.metadata (place, .item id))

/-- How enqueuing a body can end. -/
inductive EnqueueOutcome (faults : FileOp Place Name → Prop) (sha256 : Digest32) (maxBytes : ℕ)
    (fs : Disk) (body : Bytes) : Except SpoolError String → Disk → Prop
  | kept : (held fs).Has (bodyId sha256 body) →
      EnqueueOutcome faults sha256 maxBytes fs body (.ok (bodyId sha256 body)) fs
  | unlisted {e : IoError} {place : Place} : faults (.readDir place) →
      EnqueueOutcome faults sha256 maxBytes fs body (.error (.io e)) fs
  | full {currentBytes : ℕ} : (∀ place, Unseen faults fs place (bodyId sha256 body)) →
      Exceeds maxBytes fs body →
      EnqueueOutcome faults sha256 maxBytes fs body
        (.error (.capacityExceeded currentBytes body.length maxBytes)) fs
  | stored {result : Except SpoolError String} {fs' : Disk} :
      (∀ place, Unseen faults fs place (bodyId sha256 body)) → ¬Exceeds maxBytes fs body →
      StoreOutcome faults fs (bodyId sha256 body) body result fs' →
      EnqueueOutcome faults sha256 maxBytes fs body result fs'

private theorem ensures_exists_faulty {place : Place} {f : Bool → Action β} {I : Disk → Prop}
    {Q : Except SpoolError β → Disk → Prop} (hinvariant : I fs)
    (hpresent : (held fs place id).isSome → (f true).Ensures (ExecWith faults) I Q fs)
    (habsent : Unseen faults fs place id → (f false).Ensures (ExecWith faults) I Q fs) :
    (pathExists (place, .item id) >>= f).Ensures (ExecWith faults) I Q fs := by
  refine ensures_pathExists_bind fun result fs' hstep => ?_
  rcases hstep with ⟨rfl, rfl⟩ | ⟨hfault, e, rfl, rfl⟩
  · refine ⟨hinvariant, ?_⟩
    change (f ((held fs' place id).elim (.error .notFound) fun data => .ok data.length :
      Except IoError ℕ).isOk).Ensures _ _ _ _
    cases hheld : held fs' place id with
    | none => exact habsent (Or.inl hheld)
    | some data => exact hpresent (by rw [hheld]; rfl)
  · exact ⟨hinvariant, habsent (Or.inr hfault)⟩

private theorem ensures_directoryStats_faulty {place : Place} {f : SpoolStats → Action β}
    {I : Disk → Prop} {Q : Except SpoolError β → Disk → Prop} (hinvariant : I fs)
    (hstats : (f (statsAt fs place)).Ensures (ExecWith faults) I Q fs)
    (hfails : ∀ e, faults (.readDir place) → Q (.error (.io e)) fs) :
    (directoryStats place >>= f).Ensures (ExecWith faults) I Q fs := by
  refine ensures_bind (ensures_faulty (fun result fs' hexec => ?_) fun e fs' hfault hfailed => ?_)
  · obtain ⟨rfl, names, hperm, rfl⟩ := hexec
    refine ⟨hinvariant, ensures_pure ?_⟩
    rw [statsAt_of_perm hperm]
    exact hstats
  · obtain ⟨-, -, rfl⟩ := hfailed
    exact ⟨hinvariant, hfails e hfault⟩

/-- Enqueuing a body, with faults. -/
theorem enqueue_outcome (sha256 : Digest32) (maxBytes : ℕ) :
    (enqueue sha256 maxBytes body).Ensures (ExecWith faults)
      (Partway fs (bodyId sha256 body) body)
        (EnqueueOutcome faults sha256 maxBytes fs body) fs := by
  refine ensures_exists_faulty .unchanged (fun hroot => ?_) fun hroot => ?_
  · exact ensures_pure (.kept (Or.inl hroot))
  refine ensures_exists_faulty .unchanged (fun hquarantine => ?_) fun hquarantine => ?_
  · exact ensures_pure (.kept (Or.inr hquarantine))
  have hunseen : ∀ place, Unseen faults fs place (bodyId sha256 body) := by
    intro place
    cases place with
    | root => exact hroot
    | quarantine => exact hquarantine
  refine ensures_directoryStats_faulty .unchanged ?_ fun e hfault => .unlisted hfault
  refine ensures_directoryStats_faulty .unchanged ?_ fun e hfault => .unlisted hfault
  dsimp only
  split
  · rename_i hfull
    exact ensures_fail (.full hunseen hfull)
  · rename_i hfits
    exact store_outcome.mono (fun _ h => h) fun _ _ houtcome => .stored hunseen hfits houtcome

end MongoDam.Spool
