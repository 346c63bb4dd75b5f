import MongoDam.Spool.Holdings

/-!
# What each call of the spool does

One statement for each call, for a call that starts when everything is durable and
whose operations do not fail. While the call runs, a crash leaves the holdings as
they were before it or as they are after it; when it returns, everything is durable
again. Recovery may in addition keep complete temporary files as items.
-/

namespace MongoDam.Spool

open Lib FileSystem

variable {used : Bytes → Prop} {fs fs' : Disk} {allowed : Holdings → Prop} {sha256 : Digest32}

/-- The holdings are one of two. -/
def OneOf (before after : Holdings) (held : Holdings) : Prop := held = before ∨ held = after

/-! ### Reading -/

theorem ensures_exists {path : Place × Name} {f : Bool → Action β} {I : Disk → Prop}
    {Q : Except SpoolError β → Disk → Prop} (hinvariant : I fs)
    (h : (f (fs.dataAt path).isSome).Ensures Exec I Q fs) :
    (pathExists path >>= f).Ensures Exec I Q fs := by
  refine ensures_pathExists_bind fun result s' hexec => ?_
  obtain ⟨rfl, rfl⟩ := hexec
  refine ⟨hinvariant, ?_⟩
  have hresult : ((s'.dataAt path).elim (.error .notFound) fun data => .ok data.length :
      Except IoError ℕ).isOk = (s'.dataAt path).isSome := by
    cases s'.dataAt path <;> rfl
  rw [hresult]
  exact h

theorem ensures_readDir {place : Place} {f : List (Name × ℕ) → Action β} {I : Disk → Prop}
    {Q : Except SpoolError β → Disk → Prop} (hinvariant : I fs)
    (h : ∀ names, names.Perm (fs.listing place) → (f names).Ensures Exec I Q fs) :
    (io (.readDir place) >>= f).Ensures Exec I Q fs := by
  refine ensures_io_bind fun result s' hexec => ?_
  obtain ⟨rfl, names, hperm, rfl⟩ := hexec
  exact ⟨hinvariant, h names hperm⟩

theorem ensures_directoryStats {place : Place} {f : SpoolStats → Action β} {I : Disk → Prop}
    {Q : Except SpoolError β → Disk → Prop} (hinvariant : I fs)
    (h : ∀ stats, (f stats).Ensures Exec I Q fs) :
    (directoryStats place >>= f).Ensures Exec I Q fs :=
  ensures_bind (ensures_readDir hinvariant fun _ _ => ensures_pure (h _))

private theorem dataAt_item (fs : Disk) (place : Place) (id : String) :
    fs.dataAt (place, .item id) = held fs place id := rfl

/-! ### Storing a body -/

/-- A new temporary file has been created since `fs`, and nothing else has changed. -/
structure Writing (fs fs' : Disk) (id : String) : Prop where
  entries : fs'.entries = fs.entries.insert (.root, .temporary id) fs.fresh
  durable : fs'.durable = fs.entries
  unsynced : fs'.unsynced = [.link (.root, .temporary id) fs.fresh]
  fresh : fs'.fresh = fs.fresh + 1
  files : ∀ file < fs.fresh, fs'.files file = fs.files file

theorem Writing.setFile {id : String} (h : Writing fs fs' id) (state : File) :
    Writing fs (fs'.setFile fs.fresh state) id where
  entries := h.entries
  durable := h.durable
  unsynced := h.unsynced
  fresh := h.fresh
  files file hfile := by
    rw [setFile_files_ne _ _ (Nat.ne_of_lt hfile)]
    exact h.files file hfile

theorem Writing.safe {id : String} (hsettled : Settled used fs) (hallowed : allowed (held fs))
    (h : Writing fs fs' id) (hclean : Clean used fs') : Safe used allowed fs' := by
  have hdurable : Stored allowed fs'.files fs'.fresh fs.entries :=
    (hsettled.stored hallowed).agree h.files (by rw [h.fresh]; omega)
  have hfresh : fs.fresh < fs'.fresh := by
    rw [h.fresh]
    omega
  refine ⟨⟨?_, h.durable ▸ hdurable, fun change hchange entries hentries => ?_⟩, hclean⟩
  · rw [h.entries]
    exact hdurable.link_temporary id hfresh
  · rw [h.unsynced, List.mem_singleton] at hchange
    rw [hchange]
    exact hentries.link_temporary id hfresh

private theorem createNew_writing {id : String} {result : Except IoError ℕ}
    (hsettled : Settled used fs)
    (h : (result, fs') = fs.createNew (.root, .temporary id)) :
    (result = .error .alreadyExists ∧ fs' = fs) ∨
      (result = .ok fs.fresh ∧ Writing fs fs' id ∧ Clean used fs') := by
  unfold createNew at h
  split at h
  · cases h
    exact Or.inl ⟨rfl, rfl⟩
  · cases h
    refine Or.inr ⟨rfl, ⟨rfl, hsettled.durable, ?_, rfl, fun file hfile => ?_⟩,
      hsettled.clean.setFile nofun⟩
    · change fs.unsynced ++ _ = _
      rw [hsettled.unsynced]
      rfl
    · exact setFile_files_ne _ _ (Nat.ne_of_lt hfile)

/-- The temporary file is complete: moving it to its name is safe. -/
private theorem Writing.moved_safe {id : String} {body : Bytes} (hsettled : Settled used fs)
    (h : Writing fs fs' id) (hclean : Clean used fs')
    (hfile : fs'.files fs.fresh = { data := body, synced := true }) :
    Safe used (OneOf (held fs) ((held fs).set .root id (some body)))
      (fs'.change (.move (.root, .temporary id) (.root, .item id) fs.fresh)) := by
  have hfresh : fs.fresh < fs'.fresh := by
    rw [h.fresh]
    omega
  refine Safe.change (h.safe hsettled (Or.inl rfl) hclean) fun entries hentries => ?_
  refine hentries.move_temporary hfresh (by rw [hfile]) fun held hheld => ?_
  rw [hfile]
  rcases hheld with rfl | rfl
  · exact Or.inr rfl
  · exact Or.inr (Holdings.set_set ..)

/-- Syncing the root then stores the body. -/
private theorem Writing.moved_settled {id : String} {body : Bytes} (hsettled : Settled used fs)
    (h : Writing fs fs' id) (hclean : Clean used fs')
    (hfile : fs'.files fs.fresh = { data := body, synced := true }) :
    let moved := fs'.change (.move (.root, .temporary id) (.root, .item id) fs.fresh)
    Settled used (moved.syncDir .root) ∧
      held (moved.syncDir .root) = (held fs).set .root id (some body) := by
  intro moved
  constructor
  · refine settled_syncDir (Consistent.change ?_ _) ?_ ?_ hclean
    · unfold Consistent
      rw [h.entries, h.unsynced, h.durable]
      rfl
    · intro change hchange
      change change ∈ fs'.unsynced ++ _ at hchange
      rw [h.unsynced] at hchange
      rcases List.mem_pair.mp hchange with rfl | rfl
      · simp [Change.touches]
      · simp [Change.touches]
    · intro path file hget
      change Table.get? (Table.insert (Table.erase fs'.entries _) _ _) path = some file at hget
      change file < fs'.fresh ∧ (fs'.files file).synced = true
      rw [h.entries, Table.get?_insert] at hget
      rw [h.fresh]
      split at hget
      · cases hget
        exact ⟨Nat.lt_succ_self _, by rw [hfile]⟩
      · rw [Table.get?_erase] at hget
        split at hget
        · cases hget
        · rename_i hne
          rw [Table.get?_insert_of_ne _ _ hne] at hget
          obtain ⟨hlt, hsynced⟩ := hsettled.files path file hget
          exact ⟨Nat.lt_succ_of_lt hlt, h.files file hlt ▸ hsynced⟩
  · change holdings fs'.files (Table.insert (Table.erase fs'.entries _) _ _) = _
    rw [holdings_insert_item, holdings_erase_temporary, h.entries, holdings_insert_temporary,
      hsettled.firm.holdings_eq h.files, hfile]
    rfl

/-- Storing a body under an id that is free. -/
private theorem store_ensures {id : String} {body : Bytes} (hused : used body)
    (hsettled : Settled used fs) :
    (store id body).Ensures Exec
      (Safe used (OneOf (held fs) ((held fs).set .root id (some body))))
      (fun result fs' => Settled used fs' ∧ match result with
        | .ok stored => stored = id ∧ held fs' = (held fs).set .root id (some body)
        | .error _ => held fs' = held fs) fs := by
  refine ensures_io_bind fun result created hexec => ?_
  rcases createNew_writing hsettled hexec with ⟨rfl, rfl⟩ | ⟨rfl, hwriting, hclean⟩
  · exact ⟨hsettled.safe (Or.inl rfl), hsettled, rfl⟩
  refine ⟨hwriting.safe hsettled (Or.inl rfl) hclean, ?_⟩
  refine ensures_io_bind fun result written hexec => ?_
  obtain ⟨rfl, rfl⟩ := hexec
  have hwritten := hwriting.setFile { data := body, synced := false }
  have hclean := @Clean.setFile _ _ hclean fs.fresh { data := body, synced := false } nofun
  refine ⟨hwritten.safe hsettled (Or.inl rfl) hclean, ?_⟩
  refine ensures_io_bind fun result synced hexec => ?_
  obtain ⟨rfl, rfl⟩ := hexec
  have hsynced := hwritten.setFile
    { data := ((created.setFile fs.fresh { data := body, synced := false }).files fs.fresh).data
      synced := true }
  have hclean := @Clean.setFile _ _ hclean fs.fresh
    { data := ((created.setFile fs.fresh { data := body, synced := false }).files fs.fresh).data
      synced := true } (fun _ => by rw [setFile_files]; exact hused)
  refine ⟨hsynced.safe hsettled (Or.inl rfl) hclean, ?_⟩
  have hfile : (((created.setFile fs.fresh { data := body, synced := false }).setFile fs.fresh
      { data := ((created.setFile fs.fresh { data := body, synced := false }).files fs.fresh).data
        synced := true }).files fs.fresh) = { data := body, synced := true } := by
    rw [setFile_files, setFile_files]
  generalize (created.setFile fs.fresh { data := body, synced := false }).setFile fs.fresh
    { data := ((created.setFile fs.fresh { data := body, synced := false }).files fs.fresh).data
      synced := true } = complete at hsynced hclean hfile ⊢
  refine ensures_io_bind fun result moved hexec => ?_
  have hrename : complete.rename (.root, .temporary id) (.root, .item id) =
      (.ok (), complete.change (.move (.root, .temporary id) (.root, .item id) fs.fresh)) := by
    unfold rename
    rw [hsynced.entries, Table.get?_insert_self]
  obtain ⟨rfl, rfl⟩ := Prod.mk.inj (Eq.trans hexec hrename)
  refine ⟨hsynced.moved_safe hsettled hclean hfile, ?_⟩
  refine ensures_io_bind fun result ended hexec => ?_
  obtain ⟨rfl, rfl⟩ := hexec
  obtain ⟨hsettled', hheld⟩ := hsynced.moved_settled hsettled hclean hfile
  exact ⟨hsettled'.safe (Or.inr hheld), hsettled', rfl, hheld⟩

theorem enqueue_ensures (sha256 : Digest32) (maxBytes : ℕ) {body : Bytes} (hused : used body)
    (hsettled : Settled used fs) :
    (enqueue sha256 maxBytes body).Ensures Exec
      (Safe used (OneOf (held fs) ((held fs).enqueue sha256 body)))
      (fun result fs' => Settled used fs' ∧ match result with
        | .ok id => id = bodyId sha256 body ∧ held fs' = (held fs).enqueue sha256 body
        | .error _ => held fs' = held fs) fs := by
  have hsafe : Safe used (OneOf (held fs) ((held fs).enqueue sha256 body)) fs :=
    hsettled.safe (Or.inl rfl)
  refine ensures_exists hsafe ?_
  rw [dataAt_item]
  split
  · rename_i hroot
    have hhas : (held fs).Has (bodyId sha256 body) := Or.inl hroot
    exact ensures_pure ⟨hsettled, rfl, (if_pos hhas).symm⟩
  refine ensures_exists hsafe ?_
  rw [dataAt_item]
  split
  · rename_i hquarantine
    have hhas : (held fs).Has (bodyId sha256 body) := Or.inr hquarantine
    exact ensures_pure ⟨hsettled, rfl, (if_pos hhas).symm⟩
  rename_i hroot hquarantine
  have hhas : ¬(held fs).Has (bodyId sha256 body) := by
    rintro (h | h)
    · exact hroot h
    · exact hquarantine h
  refine ensures_directoryStats hsafe fun pending => ?_
  refine ensures_directoryStats hsafe fun quarantined => ?_
  dsimp only
  split
  · exact ensures_fail ⟨hsettled, rfl⟩
  · have henqueue : (held fs).enqueue sha256 body =
        (held fs).set .root (bodyId sha256 body) (some body) := if_neg hhas
    rw [henqueue]
    exact store_ensures hused hsettled

/-! ### Removing and moving items -/

/-- One change of the entries that concerns the root, made durable by syncing it. -/
private theorem settled_change {change : Change (Place × Name)} (hsettled : Settled used fs)
    (htouches : change.touches Place.root)
    (hfiles : ∀ path file, (change.apply fs.entries).get? path = some file →
      file < fs.fresh ∧ (fs.files file).synced = true) :
    Settled used ((fs.change change).syncDir .root) := by
  refine settled_syncDir (Consistent.change ?_ _) ?_ hfiles hsettled.clean
  · unfold Consistent
    rw [hsettled.unsynced, hsettled.durable]
    rfl
  · intro other hother
    rw [change_unsynced, hsettled.unsynced, List.nil_append, List.mem_singleton] at hother
    rw [hother]
    exact htouches

theorem acknowledge_ensures (item : PendingItem) (hsettled : Settled used fs) :
    (acknowledge item).Ensures Exec
      (Safe used (OneOf (held fs) ((held fs).acknowledge item.id)))
      (fun result fs' => result = .ok () ∧ Settled used fs' ∧
        held fs' = (held fs).acknowledge item.id) fs := by
  have hsafe : Safe used (OneOf (held fs) ((held fs).acknowledge item.id)) fs :=
    hsettled.safe (Or.inl rfl)
  refine ensures_attempt_bind fun result removed hexec => ?_
  change (result, removed) = fs.removeFile item.path at hexec
  unfold removeFile at hexec
  split at hexec
  · rename_i hget
    cases hexec
    have habsent : held fs .root item.id = none := by
      unfold held holdings
      rw [show fs.entries.get? (.root, .item item.id) = none from hget, Option.map_none]
    exact ⟨hsafe, ensures_pure ⟨rfl, hsettled, (Holdings.set_of_eq habsent).symm⟩⟩
  · cases hexec
    have hremoved : Safe used (OneOf (held fs) ((held fs).acknowledge item.id))
        (fs.change (.unlink item.path)) := by
      refine hsafe.change fun entries hentries => hentries.unlink_item ?_
      rintro held (rfl | rfl)
      · exact Or.inr rfl
      · exact Or.inr (Holdings.set_set ..)
    refine ⟨hremoved, ensures_io fun result synced hexec => ?_⟩
    obtain ⟨rfl, rfl⟩ := hexec
    have hsettled' : Settled used ((fs.change (.unlink item.path)).syncDir .root) := by
      refine settled_change hsettled (by simp [Change.touches, PendingItem.path]) ?_
      intro path file hget
      change (fs.entries.erase item.path).get? path = some file at hget
      rw [Table.get?_erase] at hget
      split at hget
      · cases hget
      · exact hsettled.files path file hget
    have hheld : held ((fs.change (.unlink item.path)).syncDir .root) =
        (held fs).acknowledge item.id := holdings_erase_item ..
    exact ⟨hsettled'.safe (Or.inr hheld), rfl, hsettled', hheld⟩

theorem quarantine_ensures (item : PendingItem) (hsettled : Settled used fs) :
    (quarantine item).Ensures Exec
      (Safe used (OneOf (held fs) ((held fs).quarantine item.id)))
      (fun result fs' => Settled used fs' ∧ held fs' = (held fs).quarantine item.id ∧
        (result = .ok () ∨ held fs = (held fs).quarantine item.id)) fs := by
  have hsafe : Safe used (OneOf (held fs) ((held fs).quarantine item.id)) fs :=
    hsettled.safe (Or.inl rfl)
  refine ensures_exists hsafe ?_
  rw [dataAt_item]
  split
  · rename_i hexists
    obtain ⟨body, hbody⟩ := Option.isSome_iff_exists.mp hexists
    have heffect : (held fs).quarantine item.id = (held fs).acknowledge item.id := by
      rw [Holdings.quarantine, hbody]
    rw [heffect]
    refine (acknowledge_ensures item hsettled).mono (fun _ => id) ?_
    rintro result fs' ⟨hresult, hsettled', hheld⟩
    exact ⟨hsettled', hheld, Or.inl hresult⟩
  rename_i hexists
  have hnone : held fs .quarantine item.id = none := by simpa using hexists
  refine ensures_attempt_bind fun result renamed hexec => ?_
  change (result, renamed) = fs.rename item.path (.quarantine, .item item.id) at hexec
  unfold rename at hexec
  split at hexec
  · rename_i hget
    cases hexec
    have habsent : held fs .root item.id = none := by
      unfold held holdings
      rw [show fs.entries.get? (.root, .item item.id) = none from hget, Option.map_none]
    have heffect : (held fs).quarantine item.id = held fs := by
      rw [Holdings.quarantine, hnone, habsent]
    refine ⟨hsafe, ensures_exists hsafe ?_⟩
    rw [dataAt_item, hnone]
    exact ensures_fail ⟨hsettled, heffect.symm, Or.inr heffect.symm⟩
  · rename_i file hget
    cases hexec
    have hget : fs.entries.get? (.root, .item item.id) = some file := hget
    obtain ⟨hfresh, hsynced⟩ := hsettled.files _ _ hget
    have hroot : held fs .root item.id = some (fs.files file).data := by
      unfold held holdings
      rw [hget, Option.map_some]
    have heffect : (held fs).quarantine item.id = ((held fs).set .root item.id none).set
        .quarantine item.id (some (fs.files file).data) := by
      rw [Holdings.quarantine, hnone, hroot]
    rw [heffect] at hsafe ⊢
    have hmoved : Safe used (OneOf (held fs) (((held fs).set .root item.id none).set
        .quarantine item.id (some (fs.files file).data)))
        (fs.change (.move item.path (.quarantine, .item item.id) file)) := by
      refine hsafe.change fun entries hentries =>
        hentries.move_item hfresh hsynced ?_
      rintro held (rfl | rfl)
      · exact Or.inr rfl
      · exact Or.inr (Holdings.move_move ..)
    have hsettled' : Settled used ((fs.change (.move item.path (.quarantine, .item item.id)
        file)).syncDir .root) := by
      refine settled_change hsettled (by simp [Change.touches, PendingItem.path]) ?_
      intro path other hother
      change ((fs.entries.erase item.path).insert _ _).get? path = some other at hother
      rw [Table.get?_insert, Table.get?_erase] at hother
      split at hother
      · cases hother
        exact ⟨hfresh, hsynced⟩
      · split at hother
        · cases hother
        · exact hsettled.files path other hother
    have hheld : held ((fs.change (.move item.path (.quarantine, .item item.id) file)).syncDir
        .root) = ((held fs).set .root item.id none).set .quarantine item.id
          (some (fs.files file).data) := by
      change holdings fs.files ((fs.entries.erase (.root, .item item.id)).insert _ _) = _
      rw [holdings_insert_item, holdings_erase_item]
      rfl
    refine ⟨hmoved, ensures_io_bind fun result synced hexec => ?_⟩
    obtain ⟨rfl, rfl⟩ := hexec
    refine ⟨hsettled'.safe (Or.inr hheld), ensures_io fun result ended hexec => ?_⟩
    obtain ⟨rfl, rfl⟩ := hexec
    have hagain := hsettled'.syncDir .quarantine
    exact ⟨hagain.safe (Or.inr hheld), hagain, hheld, Or.inl rfl⟩

/-! ### Recovery -/

/-- Recovery is under way since `start`. -/
structure Recovering (sha256 : Digest32) (used : Bytes → Prop) (start fs : Disk) : Prop where
  files : fs.files = start.files
  fresh : fs.fresh = start.fresh
  consistent : fs.Consistent
  touches : ∀ change ∈ fs.unsynced, change.touches Place.root
  safe : Safe used (Holdings.Recovered sha256 used (held start)) fs
  numbered : ∀ path file, fs.entries.get? path = some file →
    file < fs.fresh ∧ (fs.files file).synced = true

variable {start : Disk}

private theorem Settled.recovering (h : Settled used start) :
    Recovering sha256 used start start where
  files := rfl
  fresh := rfl
  consistent := by
    unfold Consistent
    rw [h.unsynced, h.durable]
    rfl
  touches change hchange := by
    rw [h.unsynced] at hchange
    cases hchange
  safe := h.safe (Holdings.Recovered.refl ..)
  numbered := h.files

private theorem Recovering.change {change : Change (Place × Name)}
    (h : Recovering sha256 used start fs) (htouches : change.touches Place.root)
    (hkeeps : ∀ entries,
      Stored (Holdings.Recovered sha256 used (held start)) fs.files fs.fresh entries →
      Stored (Holdings.Recovered sha256 used (held start)) fs.files fs.fresh (change.apply entries))
    (hnumbered : ∀ path file, (change.apply fs.entries).get? path = some file →
      file < fs.fresh ∧ (fs.files file).synced = true) :
    Recovering sha256 used start (fs.change change) where
  files := h.files
  fresh := h.fresh
  consistent := h.consistent.change change
  touches other hother := by
    rcases List.mem_append.mp hother with hmem | hmem
    · exact h.touches other hmem
    · rw [List.mem_singleton.mp hmem]
      exact htouches
  safe := h.safe.change hkeeps
  numbered := hnumbered

private theorem Recovering.unlink (h : Recovering sha256 used start fs) (id : String) :
    Recovering sha256 used start (fs.change (.unlink (.root, .temporary id))) := by
  refine h.change (by simp [Change.touches]) (fun _ hentries => hentries.unlink_temporary id) ?_
  intro path file hget
  change (fs.entries.erase _).get? path = some file at hget
  rw [Table.get?_erase] at hget
  split at hget
  · cases hget
  · exact h.numbered path file hget

/-- Nothing was held under an id before when nothing is held under it now. -/
private theorem Recovering.not_has {id : String} (h : Recovering sha256 used start fs)
    (hroot : ¬(held fs .root id).isSome = true)
    (hquarantine : ¬(held fs .quarantine id).isSome = true) :
    ¬(held start).Has id := by
  have hrecovered := h.safe.held
  rintro (hhas | hhas)
  · rcases hrecovered.root id with heq | ⟨habsent, -⟩
    · rw [heq] at hroot
      exact hroot hhas
    · exact habsent (Or.inl hhas)
  · rw [hrecovered.quarantine] at hquarantine
    exact hquarantine hhas

private theorem Recovering.move {id : String} {file : ℕ} (h : Recovering sha256 used start fs)
    (hget : fs.entries.get? (.root, .temporary id) = some file)
    (hid : bodyId sha256 (fs.files file).data = id) (habsent : ¬(held start).Has id) :
    Recovering sha256 used start
      (fs.change (.move (.root, .temporary id) (.root, .item id) file)) := by
  obtain ⟨hfresh, hsynced⟩ := h.numbered _ _ hget
  have hused := h.safe.clean file hsynced
  refine h.change (by simp [Change.touches]) (fun _ hentries => ?_) ?_
  · refine hentries.move_temporary hfresh hsynced fun _ hheld => ?_
    subst hid
    exact hheld.set hused habsent
  · intro path other hother
    change ((fs.entries.erase _).insert _ _).get? path = some other at hother
    rw [Table.get?_insert, Table.get?_erase] at hother
    split at hother
    · cases hother
      exact ⟨hfresh, hsynced⟩
    · split at hother
      · cases hother
      · exact h.numbered path other hother

/-- The temporary files other than one are as before, and that one is gone. -/
def Cleared (fs fs' : Disk) (id : String) : Prop :=
  ∀ other, fs'.entries.get? (.root, .temporary other) =
    if other = id then none else fs.entries.get? (.root, .temporary other)

private theorem removeFile_ensures {id : String} {file : ℕ} (h : Recovering sha256 used start fs)
    (hget : fs.entries.get? (.root, .temporary id) = some file) :
    (io (.removeFile (.root, .temporary id))).Ensures Exec
      (Safe used (Holdings.Recovered sha256 used (held start)))
      (fun result fs' => result = .ok () ∧ Recovering sha256 used start fs' ∧ Cleared fs fs' id)
      fs := by
  refine ensures_io fun result removed hexec => ?_
  have hremove : fs.removeFile (.root, .temporary id) =
      (.ok (), fs.change (.unlink (.root, .temporary id))) := by
    unfold removeFile
    rw [hget]
  obtain ⟨rfl, rfl⟩ := Prod.mk.inj (Eq.trans hexec hremove)
  refine ⟨(h.unlink id).safe, rfl, h.unlink id, fun other => ?_⟩
  change (fs.entries.erase _).get? _ = _
  rw [Table.get?_erase]
  simp

private theorem recoverTemporary_ensures {id : String} {file : ℕ}
    (h : Recovering sha256 used start fs)
    (hget : fs.entries.get? (.root, .temporary id) = some file) :
    (recoverTemporary sha256 id).Ensures Exec
      (Safe used (Holdings.Recovered sha256 used (held start)))
      (fun result fs' => result = .ok () ∧ Recovering sha256 used start fs' ∧ Cleared fs fs' id)
      fs := by
  refine ensures_exists h.safe ?_
  rw [dataAt_item]
  split
  · exact removeFile_ensures h hget
  rename_i hroot
  refine ensures_exists h.safe ?_
  rw [dataAt_item]
  split
  · exact removeFile_ensures h hget
  rename_i hquarantine
  have habsent := h.not_has hroot hquarantine
  refine ensures_io_bind fun result unchanged hexec => ?_
  obtain ⟨rfl, rfl⟩ := hexec
  have hdata : unchanged.dataAt (.root, .temporary id) = some (unchanged.files file).data := by
    unfold dataAt
    rw [hget, Option.map_some]
  refine ⟨h.safe, ?_⟩
  rw [hdata]
  dsimp only [Option.elim_some]
  split
  · rename_i hid
    have hmove := h.move hget hid habsent
    refine ensures_io fun result moved hexec => ?_
    have hrename : unchanged.rename (.root, .temporary id) (.root, .item id) =
        (.ok (), unchanged.change (.move (.root, .temporary id) (.root, .item id) file)) := by
      unfold rename
      rw [hget]
    obtain ⟨rfl, rfl⟩ := Prod.mk.inj (Eq.trans hexec hrename)
    refine ⟨hmove.safe, rfl, hmove, fun other => ?_⟩
    change ((unchanged.entries.erase _).insert _ _).get? _ = _
    rw [Table.get?_insert_of_ne _ _ (by simp), Table.get?_erase]
    simp
  · exact removeFile_ensures h hget

private theorem recoverEntries_ensures (names : List (Name × ℕ)) (changed : Bool)
    (h : Recovering sha256 used start fs) (hnodup : (names.map Prod.fst).Nodup)
    (hpresent : ∀ id, .temporary id ∈ names.map Prod.fst →
      (fs.entries.get? (.root, .temporary id)).isSome)
    (hchanged : changed = false → fs.unsynced = []) :
    (recoverEntries sha256 names changed).Ensures Exec
      (Safe used (Holdings.Recovered sha256 used (held start)))
      (fun result fs' => ∃ changed, result = .ok changed ∧ Recovering sha256 used start fs' ∧
        (changed = false → fs'.unsynced = []) ∧
        ∀ id, isDigestText id = true → (fs'.entries.get? (.root, .temporary id)).isSome →
          .temporary id ∉ names.map Prod.fst ∧
            (fs.entries.get? (.root, .temporary id)).isSome) fs := by
  induction names generalizing fs changed with
  | nil => exact ensures_pure ⟨changed, rfl, h, hchanged, fun id _ hsome => ⟨by simp, hsome⟩⟩
  | cons entry rest ih =>
    obtain ⟨name, length⟩ := entry
    obtain ⟨hfresh, hrest⟩ := List.nodup_cons.mp hnodup
    have hskip : (∀ id, name = .temporary id → isDigestText id = false) →
        (recoverEntries sha256 rest changed).Ensures Exec
          (Safe used (Holdings.Recovered sha256 used (held start)))
          (fun result fs' => ∃ changed, result = .ok changed ∧ Recovering sha256 used start fs' ∧
            (changed = false → fs'.unsynced = []) ∧
            ∀ id, isDigestText id = true → (fs'.entries.get? (.root, .temporary id)).isSome →
              .temporary id ∉ ((name, length) :: rest).map Prod.fst ∧
                (fs.entries.get? (.root, .temporary id)).isSome) fs := by
      intro hname
      refine (ih changed h hrest (fun id hid => hpresent id (List.mem_cons_of_mem _ hid))
        hchanged).mono (fun _ => id) ?_
      rintro result fs' ⟨changed', hresult, hrecovering, hunsynced, hleft⟩
      refine ⟨changed', hresult, hrecovering, hunsynced, fun id hid hsome => ?_⟩
      obtain ⟨hnot, hbefore⟩ := hleft id hid hsome
      refine ⟨fun hmem => ?_, hbefore⟩
      rcases List.mem_cons.mp hmem with heq | hmem
      · have hfalse := hname id heq.symm
        rw [hfalse] at hid
        cases hid
      · exact hnot hmem
    cases name with
    | item id => exact hskip nofun
    | temporary id =>
      rw [recoverEntries]
      split
      · rename_i hdigest
        obtain ⟨file, hget⟩ := Option.isSome_iff_exists.mp (hpresent id (List.mem_cons_self ..))
        refine ensures_bind ((recoverTemporary_ensures h hget).mono (fun _ hsafe => hsafe) ?_)
        rintro result cleared ⟨rfl, hrecovering, hcleared⟩
        have hpresent' : ∀ other, .temporary other ∈ rest.map Prod.fst →
            (cleared.entries.get? (.root, .temporary other)).isSome := by
          intro other hother
          have hne : other ≠ id := by
            rintro rfl
            exact hfresh hother
          rw [hcleared other, if_neg hne]
          exact hpresent other (List.mem_cons_of_mem _ hother)
        refine (ih true hrecovering hrest hpresent' nofun).mono (fun _ hsafe => hsafe) ?_
        rintro result fs' ⟨changed', hresult, hrecovering', hunsynced, hleft⟩
        refine ⟨changed', hresult, hrecovering', hunsynced, fun other hother hsome => ?_⟩
        obtain ⟨hnot, hbefore⟩ := hleft other hother hsome
        rw [hcleared other] at hbefore
        split at hbefore
        · cases hbefore
        · rename_i hne
          refine ⟨fun hmem => ?_, hbefore⟩
          rcases List.mem_cons.mp hmem with heq | hmem
          · exact hne (Name.temporary.inj heq)
          · exact hnot hmem
      · rename_i hdigest
        refine hskip fun other hother => ?_
        cases hother
        simpa using hdigest

/-- Opening a spool keeps its holdings, up to recovered items, and leaves no temporary file
of an item behind. -/
theorem openSpool_ensures (sha256 : Digest32) (hsettled : Settled used fs) :
    (openSpool sha256).Ensures Exec (Safe used (Holdings.Recovered sha256 used (held fs)))
      (fun result fs' => result = .ok () ∧ Settled used fs' ∧
        Holdings.Recovered sha256 used (held fs) (held fs') ∧
        ∀ id, isDigestText id = true → fs'.entries.get? (.root, .temporary id) = none) fs := by
  have hstart : Recovering sha256 used fs fs := hsettled.recovering
  refine ensures_readDir hstart.safe fun names hperm => ?_
  have hnames : ∀ name, name ∈ names.map Prod.fst ↔ (fs.entries.get? (.root, name)).isSome := by
    intro name
    rw [(hperm.map Prod.fst).mem_iff, mem_listing]
  have hnodup : (names.map Prod.fst).Nodup :=
    (hperm.map Prod.fst).nodup_iff.mpr (nodup_listing ..)
  refine ensures_bind ((recoverEntries_ensures names false hstart hnodup
    (fun id hid => (hnames _).mp hid) fun _ => hsettled.unsynced).mono (fun _ => id) ?_)
  rintro result recovered ⟨changed, rfl, hrecovering, hunsynced, hleft⟩
  have hnone : ∀ id, isDigestText id = true →
      recovered.entries.get? (.root, .temporary id) = none := by
    intro id hid
    by_cases hsome : (recovered.entries.get? (.root, .temporary id)).isSome = true
    · obtain ⟨hnot, hbefore⟩ := hleft id hid hsome
      exact absurd ((hnames _).mpr hbefore) hnot
    · simpa using hsome
  dsimp only
  split
  · refine ensures_io fun result ended hexec => ?_
    obtain ⟨rfl, rfl⟩ := hexec
    have hsettled' : Settled used (recovered.syncDir .root) :=
      settled_syncDir hrecovering.consistent hrecovering.touches hrecovering.numbered
        hrecovering.safe.clean
    exact ⟨hsettled'.safe hrecovering.safe.held, rfl, hsettled', hrecovering.safe.held, hnone⟩
  · rename_i hchanged
    have hempty : recovered.unsynced = [] := hunsynced (by simpa using hchanged)
    have hdurable : recovered.durable = recovered.entries := by
      have hconsistent := hrecovering.consistent
      unfold Consistent at hconsistent
      rw [hconsistent, hempty]
      rfl
    exact ensures_pure ⟨rfl, ⟨hempty, hdurable, hrecovering.numbered, hrecovering.safe.clean⟩,
      hrecovering.safe.held, hnone⟩

end MongoDam.Spool
