import MongoDam.Spool.Custody
import MongoDam.Spool.Faults

/-!
# Enqueuing again after a failure

An `enqueue` that fails before its temporary file exists leaves nothing behind, and the
same body can be enqueued later. One that fails while it writes, syncs or renames the
temporary file leaves the listings as they were but keeps the file, and every later
attempt for the same body then stops at that file until the spool is opened again.
-/

namespace MongoDam.Spool

open Lib FileSystem Program

/-- The steps of `enqueue` on its temporary file. -/
inductive Stage where
  | create
  | write
  | sync
  | rename
  deriving DecidableEq, Repr

/-- The operations that fail when a stage fails. -/
def Stage.faults : Stage → FileOp Place Name → Prop
  | create, .createNew _ => True
  | write, .writeAll _ _ => True
  | sync, .syncFile _ => True
  | rename, .rename _ _ => True
  | _, _ => False

/-- An action can give a result when nothing fails. -/
def Answers (action : Action α) (fs : Disk) (result : Except SpoolError α) : Prop :=
  ∃ fs', Ends Exec action fs result fs'

/-- An action ends, and however it ends `Q` holds. -/
def Returns (action : Action α) (fs : Disk) (Q : Except SpoolError α → Disk → Prop) : Prop :=
  (∃ result fs', Ends Exec action fs result fs') ∧
    ∀ result fs', Ends Exec action fs result fs' → Q result fs'

/-- The call is made on the open spool, for other bodies than one. -/
def Call.Elsewhere (sha256 : Digest32) (body : Bytes) : Call → Prop
  | enqueue other => bodyId sha256 other ≠ bodyId sha256 body
  | reopen => False
  | _ => True

section Statements

variable (sha256 : Digest32) (maxBytes : ℕ) (body : Bytes)

/-- Calls without an error in the file system, before the body is enqueued again. -/
inductive Later (fs : Disk) : Disk → Prop
  | now : Later fs fs
  | call {fs' fs'' : Disk} (call : Call) {result : Except SpoolError call.Result}
      (hlater : Later fs fs') (helsewhere : call.Elsewhere sha256 body)
      (hends : Ends Exec (call.program sha256 maxBytes) fs' result fs'') : Later fs fs''

/-- The listings are as before, and the body can be enqueued later. -/
structure FailsCleanly (fs failed later : Disk) : Prop where
  pending : ∀ result, Answers pending failed result ↔ Answers pending fs result
  stats : ∀ result, Answers stats failed result ↔ Answers stats fs result
  quarantineStats : ∀ result,
    Answers quarantineStats failed result ↔ Answers quarantineStats fs result
  retry : Returns (enqueue sha256 maxBytes body) later fun result fs' =>
    result = .ok (bodyId sha256 body) ∧ held fs' .root (bodyId sha256 body) = some body

end Statements

/-! ### Listings -/

variable {sha256 : Digest32} {maxBytes : ℕ} {body : Bytes} {fs : Disk}

/-- An action that lists a directory and computes from the listing. -/
private theorem answers_listing {place : Place} {f : List (Name × ℕ) → β}
    {result : Except SpoolError β} :
    Answers (do let names ← io (.readDir place); return f names) fs result ↔
      ∃ names : List (Name × ℕ), names.Perm (fs.listing place) ∧ result = .ok (f names) := by
  constructor
  · rintro ⟨fs', hends⟩
    cases hends with
    | perform hop hrest =>
      obtain ⟨rfl, names, hperm, rfl⟩ := hop
      cases hrest
      exact ⟨names, hperm, rfl⟩
  · rintro ⟨names, hperm, rfl⟩
    exact ⟨fs, .perform ⟨rfl, names, hperm, rfl⟩ .done⟩

theorem answers_pending {result : Except SpoolError (List PendingItem)} :
    Answers pending fs result ↔ result = .ok (itemsAt fs) := by
  unfold pending
  rw [answers_listing]
  constructor
  · rintro ⟨names, hperm, rfl⟩
    rw [itemsAt_of_perm hperm]
  · rintro rfl
    exact ⟨_, .refl _, rfl⟩

theorem answers_directoryStats {place : Place} {result : Except SpoolError SpoolStats} :
    Answers (directoryStats place) fs result ↔ result = .ok (statsAt fs place) := by
  unfold directoryStats
  rw [answers_listing]
  constructor
  · rintro ⟨names, hperm, rfl⟩
    rw [statsAt_of_perm hperm]
  · rintro rfl
    exact ⟨_, .refl _, rfl⟩

/-- A temporary file is listed beside everything else. -/
private theorem listing_written {id : String} {state : File} (hnumbered : Numbered fs)
    (habsent : fs.entries.get? (.root, .temporary id) = none) (place : Place) :
    (written fs id state).listing place = fs.listing place ++
      if Place.root = place then [(.temporary id, state.data.length)] else [] := by
  have hentries : (written fs id state).entries.entries =
      fs.entries.entries ++ [((.root, .temporary id), fs.fresh)] :=
    Table.entries_insert_of_none habsent _
  unfold listing
  rw [hentries, List.filterMap_append]
  congr 1
  · refine List.filterMap_congr fun entry hentry => ?_
    have hlt := hnumbered entry.1 entry.2 (Table.get?_eq_some_iff.mpr hentry)
    rw [written_files_of_lt hlt]
  · by_cases hplace : Place.root = place
    · simp [hplace]
    · simp [hplace]

theorem Numbered.statsAt_written {id : String} {state : File} (hnumbered : Numbered fs)
    (habsent : fs.entries.get? (.root, .temporary id) = none) (place : Place) :
    statsAt (written fs id state) place = statsAt fs place := by
  unfold statsAt
  rw [listing_written hnumbered habsent, List.foldl_append]
  by_cases hplace : Place.root = place
  · rw [if_pos hplace]
    rfl
  · rw [if_neg hplace]
    rfl

theorem Numbered.itemsAt_written {id : String} {state : File} (hnumbered : Numbered fs)
    (habsent : fs.entries.get? (.root, .temporary id) = none) :
    itemsAt (written fs id state) = itemsAt fs := by
  unfold itemsAt itemsOf
  rw [listing_written hnumbered habsent, List.filterMap_append, if_pos rfl]
  congr 1
  exact List.append_nil _

/-! ### Calls for other bodies -/

/-- The operation does not touch the temporary file of an id, and gives the id no item. -/
def Spares (id : String) : FileOp Place Name → Prop
  | .createNew path => path ≠ (.root, .temporary id) ∧ ∀ place, path ≠ (place, .item id)
  | .rename source target => source ≠ (.root, .temporary id) ∧ target ≠ (.root, .temporary id) ∧
      ∀ place, target = (place, .item id) → ∃ other, source = (other, .item id)
  | .removeFile path => path ≠ (.root, .temporary id)
  | _ => True

/-- There is no item of the id, and its temporary file is as it was. -/
structure Waiting (id : String) (temporary : Option ℕ) (fs : Disk) : Prop where
  numbered : Numbered fs
  items : ∀ place, fs.entries.get? (place, .item id) = none
  temporary : fs.entries.get? (.root, .temporary id) = temporary

variable {id : String} {temporary : Option ℕ}

private theorem Waiting.createNew {path : Place × Name} (h : Waiting id temporary fs)
    (hspares : Spares id (.createNew path)) :
    Waiting id temporary (fs.createNew path).2 := by
  unfold FileSystem.createNew
  split
  · exact h
  · refine ⟨fun other file hget => ?_, fun place => ?_, ?_⟩
    · change (fs.entries.insert path fs.fresh).get? other = some file at hget
      change file < fs.fresh + 1
      rw [Table.get?_insert] at hget
      split at hget
      · cases hget
        omega
      · have hlt := h.numbered other file hget
        omega
    · change (fs.entries.insert path fs.fresh).get? _ = none
      rw [Table.get?_insert_of_ne _ _ (Ne.symm (hspares.2 place))]
      exact h.items place
    · change (fs.entries.insert path fs.fresh).get? _ = temporary
      rw [Table.get?_insert_of_ne _ _ (Ne.symm hspares.1)]
      exact h.temporary

private theorem Waiting.removeFile {path : Place × Name} (h : Waiting id temporary fs)
    (hspares : Spares id (.removeFile path)) :
    Waiting id temporary (fs.removeFile path).2 := by
  unfold FileSystem.removeFile
  split
  · exact h
  · refine ⟨fun other file hget => ?_, fun place => ?_, ?_⟩
    · change (fs.entries.erase path).get? other = some file at hget
      rw [Table.get?_erase] at hget
      split at hget
      · cases hget
      · exact h.numbered other file hget
    · change (fs.entries.erase path).get? _ = none
      rw [Table.get?_erase, h.items place, ite_self]
    · change (fs.entries.erase path).get? _ = temporary
      rw [Table.get?_erase_of_ne _ (Ne.symm hspares)]
      exact h.temporary

private theorem Waiting.rename {source target : Place × Name} (h : Waiting id temporary fs)
    (hspares : Spares id (.rename source target)) :
    Waiting id temporary (fs.rename source target).2 := by
  obtain ⟨hsource, htarget, hitem⟩ := hspares
  unfold FileSystem.rename
  split
  · exact h
  · rename_i file hfile
    refine ⟨fun other number hget => ?_, fun place => ?_, ?_⟩
    · change ((fs.entries.erase source).insert target file).get? other = some number at hget
      rw [Table.get?_insert, Table.get?_erase] at hget
      split at hget
      · cases hget
        exact h.numbered source file hfile
      · split at hget
        · cases hget
        · exact h.numbered other number hget
    · change ((fs.entries.erase source).insert target file).get? _ = none
      rw [Table.get?_insert_of_ne _ _ ?_, Table.get?_erase, h.items place, ite_self]
      intro heq
      obtain ⟨other, rfl⟩ := hitem place heq.symm
      rw [h.items other] at hfile
      cases hfile
    · change ((fs.entries.erase source).insert target file).get? _ = temporary
      rw [Table.get?_insert_of_ne _ _ (Ne.symm htarget),
        Table.get?_erase_of_ne _ (Ne.symm hsource)]
      exact h.temporary

private theorem Waiting.exec {op : FileOp Place Name} {result : Except IoError op.Value}
    {fs' : Disk} (hspares : Spares id op) (hexec : Exec op fs result fs')
    (h : Waiting id temporary fs) : Waiting id temporary fs' := by
  cases op with
  | createNew path =>
    have hstate : fs' = (fs.createNew path).2 := congrArg Prod.snd hexec
    rw [hstate]
    exact h.createNew hspares
  | removeFile path =>
    have hstate : fs' = (fs.removeFile path).2 := congrArg Prod.snd hexec
    rw [hstate]
    exact h.removeFile hspares
  | rename source target =>
    have hstate : fs' = (fs.rename source target).2 := congrArg Prod.snd hexec
    rw [hstate]
    exact h.rename hspares
  | metadata path => exact hexec.1 ▸ h
  | readDir directory => exact hexec.1 ▸ h
  | readFile path => exact hexec.1 ▸ h
  | writeAll file data => exact hexec.1 ▸ ⟨h.numbered, h.items, h.temporary⟩
  | syncFile file => exact hexec.1 ▸ ⟨h.numbered, h.items, h.temporary⟩
  | syncDir directory => exact hexec.1 ▸ ⟨h.numbered, h.items, h.temporary⟩

section Programs

variable {allowed : FileOp Place Name → Prop}

/-- Every operation that the action may perform satisfies `allowed`. -/
def Action.Performs (allowed : FileOp Place Name → Prop) (action : Action α) : Prop :=
  Program.Performs allowed action

private theorem performs_bind {action : Action α} {f : α → Action β}
    (h : action.Performs allowed) (hf : ∀ value, Action.Performs allowed (f value)) :
    Action.Performs allowed (action >>= f) := by
  refine Program.Performs.bind h fun result => ?_
  cases result with
  | ok value => exact hf value
  | error error => trivial

private theorem performs_io {op : FileOp Place Name} (h : allowed op) :
    Action.Performs allowed (io op) := ⟨h, fun _ => trivial⟩

private theorem performs_attempt_bind {op : FileOp Place Name}
    {f : Except IoError op.Value → Action β} (h : allowed op)
    (hf : ∀ result, Action.Performs allowed (f result)) :
    Action.Performs allowed (attempt op >>= f) :=
  ⟨h, hf⟩

private theorem performs_exists_bind {path : Place × Name} {f : Bool → Action β}
    (h : allowed (.metadata path)) (hf : ∀ found, Action.Performs allowed (f found)) :
    Action.Performs allowed (pathExists path >>= f) :=
  ⟨h, fun result => hf result.isOk⟩

private theorem performs_directoryStats {place : Place} (h : allowed (.readDir place)) :
    Action.Performs allowed (directoryStats place) :=
  performs_bind (performs_io h) fun _ => trivial

end Programs

private theorem performs_enqueue {other : Bytes} (h : bodyId sha256 other ≠ id) :
    Action.Performs (Spares id) (enqueue sha256 maxBytes other) := by
  refine performs_exists_bind trivial fun found => ?_
  cases found with
  | true => trivial
  | false =>
  refine performs_exists_bind trivial fun found => ?_
  cases found with
  | true => trivial
  | false =>
  refine performs_bind (performs_directoryStats trivial) fun pending => ?_
  refine performs_bind (performs_directoryStats trivial) fun quarantined => ?_
  dsimp only
  split
  · trivial
  · refine performs_bind (performs_io ⟨by simp [h], by simp⟩) fun file => ?_
    refine performs_bind (performs_io trivial) fun _ => ?_
    refine performs_bind (performs_io trivial) fun _ => ?_
    refine performs_bind (performs_io ⟨by simp [h], by simp, by simp [h]⟩) fun _ => ?_
    exact performs_bind (performs_io trivial) fun _ => trivial

private theorem performs_acknowledge (item : PendingItem) :
    Action.Performs (Spares id) (acknowledge item) := by
  refine performs_attempt_bind (by simp [Spares, PendingItem.path]) fun result => ?_
  split
  · exact performs_io trivial
  · trivial
  · trivial

private theorem performs_quarantine (item : PendingItem) :
    Action.Performs (Spares id) (quarantine item) := by
  refine performs_exists_bind trivial fun found => ?_
  cases found with
  | true => exact performs_acknowledge item
  | false =>
    have hmove : Spares id (.rename item.path (.quarantine, .item item.id)) := by
      refine ⟨by simp [PendingItem.path], by simp, fun place heq => ⟨.root, ?_⟩⟩
      cases heq
      rfl
    refine performs_attempt_bind hmove fun result => ?_
    split
    · exact performs_bind (performs_io trivial) fun _ => performs_io trivial
    · refine performs_exists_bind trivial fun found => ?_
      cases found <;> trivial
    · trivial

/-- A call for other bodies performs operations that leave an id alone. -/
private theorem performs_program {call : Call} (h : call.Elsewhere sha256 body) :
    Action.Performs (Spares (bodyId sha256 body)) (call.program sha256 maxBytes) := by
  cases call with
  | enqueue other => exact performs_enqueue h
  | pending => exact performs_bind (performs_io trivial) fun _ => trivial
  | read item => exact performs_io trivial
  | acknowledge item => exact performs_acknowledge item
  | quarantine item => exact performs_quarantine item
  | stats => exact performs_directoryStats trivial
  | quarantineStats => exact performs_directoryStats trivial
  | reopen => cases h

private theorem Waiting.later {later : Disk} (h : Waiting (bodyId sha256 body) temporary fs)
    (hlater : Later sha256 maxBytes body fs later) :
    Waiting (bodyId sha256 body) temporary later := by
  induction hlater with
  | now => exact h
  | call call _ helsewhere hends ih =>
    exact Program.Performs.ends (fun _ _ _ _ hspares hexec hwaiting =>
      hwaiting.exec hspares hexec) (performs_program helsewhere) hends ih

/-! ### Failing and enqueuing again -/

/-- What a failed `enqueue` leaves: no item of its id, the listings as they were, and its
temporary file, unless it failed before that file was there. -/
private structure Left (stage : Stage) (sha256 : Digest32) (maxBytes : ℕ) (body : Bytes)
    (fs failed : Disk) : Prop where
  waiting : ∃ temporary, Waiting (bodyId sha256 body) temporary failed
  items : itemsAt failed = itemsAt fs
  stats : ∀ place, statsAt failed place = statsAt fs place
  temporary : failed.entries.get? (.root, .temporary (bodyId sha256 body)) = none ↔
    fs.entries.get? (.root, .temporary (bodyId sha256 body)) = none ∧
      (Exceeds maxBytes fs body ∨ stage = .create)

private theorem Unseen.item_absent {stage : Stage} {place : Place}
    (h : Unseen stage.faults fs place id) : fs.entries.get? (place, .item id) = none := by
  rcases h with hnone | hfault
  · exact Option.map_eq_none_iff.mp hnone
  · cases stage <;> cases hfault

private theorem waiting_of_unseen {stage : Stage} (hnumbered : Numbered fs)
    (hunseen : ∀ place, Unseen stage.faults fs place id) :
    ∃ temporary, Waiting id temporary fs :=
  ⟨_, hnumbered, fun place => (hunseen place).item_absent, rfl⟩

/-- A temporary file that an `enqueue` leaves behind. -/
private theorem left_written {stage : Stage} {state : File} (hnumbered : Numbered fs)
    (hunseen : ∀ place, Unseen stage.faults fs place (bodyId sha256 body))
    (hfits : ¬Exceeds maxBytes fs body) (hstage : stage ≠ .create)
    (habsent : fs.entries.get? (.root, .temporary (bodyId sha256 body)) = none) :
    Left stage sha256 maxBytes body fs (written fs (bodyId sha256 body) state) := by
  have htemporary : (written fs (bodyId sha256 body) state).entries.get?
      (.root, .temporary (bodyId sha256 body)) = some fs.fresh := Table.get?_insert_self ..
  refine ⟨⟨_, ?_, fun place => ?_, htemporary⟩, hnumbered.itemsAt_written habsent,
    hnumbered.statsAt_written habsent, ?_⟩
  · intro path file hget
    change (fs.entries.insert _ _).get? path = some file at hget
    change file < fs.fresh + 1
    rw [Table.get?_insert] at hget
    split at hget
    · cases hget
      omega
    · have hlt := hnumbered path file hget
      omega
  · change (fs.entries.insert _ _).get? _ = none
    rw [Table.get?_insert_of_ne _ _ (by simp)]
    exact (hunseen place).item_absent
  · rw [htemporary]
    constructor
    · nofun
    · rintro ⟨-, hfull | hcreate⟩
      · exact absurd hfull hfits
      · exact absurd hcreate hstage

private theorem left_of_failed {stage : Stage} {e : SpoolError} {failed : Disk}
    (hnumbered : Numbered fs)
    (hfailed : Ends (ExecWith stage.faults) (enqueue sha256 maxBytes body) fs (.error e) failed) :
    Left stage sha256 maxBytes body fs failed := by
  have houtcome := (enqueue_outcome sha256 maxBytes).ends hfailed
  cases houtcome with
  | unlisted hfault => cases stage <;> cases hfault
  | full hunseen hfull =>
    have htemporary : ∀ p : Prop, p ↔ p ∧ (Exceeds maxBytes fs body ∨ stage = .create) :=
      fun p => ⟨fun hp => ⟨hp, Or.inl hfull⟩, And.left⟩
    exact ⟨waiting_of_unseen hnumbered hunseen, rfl, fun _ => rfl, htemporary _⟩
  | stored hunseen hfits houtcome =>
    cases houtcome with
    | occupied hpresent =>
      refine ⟨waiting_of_unseen hnumbered hunseen, rfl, fun _ => rfl, ?_⟩
      constructor
      · exact fun habsent => absurd habsent hpresent
      · exact fun h => absurd h.1 hpresent
    | uncreated hfault =>
      have hstage : stage = .create := by
        cases stage with
        | create => rfl
        | _ => cases hfault
      refine ⟨waiting_of_unseen hnumbered hunseen, rfl, fun _ => rfl, ?_⟩
      exact ⟨fun habsent => ⟨habsent, Or.inr hstage⟩, And.left⟩
    | unwritten habsent hfault =>
      refine left_written hnumbered hunseen hfits ?_ habsent
      rintro rfl
      cases hfault
    | unsynced habsent hfault =>
      refine left_written hnumbered hunseen hfits ?_ habsent
      rintro rfl
      cases hfault
    | unmoved habsent hfault =>
      refine left_written hnumbered hunseen hfits ?_ habsent
      rintro rfl
      cases hfault
    | undurable habsent hfault => cases stage <;> cases hfault

/-- Without failures and with room, `enqueue` succeeds exactly when no temporary file of the
id is in its way. -/
private theorem Waiting.returns_iff (h : Waiting (bodyId sha256 body) temporary fs)
    (hfits : ¬Exceeds maxBytes fs body) :
    (Returns (enqueue sha256 maxBytes body) fs fun result fs' =>
      result = .ok (bodyId sha256 body) ∧ held fs' .root (bodyId sha256 body) = some body) ↔
      temporary = none := by
  have houtcome : ∀ result fs', Ends Exec (enqueue sha256 maxBytes body) fs result fs' →
      StoreOutcome (fun _ => False) fs (bodyId sha256 body) body result fs' := by
    intro result fs' hends
    have hends : Ends (ExecWith fun _ => False) (enqueue sha256 maxBytes body) fs result fs' :=
      hends.mono fun _ _ _ _ hexec => Or.inl hexec
    have houtcome := (enqueue_outcome sha256 maxBytes).ends hends
    cases houtcome with
    | kept hhas =>
      have hnone : ∀ place, held fs place (bodyId sha256 body) = none :=
        fun place => Option.map_eq_none_iff.mpr (h.items place)
      unfold Holdings.Has at hhas
      rw [hnone, hnone] at hhas
      rcases hhas with hsome | hsome
      · cases hsome
      · cases hsome
    | unlisted hfault => cases hfault
    | full _ hfull => exact absurd hfull hfits
    | stored _ _ hstored => exact hstored
  constructor
  · rintro ⟨⟨result, fs', hends⟩, hall⟩
    obtain ⟨rfl, -⟩ := hall result fs' hends
    cases houtcome _ _ hends with
    | done habsent => exact h.temporary.symm.trans habsent
  · rintro rfl
    have hends := ends_run exec_perform (enqueue sha256 maxBytes body) fs
    refine ⟨⟨_, _, hends⟩, fun result fs' hends => ?_⟩
    cases houtcome result fs' hends with
    | occupied hpresent => exact absurd h.temporary hpresent
    | done _ =>
      refine ⟨rfl, ?_⟩
      change held (stored fs _ _) _ _ = _
      rw [h.numbered.held_stored, Holdings.set_self]
    | uncreated hfault => cases hfault
    | unwritten _ hfault => cases hfault
    | unsynced _ hfault => cases hfault
    | unmoved _ hfault => cases hfault
    | undurable _ hfault => cases hfault

/-- A failed `enqueue` changes nothing and can be made up for later exactly when no temporary
file of the body was there before, and it failed for lack of space or in creating that file. -/
theorem enqueue_failsCleanly_iff {stage : Stage} {e : SpoolError} {failed later : Disk}
    (hnumbered : Numbered fs)
    (hfailed : Ends (ExecWith stage.faults) (enqueue sha256 maxBytes body) fs (.error e) failed)
    (hlater : Later sha256 maxBytes body failed later) (hfits : ¬Exceeds maxBytes later body) :
    FailsCleanly sha256 maxBytes body fs failed later ↔
      fs.entries.get? (.root, .temporary (bodyId sha256 body)) = none ∧
        (Exceeds maxBytes fs body ∨ stage = .create) := by
  have hleft := left_of_failed hnumbered hfailed
  obtain ⟨temporary, hwaiting⟩ := hleft.waiting
  have hretry := (hwaiting.later hlater).returns_iff hfits
  rw [← hleft.temporary, hwaiting.temporary, ← hretry]
  constructor
  · exact FailsCleanly.retry
  · intro hreturns
    refine ⟨fun result => ?_, fun result => ?_, fun result => ?_, hreturns⟩
    · rw [answers_pending, answers_pending, hleft.items]
    · unfold stats
      rw [answers_directoryStats, answers_directoryStats, hleft.stats]
    · unfold quarantineStats
      rw [answers_directoryStats, answers_directoryStats, hleft.stats]

/-- The disk of an opened spool after an `enqueue` whose rename failed. -/
def unmovedDisk : Disk :=
  written openedDisk (bodyId sampleDigest sampleBody) { data := sampleBody, synced := true }

private theorem numbered_openedDisk : Numbered openedDisk := by
  rintro path file hget
  cases hget

private theorem store_unmoved (habsent : fs.entries.get? (.root, .temporary id) = none) :
    Ends (ExecWith Stage.rename.faults) (store id body) fs (.error (.io .other))
      (written fs id { data := body, synced := true }) := by
  have hwrite : Exec (.writeAll fs.fresh body) (written fs id { data := [], synced := false })
      (.ok ()) (written fs id { data := body, synced := false }) :=
    ⟨(written_setFile _).symm, rfl⟩
  have hsync : Exec (.syncFile fs.fresh) (written fs id { data := body, synced := false })
      (.ok ()) (written fs id { data := body, synced := true }) := by
    refine ⟨?_, rfl⟩
    rw [written_files, written_setFile]
  apply Ends.perform (Or.inl (createNew_written habsent).symm)
  apply Ends.perform (Or.inl hwrite)
  apply Ends.perform (Or.inl hsync)
  exact Ends.perform (Or.inr ⟨trivial, .other, rfl, rfl⟩) .done

/-- A body whose temporary file could not be created can be enqueued at once. -/
theorem sampleBody_failsCleanly :
    FailsCleanly sampleDigest 16 sampleBody openedDisk openedDisk openedDisk := by
  have hfailed : Ends (ExecWith Stage.create.faults) (enqueue sampleDigest 16 sampleBody)
      openedDisk (.error (.io .other)) openedDisk := by
    apply Ends.perform (Or.inl (exec_perform _ _))
    apply Ends.perform (Or.inl (exec_perform _ _))
    apply Ends.perform (Or.inl (exec_perform _ _))
    apply Ends.perform (Or.inl (exec_perform _ _))
    exact Ends.perform (Or.inr ⟨trivial, .other, rfl, rfl⟩) .done
  have hfits : ¬Exceeds 16 openedDisk sampleBody := by decide
  exact (enqueue_failsCleanly_iff numbered_openedDisk hfailed .now hfits).mpr
    ⟨rfl, Or.inr rfl⟩

/-- A rename that fails leaves a temporary file that stops every later attempt. -/
theorem unmovedDisk_not_failsCleanly :
    Numbered openedDisk ∧
      Ends (ExecWith Stage.rename.faults) (enqueue sampleDigest 16 sampleBody) openedDisk
        (.error (.io .other)) unmovedDisk ∧
      Later sampleDigest 16 sampleBody unmovedDisk unmovedDisk ∧
      ¬Exceeds 16 unmovedDisk sampleBody ∧
      ¬FailsCleanly sampleDigest 16 sampleBody openedDisk unmovedDisk unmovedDisk := by
  refine ⟨numbered_openedDisk, ?_, .now, by decide, fun hclean => ?_⟩
  · apply Ends.perform (Or.inl (exec_perform _ _))
    apply Ends.perform (Or.inl (exec_perform _ _))
    apply Ends.perform (Or.inl (exec_perform _ _))
    apply Ends.perform (Or.inl (exec_perform _ _))
    exact store_unmoved rfl
  · have hends := ends_run exec_perform (enqueue sampleDigest 16 sampleBody) unmovedDisk
    have hretry := (hclean.retry.2 _ _ hends).1
    have hstuck : (run perform (enqueue sampleDigest 16 sampleBody) unmovedDisk).1 =
        .error (.io .alreadyExists) := by rfl
    rw [hstuck] at hretry
    cases hretry

end MongoDam.Spool
