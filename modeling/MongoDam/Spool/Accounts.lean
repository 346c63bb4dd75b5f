import MongoDam.Spool.Claims

/-!
# Calls and the capacity

Between calls, whatever a crash would leave claims no more than what is seen, and that is
covered by a budget. Each call keeps this: removing an item frees its claim, an item takes
its claim along to the quarantine, recovery only redeems claims, and enqueuing claims the
size of its body. The capacity check sees the items alone, so enqueuing needs room for
what earlier calls left behind as well.
-/

namespace MongoDam.Spool

open Lib FileSystem Program

variable {sha256 : Digest32} {used : Bytes → Prop} {maxBytes : ℕ}
  {budget : Finset (Place × Bytes)} {fs fs' : Disk}

/-! ### What a crash may claim -/

/-- The entries claim no more than others, and agree with them on the quarantine. -/
structure Below (sha256 : Digest32) (files : ℕ → File) (entries others : Table (Place × Name) ℕ) :
    Prop where
  quarantine : ∀ id, entries.get? (.quarantine, .item id) = none ↔
    others.get? (.quarantine, .item id) = none
  claims : ∀ place id, Claims sha256 files entries place id → Claims sha256 files others place id

/-- Whatever a crash leaves is sound and covered by the budget. -/
structure Covered (sha256 : Digest32) (used : Bytes → Prop) (budget : Finset (Place × Bytes))
    (fs : Disk) : Prop where
  consistent : fs.Consistent
  touches : ∀ change ∈ fs.unsynced, change.touches Place.root
  outcomes : fs.Outcomes fun entries => Sound sha256 used fs.files fs.fresh entries ∧
    Covers sha256 fs.files entries budget

/-- Whatever a crash leaves is sound and claims no more than what is seen now, which is
covered by the budget. -/
structure Accounted (sha256 : Digest32) (used : Bytes → Prop) (budget : Finset (Place × Bytes))
    (fs : Disk) : Prop where
  consistent : fs.Consistent
  touches : ∀ change ∈ fs.unsynced, change.touches Place.root
  outcomes : fs.Outcomes fun entries => Sound sha256 used fs.files fs.fresh entries ∧
    Below sha256 fs.files entries fs.entries
  covers : Covers sha256 fs.files fs.entries budget

/-- Whatever a crash leaves is sound and within the capacity. -/
structure Bounded (sha256 : Digest32) (used : Bytes → Prop) (maxBytes : ℕ) (fs : Disk) :
    Prop where
  consistent : fs.Consistent
  outcomes : fs.Outcomes fun entries => Sound sha256 used fs.files fs.fresh entries ∧
    Within sha256 used fs.files entries maxBytes

/-- Between calls the claims are covered by some budget. -/
def Rested (sha256 : Digest32) (used : Bytes → Prop) (maxBytes : ℕ) (fs : Disk) : Prop :=
  ∃ budget, Budget used maxBytes budget ∧ Accounted sha256 used budget fs

theorem Accounted.covered (h : Accounted sha256 used budget fs) :
    Covered sha256 used budget fs where
  consistent := h.consistent
  touches := h.touches
  outcomes := h.outcomes.mono fun _ hentries =>
    ⟨hentries.1, fun place id hclaims => h.covers place id (hentries.2.claims place id hclaims)⟩

theorem Covered.bounded (h : Covered sha256 used budget fs)
    (hbudget : Budget used maxBytes budget) :
    Bounded sha256 used maxBytes fs where
  consistent := h.consistent
  outcomes := h.outcomes.mono fun _ hentries => ⟨hentries.1, budget, hbudget, hentries.2⟩

theorem Rested.bounded (h : Rested sha256 used maxBytes fs) : Bounded sha256 used maxBytes fs := by
  obtain ⟨budget, hbudget, haccounted⟩ := h
  exact haccounted.covered.bounded hbudget

theorem Accounted.sound (h : Accounted sha256 used budget fs) :
    Sound sha256 used fs.files fs.fresh fs.entries := (h.outcomes.now h.consistent).1

theorem Covered.sound (h : Covered sha256 used budget fs) :
    Sound sha256 used fs.files fs.fresh fs.entries := (h.outcomes.now h.consistent).1

theorem Covered.covers (h : Covered sha256 used budget fs) :
    Covers sha256 fs.files fs.entries budget := (h.outcomes.now h.consistent).2

/-- When everything is durable, only what is seen matters. -/
theorem accounted_of_durable (hunsynced : fs.unsynced = []) (hdurable : fs.durable = fs.entries)
    (hsound : Sound sha256 used fs.files fs.fresh fs.entries)
    (hcovers : Covers sha256 fs.files fs.entries budget) : Accounted sha256 used budget fs where
  consistent := by
    unfold Consistent
    rw [hunsynced, hdurable]
    rfl
  touches change hchange := by
    rw [hunsynced] at hchange
    cases hchange
  outcomes := outcomes_of_durable hunsynced hdurable
    ⟨hsound, fun _ => Iff.rfl, fun _ _ hclaims => hclaims⟩
  covers := hcovers

/-- Syncing the root makes everything durable. -/
theorem Covered.syncDir (h : Covered sha256 used budget fs) :
    Accounted sha256 used budget (fs.syncDir .root) := by
  obtain ⟨hunsynced, hdurable⟩ := h.consistent.syncDir h.touches
  exact accounted_of_durable hunsynced hdurable h.sound h.covers

/-- After a crash everything is durable. -/
theorem Bounded.crash (h : Bounded sha256 used maxBytes fs) (hcrash : Crash used fs fs') :
    Rested sha256 used maxBytes fs' := by
  obtain ⟨hsound, budget, hbudget, hcovers⟩ := h.outcomes.crash hcrash
  obtain ⟨-, hdurable, hunsynced, hfresh, hfiles⟩ := hcrash
  have hkept : ∀ file, (fs.files file).synced = true →
      (fs'.files file).data = (fs.files file).data := by
    intro file hsynced
    have hfile := (hfiles file).2
    rwa [if_pos hsynced] at hfile
  refine ⟨budget, hbudget, accounted_of_durable hunsynced hdurable ⟨?_, ?_, ?_, ?_⟩ ?_⟩
  · intro path file hget
    rw [hfresh]
    exact hsound.numbered path file hget
  · intro path file hget _
    by_cases hsynced : (fs.files file).synced = true
    · rw [hkept file hsynced]
      exact hsound.contents path file hget hsynced
    · have hfile := (hfiles file).2
      rwa [if_neg hsynced] at hfile
  · intro place id file hget
    obtain ⟨hsynced, hid⟩ := hsound.items place id file hget
    exact ⟨(hfiles file).1, by rw [hkept file hsynced]; exact hid⟩
  · exact hsound.temporaries
  · rintro place id (hitem | ⟨hnone, file, hget, hcomplete⟩)
    · exact hcovers place id (.item hitem)
    · refine hcovers .root id (.promotable ⟨hnone, file, hget, ?_⟩)
      by_cases hsynced : (fs.files file).synced = true
      · right
        rw [← hkept file hsynced]
        exact hcomplete.resolve_left (by rw [(hfiles file).1]; nofun)
      · exact Or.inl (by simpa using hsynced)

/-! ### Changes -/

/-- The new temporary file does not disturb what a crash may leave. -/
private theorem below_link {files : ℕ → File} {file : ℕ} {id : String}
    {entries others : Table (Place × Name) ℕ} (hbelow : Below sha256 files entries others)
    (hcomplete : (files file).synced = false ∨ bodyId sha256 (files file).data = id) :
    Below sha256 files entries (others.insert (.root, .temporary id) file) ∧
      Below sha256 files (entries.insert (.root, .temporary id) file)
        (others.insert (.root, .temporary id) file) := by
  have hget : ∀ (table : Table (Place × Name) ℕ) other,
      (table.insert (.root, .temporary id) file).get? (.quarantine, .item other) =
        table.get? (.quarantine, .item other) :=
    fun table other => Table.get?_insert_of_ne _ _ (by simp)
  refine ⟨⟨fun other => ?_, fun place other hclaims => ?_⟩,
    ⟨fun other => ?_, fun place other hclaims => ?_⟩⟩
  · rw [hget]
    exact hbelow.quarantine other
  · exact (claims_link hcomplete).mpr (Or.inl (hbelow.claims place other hclaims))
  · rw [hget, hget]
    exact hbelow.quarantine other
  · rcases (claims_link hcomplete).mp hclaims with hold | ⟨hplace, hid, hnone⟩
    · exact (claims_link hcomplete).mpr (Or.inl (hbelow.claims place other hold))
    · exact (claims_link hcomplete).mpr (Or.inr ⟨hplace, hid, (hbelow.quarantine id).mp hnone⟩)

/-- The promotion of a temporary file does not disturb what a crash may leave. -/
private theorem below_promote {files : ℕ → File} {file : ℕ} {id : String}
    {entries others : Table (Place × Name) ℕ} (hbelow : Below sha256 files entries others) :
    Below sha256 files entries
      ((others.erase (.root, .temporary id)).insert (.root, .item id) file) ∧
      Below sha256 files ((entries.erase (.root, .temporary id)).insert (.root, .item id) file)
        ((others.erase (.root, .temporary id)).insert (.root, .item id) file) := by
  have hget : ∀ (table : Table (Place × Name) ℕ) other,
      ((table.erase (.root, .temporary id)).insert (.root, .item id) file).get?
        (.quarantine, .item other) = table.get? (.quarantine, .item other) := by
    intro table other
    rw [Table.get?_insert_of_ne _ _ (by simp), Table.get?_erase_of_ne _ (by simp)]
  refine ⟨⟨fun other => ?_, fun place other hclaims => ?_⟩,
    ⟨fun other => ?_, fun place other hclaims => ?_⟩⟩
  · rw [hget]
    exact hbelow.quarantine other
  · exact claims_promote.mpr (Or.inl (hbelow.claims place other hclaims))
  · rw [hget, hget]
    exact hbelow.quarantine other
  · rcases claims_promote.mp hclaims with hold | hnew
    · exact claims_promote.mpr (Or.inl (hbelow.claims place other hold))
    · exact claims_promote.mpr (Or.inr hnew)

/-- A temporary file for a body of the budget. -/
theorem Accounted.written (h : Accounted sha256 used budget fs) {body : Bytes} {state : File}
    (hused : used body) (hstate : state.data = body ∨ state.synced = false)
    (hmem : (Place.root, body) ∈ budget) :
    Accounted sha256 used budget (written fs (bodyId sha256 body) state) := by
  have hold : ∀ file < fs.fresh, (Spool.written fs (bodyId sha256 body) state).files file =
      fs.files file := fun file hfile => written_files_of_lt hfile
  have hfile : (Spool.written fs (bodyId sha256 body) state).files fs.fresh = state := written_files
  have hfresh : (Spool.written fs (bodyId sha256 body) state).fresh = fs.fresh + 1 := rfl
  have hcomplete : state.synced = false ∨ bodyId sha256 state.data = bodyId sha256 body := by
    rcases hstate with hdata | hsynced
    · exact Or.inr (by rw [hdata])
    · exact Or.inl hsynced
  have hcontents : state.synced = true → used state.data := by
    intro hsynced
    rcases hstate with hdata | hunsynced
    · rw [hdata]
      exact hused
    · rw [hunsynced] at hsynced
      cases hsynced
  rw [← hfile] at hcomplete hcontents
  have hsound : ∀ entries, Sound sha256 used fs.files fs.fresh entries → Sound sha256 used
      (Spool.written fs (bodyId sha256 body) state).files (fs.fresh + 1) entries :=
    fun entries hentries => hentries.agree hold (Nat.le_succ _)
  have hbelow : ∀ entries, Sound sha256 used fs.files fs.fresh entries →
      Below sha256 fs.files entries fs.entries →
      Below sha256 (Spool.written fs (bodyId sha256 body) state).files entries fs.entries :=
    fun entries hentries hunder => ⟨hunder.quarantine, fun place id hclaims =>
      (h.sound.claims_agree hold).mpr
        (hunder.claims place id ((hentries.claims_agree hold).mp hclaims))⟩
  refine ⟨h.consistent.change (.link (.root, .temporary (bodyId sha256 body)) fs.fresh), ?_, ?_, ?_⟩
  · intro change hchange
    rcases List.mem_append.mp hchange with hmem | hmem
    · exact h.touches change hmem
    · rw [List.mem_singleton.mp hmem]
      simp [Change.touches]
  · have houtcomes : (fs.change (.link (.root, .temporary (bodyId sha256 body)) fs.fresh)).Outcomes
        fun entries => Sound sha256 used (Spool.written fs (bodyId sha256 body) state).files
          (fs.fresh + 1) entries ∧ Below sha256 (Spool.written fs (bodyId sha256 body) state).files
            entries (Spool.written fs (bodyId sha256 body) state).entries := by
      refine h.outcomes.change (fun entries hentries => ?_) fun entries hentries => ?_
      · exact ⟨hsound _ hentries.1, (below_link (hbelow _ hentries.1 hentries.2) hcomplete).1⟩
      · exact ⟨(hsound _ hentries.1).insert_temporary (Nat.lt_succ_self _) hcontents hused,
          (below_link (hbelow _ hentries.1 hentries.2) hcomplete).2⟩
    exact houtcomes
  · intro place id hclaims
    rcases (claims_link hcomplete).mp hclaims with hclaims | ⟨rfl, rfl, -⟩
    · exact h.covers place id ((h.sound.claims_agree hold).mp hclaims)
    · exact ⟨body, hmem, rfl⟩

/-- A complete temporary file becomes an item. -/
private theorem sound_promote {files : ℕ → File} {fresh file : ℕ} {id : String}
    {entries : Table (Place × Name) ℕ} (h : Sound sha256 used files fresh entries)
    (hfresh : file < fresh) (hused : used (files file).data)
    (hsynced : (files file).synced = true) (hid : bodyId sha256 (files file).data = id) :
    Sound sha256 used files fresh
      ((entries.erase (.root, .temporary id)).insert (.root, .item id) file) :=
  (h.erase _).insert_item hfresh hused hsynced hid

private theorem touches_change {change : Change (Place × Name)}
    (h : ∀ other ∈ fs.unsynced, other.touches Place.root) (hchange : change.touches Place.root) :
    ∀ other ∈ (fs.change change).unsynced, other.touches Place.root := by
  intro other hother
  rcases List.mem_append.mp hother with hmem | hmem
  · exact h other hmem
  · rw [List.mem_singleton.mp hmem]
    exact hchange

theorem Accounted.promoted (h : Accounted sha256 used budget fs) {body : Bytes} {file : ℕ}
    (hfresh : file < fs.fresh) (hfile : fs.files file = { data := body, synced := true })
    (hused : used body) (hmem : (Place.root, body) ∈ budget) :
    Accounted sha256 used budget (fs.change (.move (.root, .temporary (bodyId sha256 body))
      (.root, .item (bodyId sha256 body)) file)) := by
  have hpromote : ∀ entries, Sound sha256 used fs.files fs.fresh entries →
      Sound sha256 used fs.files fs.fresh
        ((entries.erase (.root, .temporary (bodyId sha256 body))).insert
        (.root, .item (bodyId sha256 body)) file) := by
    intro entries hentries
    refine sound_promote hentries hfresh ?_ ?_ ?_
    · rw [hfile]
      exact hused
    · rw [hfile]
    · rw [hfile]
  refine ⟨h.consistent.change _, touches_change h.touches (by simp [Change.touches]), ?_, ?_⟩
  · refine h.outcomes.change (fun entries hentries => ?_) fun entries hentries => ?_
    · exact ⟨hentries.1, (below_promote hentries.2).1⟩
    · exact ⟨hpromote entries hentries.1, (below_promote hentries.2).2⟩
  · intro place id hclaims
    rcases claims_promote.mp hclaims with hclaims | ⟨rfl, rfl⟩
    · exact h.covers place id hclaims
    · exact ⟨body, hmem, rfl⟩

/-- Every state of the disk while a body of the budget is enqueued is accounted for. -/
theorem Accounted.partway (h : Accounted sha256 used budget fs) {body : Bytes} (hused : used body)
    (hmem : (Place.root, body) ∈ budget) (hpartway : Partway fs (bodyId sha256 body) body fs') :
    Accounted sha256 used budget fs' := by
  have hstored : Accounted sha256 used budget (stored fs (bodyId sha256 body) body) :=
    (h.written hused (Or.inl rfl) hmem).promoted (Nat.lt_succ_self _) written_files hused hmem
  cases hpartway with
  | unchanged => exact h
  | written hstate => exact h.written hused hstate hmem
  | stored => exact hstored
  | synced => exact hstored.covered.syncDir

/-- A file of the root that is removed. -/
theorem Covered.unlink (h : Covered sha256 used budget fs) (name : Name) :
    Covered sha256 used budget (fs.change (.unlink (.root, name))) where
  consistent := h.consistent.change _
  touches := touches_change h.touches (by simp [Change.touches])
  outcomes := h.outcomes.change (fun _ hentries => hentries) fun _ hentries =>
    ⟨hentries.1.erase _, fun place id hclaims => hentries.2 place id (claims_erase hclaims)⟩

/-- A complete temporary file that claims a part of the budget becomes an item. -/
theorem Covered.promoted (h : Covered sha256 used budget fs) {id : String} {file : ℕ}
    (hget : fs.entries.get? (.root, .temporary id) = some file)
    (hquarantine : fs.entries.get? (.quarantine, .item id) = none)
    (hsynced : (fs.files file).synced = true) (hid : bodyId sha256 (fs.files file).data = id) :
    Covered sha256 used budget
      (fs.change (.move (.root, .temporary id) (.root, .item id) file)) where
  consistent := h.consistent.change _
  touches := touches_change h.touches (by simp [Change.touches])
  outcomes := by
    refine h.outcomes.change (fun _ hentries => hentries) fun entries hentries => ⟨?_, ?_⟩
    · exact sound_promote hentries.1 (h.sound.numbered _ _ hget)
        (h.sound.contents _ _ hget hsynced) hsynced hid
    · intro place other hclaims
      rcases claims_promote.mp hclaims with hclaims | ⟨rfl, rfl⟩
      · exact hentries.2 place other hclaims
      · exact h.covers .root other (.promotable ⟨hquarantine, file, hget, Or.inr hid⟩)

/-! ### Removing and moving items -/

/-- The call never exceeds the capacity, and comes to rest. -/
def StaysWithin (sha256 : Digest32) (used : Bytes → Prop) (maxBytes : ℕ)
    (exec : Meaning (FileOp Place Name) (fun op => Except IoError op.Value) Disk)
    (action : Action α) (fs : Disk) : Prop :=
  action.Ensures exec (Bounded sha256 used maxBytes)
    (fun _ fs' => Rested sha256 used maxBytes fs') fs

theorem acknowledge_staysWithin (item : PendingItem) (h : Rested sha256 used maxBytes fs) :
    StaysWithin sha256 used maxBytes Exec (acknowledge item) fs := by
  obtain ⟨budget, hbudget, haccounted⟩ := id h
  refine ensures_attempt_bind fun result removed hexec => ?_
  change (result, removed) = fs.removeFile item.path at hexec
  unfold removeFile at hexec
  split at hexec
  · cases hexec
    exact ⟨h.bounded, ensures_pure h⟩
  · cases hexec
    have hunlinked := haccounted.covered.unlink (.item item.id)
    refine ⟨hunlinked.bounded hbudget, ensures_io fun result synced hexec => ?_⟩
    obtain ⟨rfl, rfl⟩ := hexec
    have hsynced : Rested sha256 used maxBytes
        ((fs.change (.unlink (.root, .item item.id))).syncDir .root) :=
      ⟨budget, hbudget, hunlinked.syncDir⟩
    exact ⟨hsynced.bounded, hsynced⟩

/-- The claim of an item goes to the quarantine with it. -/
private theorem Budget.moved {body : Bytes} (h : Budget used maxBytes budget)
    (hmem : (Place.root, body) ∈ budget) :
    Budget used maxBytes (insert (.quarantine, body) (budget.erase (.root, body))) := by
  refine ⟨fun claim hclaim => ?_, ?_⟩
  · rcases Finset.mem_insert.mp hclaim with rfl | hold
    · exact h.used (.root, body) hmem
    · exact h.used claim (Finset.mem_of_mem_erase hold)
  · have hsum : body.length + ∑ claim ∈ budget.erase (.root, body), claim.2.length =
        ∑ claim ∈ budget, claim.2.length :=
      Finset.add_sum_erase budget (fun claim => claim.2.length) hmem
    have hfits := h.fits
    by_cases hthere : (Place.quarantine, body) ∈ budget.erase (.root, body)
    · rw [Finset.insert_eq_of_mem hthere]
      omega
    · rw [Finset.sum_insert hthere, hsum]
      exact hfits

private theorem covers_moved {files : ℕ → File} {entries : Table (Place × Name) ℕ} {id : String}
    {file : ℕ} {body : Bytes} (hid : bodyId sha256 body = id)
    (hcovers : Covers sha256 files entries budget) :
    Covers sha256 files ((entries.erase (.root, .item id)).insert (.quarantine, .item id) file)
      (insert (.quarantine, body) (budget.erase (.root, body))) := by
  intro place other hclaims
  rcases claims_quarantine hclaims with ⟨rfl, rfl⟩ | ⟨hclaims, hne⟩
  · exact ⟨body, Finset.mem_insert_self .., hid⟩
  · obtain ⟨kept, hkept, hother⟩ := hcovers place other hclaims
    refine ⟨kept, Finset.mem_insert_of_mem (Finset.mem_erase.mpr ⟨?_, hkept⟩), hother⟩
    intro heq
    cases heq
    exact hne ⟨rfl, hother.symm.trans hid⟩

/-- Moving an item to the quarantine. -/
private theorem Covered.moved {id : String} {file : ℕ} (h : Covered sha256 used budget fs)
    (hbudget : Budget used maxBytes budget)
    (hget : fs.entries.get? (.root, .item id) = some file) :
    let moved := fs.change (.move (.root, .item id) (.quarantine, .item id) file)
    Bounded sha256 used maxBytes moved ∧ ∃ budget', Budget used maxBytes budget' ∧
      Accounted sha256 used budget' ((moved.syncDir .root).syncDir .quarantine) ∧
      Accounted sha256 used budget' (moved.syncDir .root) := by
  intro moved
  obtain ⟨hsynced, hbody⟩ := h.sound.items _ _ _ hget
  obtain ⟨body, hmem, hid⟩ := h.covers .root id (.item (by rw [hget]; rfl))
  have hsound : ∀ entries, Sound sha256 used fs.files fs.fresh entries →
      Sound sha256 used fs.files fs.fresh
        ((entries.erase (.root, .item id)).insert (.quarantine, .item id) file) :=
    fun entries hentries => (hentries.erase _).insert_item (h.sound.numbered _ _ hget)
      (h.sound.contents _ _ hget hsynced) hsynced hbody
  have hconsistent : moved.Consistent := h.consistent.change _
  have htouches : ∀ change ∈ moved.unsynced, change.touches Place.root :=
    touches_change h.touches (by simp [Change.touches])
  obtain ⟨hunsynced, hdurable⟩ := hconsistent.syncDir htouches
  refine ⟨⟨hconsistent, ?_⟩, _, hbudget.moved hmem, ?_, ?_⟩
  · refine h.outcomes.change (fun entries hentries => ?_) fun entries hentries => ?_
    · exact ⟨hentries.1, budget, hbudget, hentries.2⟩
    · exact ⟨hsound _ hentries.1, _, hbudget.moved hmem, covers_moved hid hentries.2⟩
  · refine accounted_of_durable ?_ ?_ (hsound _ h.sound) (covers_moved hid h.covers)
    · unfold FileSystem.syncDir at hunsynced ⊢
      dsimp only at hunsynced ⊢
      rw [hunsynced]
      rfl
    · change
        Change.applyAll ((moved.syncDir .root).unsynced.filter _) (moved.syncDir .root).durable =
        (moved.syncDir .root).entries
      rw [hunsynced]
      exact hdurable
  · exact accounted_of_durable hunsynced hdurable (hsound _ h.sound) (covers_moved hid h.covers)

theorem quarantine_staysWithin (item : PendingItem) (h : Rested sha256 used maxBytes fs) :
    StaysWithin sha256 used maxBytes Exec (quarantine item) fs := by
  obtain ⟨budget, hbudget, haccounted⟩ := id h
  refine ensures_exists h.bounded ?_
  split
  · exact acknowledge_staysWithin item h
  refine ensures_attempt_bind fun result renamed hexec => ?_
  change (result, renamed) = fs.rename item.path (.quarantine, .item item.id) at hexec
  unfold rename at hexec
  split at hexec
  · cases hexec
    refine ⟨h.bounded, ensures_exists h.bounded ?_⟩
    split
    · exact ensures_pure h
    · exact ensures_fail h
  · rename_i file hget
    cases hexec
    obtain ⟨hbounded, budget', hbudget', hended, hsynced⟩ := haccounted.covered.moved hbudget hget
    refine ⟨hbounded, ensures_io_bind fun result synced hexec => ?_⟩
    obtain ⟨rfl, rfl⟩ := hexec
    refine ⟨(Accounted.covered hsynced).bounded hbudget', ensures_io fun result ended hexec => ?_⟩
    obtain ⟨rfl, rfl⟩ := hexec
    exact ⟨(Accounted.covered hended).bounded hbudget', budget', hbudget', hended⟩

/-! ### Recovery -/

/-- Recovery promotes temporary files only whose contents are durable. -/
def PromotesSynced (op : FileOp Place Name) (fs : Disk) : Prop :=
  match op with
  | .rename source _ => ∀ file, fs.entries.get? source = some file → (fs.files file).synced = true
  | _ => True

private theorem removeTemporary_covered {id : String} {file : ℕ}
    (h : Covered sha256 used budget fs) (hbudget : Budget used maxBytes budget)
    (hget : fs.entries.get? (.root, .temporary id) = some file) :
    (io (.removeFile (.root, .temporary id))).Ensures (Meaning.when Exec PromotesSynced)
      (Bounded sha256 used maxBytes)
      (fun result fs' => result = .ok () ∧ Covered sha256 used budget fs' ∧ Cleared fs fs' id)
        fs := by
  refine ensures_io fun result removed hexec => ?_
  have hremove : fs.removeFile (.root, .temporary id) =
      (.ok (), fs.change (.unlink (.root, .temporary id))) := by
    unfold removeFile
    rw [hget]
  obtain ⟨rfl, rfl⟩ := Prod.mk.inj (Eq.trans hexec.1 hremove)
  have hunlinked := h.unlink (.temporary id)
  refine ⟨hunlinked.bounded hbudget, rfl, hunlinked, fun other => ?_⟩
  change (fs.entries.erase _).get? _ = _
  rw [Table.get?_erase]
  simp

private theorem ensures_exists_when {path : Place × Name} {f : Bool → Action β} {I : Disk → Prop}
    {Q : Except SpoolError β → Disk → Prop} {allowed : FileOp Place Name → Disk → Prop}
    (hinvariant : I fs)
    (h : (f (fs.dataAt path).isSome).Ensures (Meaning.when Exec allowed) I Q fs) :
    (pathExists path >>= f).Ensures (Meaning.when Exec allowed) I Q fs := by
  refine ensures_pathExists_bind fun result s' hexec => ?_
  obtain ⟨⟨rfl, rfl⟩, -⟩ := hexec
  refine ⟨hinvariant, ?_⟩
  have hresult : ((s'.dataAt path).elim (.error .notFound) fun data => .ok data.length :
      Except IoError ℕ).isOk = (s'.dataAt path).isSome := by
    cases s'.dataAt path <;> rfl
  rw [hresult]
  exact h

private theorem recoverTemporary_covered {id : String} {file : ℕ}
    (h : Covered sha256 used budget fs) (hbudget : Budget used maxBytes budget)
    (hget : fs.entries.get? (.root, .temporary id) = some file) :
    (recoverTemporary sha256 id).Ensures (Meaning.when Exec PromotesSynced)
      (Bounded sha256 used maxBytes)
      (fun result fs' => result = .ok () ∧ Covered sha256 used budget fs' ∧ Cleared fs fs' id)
        fs := by
  have hbounded : Bounded sha256 used maxBytes fs := h.bounded hbudget
  refine ensures_exists_when hbounded ?_
  split
  · exact removeTemporary_covered h hbudget hget
  refine ensures_exists_when hbounded ?_
  split
  · exact removeTemporary_covered h hbudget hget
  rename_i hquarantine
  have hnone : fs.entries.get? (.quarantine, .item id) = none := by
    simpa [dataAt] using hquarantine
  refine ensures_io_bind fun result unchanged hexec => ?_
  obtain ⟨⟨rfl, rfl⟩, -⟩ := hexec
  have hdata : unchanged.dataAt (.root, .temporary id) = some (unchanged.files file).data := by
    unfold dataAt
    rw [hget, Option.map_some]
  refine ⟨hbounded, ?_⟩
  rw [hdata]
  dsimp only [Option.elim_some]
  split
  · rename_i hid
    refine ensures_io fun result moved hexec => ?_
    have hrename : unchanged.rename (.root, .temporary id) (.root, .item id) =
        (.ok (), unchanged.change (.move (.root, .temporary id) (.root, .item id) file)) := by
      unfold rename
      rw [hget]
    obtain ⟨rfl, rfl⟩ := Prod.mk.inj (Eq.trans hexec.1 hrename)
    have hpromoted := h.promoted hget hnone (hexec.2 file hget) hid
    refine ⟨hpromoted.bounded hbudget, rfl, hpromoted, fun other => ?_⟩
    change ((unchanged.entries.erase _).insert _ _).get? _ = _
    rw [Table.get?_insert_of_ne _ _ (by simp), Table.get?_erase]
    simp
  · exact removeTemporary_covered h hbudget hget

private theorem recoverEntries_covered {start : Disk} (names : List (Name × ℕ)) (changed : Bool)
    (h : Covered sha256 used budget fs) (hbudget : Budget used maxBytes budget)
    (hnodup : (names.map Prod.fst).Nodup)
    (hpresent : ∀ id, .temporary id ∈ names.map Prod.fst →
      (fs.entries.get? (.root, .temporary id)).isSome)
    (hchanged : changed = false → fs = start) :
    (recoverEntries sha256 names changed).Ensures (Meaning.when Exec PromotesSynced)
      (Bounded sha256 used maxBytes)
      (fun result fs' => ∃ changed, result = .ok changed ∧ Covered sha256 used budget fs' ∧
        (changed = false → fs' = start)) fs := by
  induction names generalizing fs changed with
  | nil => exact ensures_pure ⟨changed, rfl, h, hchanged⟩
  | cons entry rest ih =>
    obtain ⟨name, length⟩ := entry
    obtain ⟨hfirst, hrest⟩ := List.nodup_cons.mp hnodup
    have hskip :=
      ih changed h hrest (fun id hid => hpresent id (List.mem_cons_of_mem _ hid)) hchanged
    cases name with
    | item id => exact hskip
    | temporary id =>
      rw [recoverEntries]
      split
      · obtain ⟨file, hget⟩ := Option.isSome_iff_exists.mp (hpresent id (List.mem_cons_self ..))
        refine ensures_bind ((recoverTemporary_covered h hbudget hget).mono (fun _ hI => hI) ?_)
        rintro result cleared ⟨rfl, hcovered, hcleared⟩
        refine ih true hcovered hrest (fun other hother => ?_) fun h => by cases h
        have hne : other ≠ id := by
          rintro rfl
          exact hfirst hother
        rw [hcleared other, if_neg hne]
        exact hpresent other (List.mem_cons_of_mem _ hother)
      · exact hskip

theorem openSpool_staysWithin (h : Rested sha256 used maxBytes fs) :
    StaysWithin sha256 used maxBytes (Meaning.when Exec PromotesSynced) (openSpool sha256) fs := by
  obtain ⟨budget, hbudget, haccounted⟩ := id h
  refine ensures_io_bind fun result unchanged hexec => ?_
  obtain ⟨⟨rfl, names, hperm, rfl⟩, -⟩ := hexec
  refine ⟨h.bounded, ?_⟩
  have hnames : ∀ name, name ∈ names.map Prod.fst ↔
      (unchanged.entries.get? (.root, name)).isSome := by
    intro name
    rw [(hperm.map Prod.fst).mem_iff, mem_listing]
  have hnodup : (names.map Prod.fst).Nodup :=
    (hperm.map Prod.fst).nodup_iff.mpr (nodup_listing ..)
  refine ensures_bind ((recoverEntries_covered names false haccounted.covered hbudget hnodup
    (fun id hid => (hnames _).mp hid) fun _ => rfl).mono (fun _ hI => hI) ?_)
  rintro result recovered ⟨changed, rfl, hcovered, hstart⟩
  dsimp only
  split
  · refine ensures_io fun result synced hexec => ?_
    obtain ⟨⟨rfl, rfl⟩, -⟩ := hexec
    have hsynced : Rested sha256 used maxBytes (recovered.syncDir .root) :=
      ⟨budget, hbudget, hcovered.syncDir⟩
    exact ⟨hsynced.bounded, hsynced⟩
  · rename_i hchanged
    rw [hstart (by simpa using hchanged)]
    exact ensures_pure h

/-! ### Enqueuing -/

/-- A temporary file was left behind that may be promoted as a new item. -/
def LeftOver (sha256 : Digest32) (fs : Disk) (id : String) : Prop :=
  fs.entries.get? (.root, .item id) = none ∧ Promotable sha256 fs.files fs.entries id

/-- A new file for the body, and whatever was left behind, fit beside the items. -/
def Roomy (sha256 : Digest32) (used : Bytes → Prop) (maxBytes : ℕ) (fs : Disk) (body : Bytes) :
    Prop :=
  fs.entries.get? (.root, .temporary (bodyId sha256 body)) = none →
    ∀ left : Finset Bytes, left.Nonempty →
      (∀ other ∈ left, used other ∧ LeftOver sha256 fs (bodyId sha256 other)) →
      storedBytes fs + ∑ other ∈ left, other.length + body.length ≤ maxBytes

/-- A file is created only where there is room. -/
def CreatesRoomy (sha256 : Digest32) (used : Bytes → Prop) (maxBytes : ℕ) (body : Bytes)
    (op : FileOp Place Name) (fs : Disk) : Prop :=
  match op with
  | .createNew _ => Roomy sha256 used maxBytes fs body
  | _ => True

/-- Where there is room, the body gets a budget. -/
private theorem Accounted.admit {body : Bytes} (h : Accounted sha256 used budget fs)
    (hbudget : Budget used maxBytes budget) (hused : used body)
    (hfits : storedBytes fs + body.length ≤ maxBytes)
    (hfree : fs.entries.get? (.root, .temporary (bodyId sha256 body)) = none)
    (hroomy : Roomy sha256 used maxBytes fs body) :
    ∃ budget', Budget used maxBytes budget' ∧ Accounted sha256 used budget' fs ∧
      (Place.root, body) ∈ budget' := by
  classical
  let left := ((budget.filter fun claim => claim.1 = .root).image Prod.snd).filter
    fun other => LeftOver sha256 fs (bodyId sha256 other)
  let held := (heldBodies fs.files fs.entries).toFinset
  let budget' := insert (Place.root, body) (held ∪ left.image (Prod.mk Place.root))
  have hleft : ∀ other ∈ left, used other ∧ LeftOver sha256 fs (bodyId sha256 other) := by
    intro other hother
    obtain ⟨hmem, hover⟩ := Finset.mem_filter.mp hother
    obtain ⟨claim, hclaim, rfl⟩ := Finset.mem_image.mp hmem
    exact ⟨hbudget.used claim (Finset.mem_filter.mp hclaim).1, hover⟩
  have hsum : storedBytes fs + ∑ other ∈ left, other.length + body.length ≤ maxBytes := by
    by_cases hempty : left.Nonempty
    · exact hroomy hfree left hempty hleft
    · rw [Finset.not_nonempty_iff_eq_empty.mp hempty, Finset.sum_empty]
      exact hfits
  have himage : ∑ claim ∈ left.image (Prod.mk Place.root), claim.2.length =
      ∑ other ∈ left, other.length :=
    Finset.sum_image fun _ _ _ _ heq => (Prod.mk.inj heq).2
  have hunion : ∑ claim ∈ held ∪ left.image (Prod.mk Place.root), claim.2.length ≤
      ∑ claim ∈ held, claim.2.length + ∑ other ∈ left, other.length := by
    have hinter : ∑ claim ∈ held ∪ left.image (Prod.mk Place.root), claim.2.length +
        ∑ claim ∈ held ∩ left.image (Prod.mk Place.root), claim.2.length =
          ∑ claim ∈ held, claim.2.length +
            ∑ claim ∈ left.image (Prod.mk Place.root), claim.2.length :=
      Finset.sum_union_inter
    rw [himage] at hinter
    omega
  have hstored : storedBytes fs = ∑ claim ∈ held, claim.2.length := h.sound.storedBytes_eq_sum
  have hbound : ∑ claim ∈ budget', claim.2.length ≤ maxBytes := by
    by_cases hthere : (Place.root, body) ∈ held ∪ left.image (Prod.mk Place.root)
    · rw [show budget' = _ from Finset.insert_eq_of_mem hthere]
      omega
    · have hinsert : ∑ claim ∈ budget', claim.2.length = body.length +
          ∑ claim ∈ held ∪ left.image (Prod.mk Place.root), claim.2.length :=
        Finset.sum_insert hthere
      omega
  refine ⟨budget', ⟨fun claim hclaim => ?_, hbound⟩, ⟨h.consistent, h.touches, h.outcomes, ?_⟩,
    Finset.mem_insert_self ..⟩
  · rcases Finset.mem_insert.mp hclaim with rfl | hold
    · exact hused
    · rcases Finset.mem_union.mp hold with hheld | hover
      · exact (h.sound.mem_heldBodies (List.mem_toFinset.mp hheld)).1
      · obtain ⟨other, hother, rfl⟩ := Finset.mem_image.mp hover
        exact (hleft other hother).1
  · intro place id hclaims
    by_cases hitem : (fs.entries.get? (place, .item id)).isSome
    · obtain ⟨file, hget⟩ := Option.isSome_iff_exists.mp hitem
      obtain ⟨hsynced, hid⟩ := h.sound.items place id file hget
      have hmem : (place, (fs.files file).data) ∈ held := by
        refine List.mem_toFinset.mpr (List.mem_filterMap.mpr
          ⟨((place, .item id), file), Table.get?_eq_some_iff.mp hget, ?_⟩)
        rw [← hid]
        exact congrArg (Option.map _) (itemId?_bodyId sha256 _)
      exact ⟨_, Finset.mem_insert_of_mem (Finset.mem_union_left _ hmem), hid⟩
    · rcases hclaims with hpresent | hpromotable
      · exact absurd hpresent hitem
      · obtain ⟨other, hother, hid⟩ := h.covers .root id (.promotable hpromotable)
        have hover : LeftOver sha256 fs (bodyId sha256 other) := by
          rw [hid]
          exact ⟨by simpa using hitem, hpromotable⟩
        have hmem : other ∈ left := Finset.mem_filter.mpr
          ⟨Finset.mem_image.mpr ⟨_, Finset.mem_filter.mpr ⟨hother, rfl⟩, rfl⟩, hover⟩
        exact ⟨other, Finset.mem_insert_of_mem (Finset.mem_union_right _
          (Finset.mem_image_of_mem _ hmem)), hid⟩

section Faulty

variable {faults : FileOp Place Name → Prop} {body : Bytes}

private theorem ensures_look {path : Place × Name} {f : Bool → Action β} {I : Disk → Prop}
    {Q : Except SpoolError β → Disk → Prop} {allowed : FileOp Place Name → Disk → Prop}
    (hinvariant : I fs)
    (h : ∀ found, (f found).Ensures (Meaning.when (ExecWith faults) allowed) I Q fs) :
    (pathExists path >>= f).Ensures (Meaning.when (ExecWith faults) allowed) I Q fs := by
  refine ensures_pathExists_bind fun result s' hexec => ?_
  have hsame : s' = fs := by
    rcases hexec.1 with hdone | ⟨-, hfails⟩
    · exact hdone.1
    · obtain ⟨-, -, hsame⟩ := hfails
      exact hsame
  rw [hsame]
  exact ⟨hinvariant, h _⟩

private theorem ensures_count {place : Place} {f : SpoolStats → Action β} {I : Disk → Prop}
    {Q : Except SpoolError β → Disk → Prop} {allowed : FileOp Place Name → Disk → Prop}
    (hinvariant : I fs) (hfails : ∀ e, Q (.error (.io e)) fs)
    (h : (f (statsAt fs place)).Ensures (Meaning.when (ExecWith faults) allowed) I Q fs) :
    (directoryStats place >>= f).Ensures (Meaning.when (ExecWith faults) allowed) I Q fs := by
  refine ensures_bind (ensures_io_bind fun result s' hexec => ?_)
  rcases hexec.1 with ⟨rfl, names, hperm, rfl⟩ | ⟨-, e, rfl, rfl⟩
  · refine ⟨hinvariant, ensures_pure ?_⟩
    rw [statsAt_of_perm hperm]
    exact h
  · exact ⟨hinvariant, hfails e⟩

/-- Where there is no room, or the temporary file is there, or the check fails, enqueuing
changes nothing. -/
private theorem enqueue_blocked (hblocked : Exceeds maxBytes fs body ∨
      fs.entries.get? (.root, .temporary (bodyId sha256 body)) ≠ none ∨
      ¬Roomy sha256 used maxBytes fs body) :
    (enqueue sha256 maxBytes body).Ensures
      (Meaning.when (ExecWith faults) (CreatesRoomy sha256 used maxBytes body)) (· = fs)
      (fun _ fs' => fs' = fs) fs := by
  refine ensures_look rfl fun found => ?_
  split
  · exact ensures_pure rfl
  refine ensures_look rfl fun found => ?_
  split
  · exact ensures_pure rfl
  refine ensures_count rfl (fun _ => rfl) (ensures_count rfl (fun _ => rfl) ?_)
  dsimp only
  split
  · exact ensures_fail rfl
  · rename_i hfits
    refine ensures_io_bind fun result created hexec => ?_
    rcases hexec.1 with hcreated | ⟨-, e, rfl, rfl⟩
    · rcases hblocked with hexceeds | hoccupied | hcramped
      · exact absurd hexceeds hfits
      · change (result, created) = fs.createNew _ at hcreated
        unfold createNew at hcreated
        split at hcreated
        · cases hcreated
          exact ⟨rfl, rfl⟩
        · rename_i hnone
          exact absurd hnone hoccupied
      · exact absurd hexec.2 hcramped
    · exact ⟨rfl, rfl⟩

/-- An enqueue ends with one of the states on its way. -/
private theorem partway_of_outcome {result : Except SpoolError String}
    (h : EnqueueOutcome faults sha256 maxBytes fs body result fs') :
    Partway fs (bodyId sha256 body) body fs' := by
  cases h with
  | kept _ => exact .unchanged
  | unlisted _ => exact .unchanged
  | full _ _ => exact .unchanged
  | stored _ _ hstored =>
    cases hstored with
    | occupied _ => exact .unchanged
    | uncreated _ => exact .unchanged
    | unwritten _ _ => exact .written (Or.inr rfl)
    | unsynced _ _ => exact .written (Or.inl rfl)
    | unmoved _ _ => exact .written (Or.inl rfl)
    | undurable _ _ => exact .stored
    | done _ => exact .synced

theorem enqueue_staysWithin (hmax : maxBytes < 2 ^ 64 - 1) (hused : used body)
    (h : Rested sha256 used maxBytes fs) :
    StaysWithin sha256 used maxBytes
      (Meaning.when (ExecWith faults) (CreatesRoomy sha256 used maxBytes body))
      (enqueue sha256 maxBytes body) fs := by
  by_cases hblocked : Exceeds maxBytes fs body ∨
      fs.entries.get? (.root, .temporary (bodyId sha256 body)) ≠ none ∨
      ¬Roomy sha256 used maxBytes fs body
  · refine (enqueue_blocked hblocked).mono ?_ ?_
    · rintro fs' rfl
      exact h.bounded
    · rintro result fs' rfl
      exact h
  · simp only [not_or, Decidable.not_not, ne_eq] at hblocked
    obtain ⟨hfits, hfree, hroomy⟩ := hblocked
    obtain ⟨budget, hbudget, haccounted⟩ := h
    obtain ⟨budget', hbudget', haccounted', hmem⟩ := haccounted.admit hbudget hused
      (fits_of_not_exceeds hmax hfits) hfree (Classical.not_not.mp hroomy)
    have houtcome : (enqueue sha256 maxBytes body).Ensures (ExecWith faults)
        (Partway fs (bodyId sha256 body) body) (EnqueueOutcome faults sha256 maxBytes fs body) fs :=
      enqueue_outcome sha256 maxBytes
    refine Action.Ensures.mono (Always.anti (fun _ _ _ _ hexec => hexec.1) houtcome) ?_ ?_
    · intro fs' hpartway
      exact (haccounted'.partway hused hmem hpartway).covered.bounded hbudget'
    · intro result fs' houtcome
      exact ⟨budget', hbudget', haccounted'.partway hused hmem (partway_of_outcome houtcome)⟩

end Faulty

end MongoDam.Spool
