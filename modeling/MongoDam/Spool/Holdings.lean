import MongoDam.Spool.DurableSpool

/-!
# What a spool holds

The holdings of a spool are the bodies under each id, pending or in quarantine:
what the spool is for, without files. Every call changes them in one step. Below
it stand the rules for running the programs of the calls and the effect of each
file system change on the holdings.
-/

namespace MongoDam.Spool

open Lib

/-- The bodies a spool holds, by directory and id. -/
abbrev Holdings := Place → String → Option Bytes

namespace Holdings

def set (held : Holdings) (place : Place) (id : String) (body : Option Bytes) : Holdings :=
  fun p i => if p = place ∧ i = id then body else held p i

/-- Something is held under the id. -/
def Has (held : Holdings) (id : String) : Prop :=
  (held .root id).isSome ∨ (held .quarantine id).isSome

instance (held : Holdings) (id : String) : Decidable (held.Has id) :=
  inferInstanceAs (Decidable (_ ∨ _))

def enqueue (sha256 : Digest32) (held : Holdings) (body : Bytes) : Holdings :=
  if held.Has (bodyId sha256 body) then held
  else held.set .root (bodyId sha256 body) (some body)

def acknowledge (held : Holdings) (id : String) : Holdings := held.set .root id none

def quarantine (held : Holdings) (id : String) : Holdings :=
  match held .quarantine id with
  | some _ => held.acknowledge id
  | none =>
    match held .root id with
    | none => held
    | some body => (held.set .root id none).set .quarantine id (some body)

/-- Complete temporary files may have become items that were not there. -/
structure Recovered (sha256 : Digest32) (used : Bytes → Prop) (held held' : Holdings) : Prop where
  quarantine : held' .quarantine = held .quarantine
  root : ∀ id, held' .root id = held .root id ∨
    (¬held.Has id ∧ ∃ body, held' .root id = some body ∧ bodyId sha256 body = id ∧ used body)

@[simp] theorem set_set (held : Holdings) (place : Place) (id : String)
    (body other : Option Bytes) :
    (held.set place id body).set place id other = held.set place id other := by
  funext p i
  unfold set
  split <;> rfl

theorem set_of_ne (held : Holdings) {place p : Place} {id i : String} (body : Option Bytes)
    (h : i ≠ id) : held.set place id body p i = held p i :=
  if_neg fun heq => h heq.2

@[simp] theorem set_self (held : Holdings) (place : Place) (id : String) (body : Option Bytes) :
    held.set place id body place id = body := if_pos ⟨rfl, rfl⟩

/-- Moving an item to the quarantine twice is moving it once. -/
theorem move_move (held : Holdings) (id : String) (body : Option Bytes) :
    (((held.set .root id none).set .quarantine id body).set .root id none).set .quarantine id body =
      (held.set .root id none).set .quarantine id body := by
  funext place i
  by_cases h : i = id
  · cases place <;> simp [set, h]
  · cases place <;> simp [set, h]

theorem set_of_eq {held : Holdings} {place : Place} {id : String} {body : Option Bytes}
    (h : held place id = body) : held.set place id body = held := by
  funext p i
  unfold set
  split
  · rename_i heq
    rw [heq.1, heq.2, h]
  · rfl

theorem Recovered.refl (sha256 : Digest32) (used : Bytes → Prop) (held : Holdings) :
    Recovered sha256 used held held :=
  ⟨rfl, fun _ => Or.inl rfl⟩

/-- One more recovered item. -/
theorem Recovered.set {sha256 : Digest32} {used : Bytes → Prop} {held held' : Holdings}
    (h : Recovered sha256 used held held') {body : Bytes} (hused : used body)
    (habsent : ¬held.Has (bodyId sha256 body)) :
    Recovered sha256 used held (held'.set .root (bodyId sha256 body) (some body)) := by
  refine ⟨?_, fun id => ?_⟩
  · rw [← h.quarantine]
    funext id
    exact if_neg fun heq => Place.noConfusion heq.1
  · by_cases hid : id = bodyId sha256 body
    · right
      subst hid
      exact ⟨habsent, body, set_self .., rfl, hused⟩
    · rw [set_of_ne _ _ hid]
      exact h.root id

end Holdings

/-! ### Running actions -/

section Rules

open Program

variable {α β σ : Type}
  (exec : Meaning (FileOp Place Name) (fun op => Except IoError op.Value) σ) (I : σ → Prop)

/-- After every operation of the action `I` holds, and its result satisfies `Q`. -/
def Action.Ensures (Q : Except SpoolError α → σ → Prop) (action : Action α) (s : σ) : Prop :=
  Always exec I Q action s

variable {exec I}

theorem Action.Ensures.mono {J : σ → Prop} {Q R : Except SpoolError α → σ → Prop}
    {action : Action α} {s : σ} (h : action.Ensures exec I Q s) (hI : ∀ s, I s → J s)
    (hQ : ∀ result s, Q result s → R result s) : action.Ensures exec J R s :=
  Always.mono hI hQ h

theorem ensures_pure {Q : Except SpoolError α → σ → Prop} {value : α} {s : σ}
    (h : Q (.ok value) s) : (pure value : Action α).Ensures exec I Q s := h

theorem ensures_fail {Q : Except SpoolError α → σ → Prop} {error : SpoolError} {s : σ}
    (h : Q (.error error) s) : (Action.fail error : Action α).Ensures exec I Q s := h

/-- Go on where the first action ended. -/
theorem ensures_bind {Q : Except SpoolError β → σ → Prop} {action : Action α}
    {f : α → Action β} {s : σ}
    (h : action.Ensures exec I (fun result s => match result with
      | .ok value => (f value).Ensures exec I Q s
      | .error error => Q (.error error) s) s) :
    (action >>= f).Ensures exec I Q s := by
  refine always_bind (h.mono (fun _ => id) fun result s hresult => ?_)
  cases result with
  | ok value => exact hresult
  | error error => exact hresult

theorem ensures_io {op : FileOp Place Name} {Q : Except SpoolError op.Value → σ → Prop} {s : σ}
    (h : ∀ result s', exec op s result s' → I s' ∧ Q (result.mapError .io) s') :
    (io op).Ensures exec I Q s := h

theorem ensures_io_bind {op : FileOp Place Name} {f : op.Value → Action β}
    {Q : Except SpoolError β → σ → Prop} {s : σ}
    (h : ∀ result s', exec op s result s' → I s' ∧ match result with
      | .ok value => (f value).Ensures exec I Q s'
      | .error error => Q (.error (.io error)) s') :
    (io op >>= f).Ensures exec I Q s := by
  refine ensures_bind (ensures_io fun result s' hexec => ?_)
  obtain ⟨hinvariant, hrest⟩ := h result s' hexec
  cases result with
  | ok value => exact ⟨hinvariant, hrest⟩
  | error error => exact ⟨hinvariant, hrest⟩

theorem ensures_attempt_bind {op : FileOp Place Name} {f : Except IoError op.Value → Action β}
    {Q : Except SpoolError β → σ → Prop} {s : σ}
    (h : ∀ result s', exec op s result s' → I s' ∧ (f result).Ensures exec I Q s') :
    (attempt op >>= f).Ensures exec I Q s := h

theorem ensures_pathExists_bind {path : Place × Name} {f : Bool → Action β}
    {Q : Except SpoolError β → σ → Prop} {s : σ}
    (h : ∀ result s', exec (.metadata path) s result s' →
      I s' ∧ (f result.isOk).Ensures exec I Q s') :
    (pathExists path >>= f).Ensures exec I Q s := h

end Rules

/-! ### Entries and holdings -/

section Entries

variable (files : ℕ → File) (entries : Table (Place × Name) ℕ)

/-- What the item files hold. -/
def holdings : Holdings :=
  fun place id => (entries.get? (place, .item id)).map fun file => (files file).data

variable {files entries}

theorem holdings_eq_some {place : Place} {id : String} {body : Bytes} :
    holdings files entries place id = some body ↔
      ∃ file, entries.get? (place, .item id) = some file ∧ (files file).data = body := by
  simp [holdings]

@[simp] theorem holdings_insert_temporary (id : String) (file : ℕ) :
    holdings files (entries.insert (.root, .temporary id) file) = holdings files entries := by
  funext place i
  unfold holdings
  rw [Table.get?_insert_of_ne _ _ (by simp)]

@[simp] theorem holdings_erase_temporary (id : String) :
    holdings files (entries.erase (.root, .temporary id)) = holdings files entries := by
  funext place i
  unfold holdings
  rw [Table.get?_erase_of_ne _ (by simp)]

@[simp] theorem holdings_insert_item (place : Place) (id : String) (file : ℕ) :
    holdings files (entries.insert (place, .item id) file) =
      (holdings files entries).set place id (some (files file).data) := by
  funext p i
  unfold holdings Holdings.set
  rw [Table.get?_insert]
  by_cases h : p = place ∧ i = id
  · simp [h]
  · simp [h]

@[simp] theorem holdings_erase_item (place : Place) (id : String) :
    holdings files (entries.erase (place, .item id)) =
      (holdings files entries).set place id none := by
  funext p i
  unfold holdings Holdings.set
  rw [Table.get?_erase]
  by_cases h : p = place ∧ i = id
  · simp [h]
  · simp [h]

/-- All files are numbered below `fresh`, and the item files are synced. -/
def Firm (files : ℕ → File) (fresh : ℕ) (entries : Table (Place × Name) ℕ) : Prop :=
  ∀ place name file, entries.get? (place, name) = some file →
    file < fresh ∧ ∀ id, name = .item id → (files file).synced = true

/-- The item files are firm, and what they hold is allowed. -/
def Stored (allowed : Holdings → Prop) (files : ℕ → File) (fresh : ℕ)
    (entries : Table (Place × Name) ℕ) : Prop :=
  Firm files fresh entries ∧ allowed (holdings files entries)

variable {allowed : Holdings → Prop} {fresh : ℕ}

theorem Firm.insert (h : Firm files fresh entries) {place : Place} {name : Name} {file : ℕ}
    (hfresh : file < fresh) (hsynced : ∀ id, name = .item id → (files file).synced = true) :
    Firm files fresh (entries.insert (place, name) file) := by
  intro p n f hget
  rw [Table.get?_insert] at hget
  split at hget
  · rename_i heq
    cases hget
    cases heq
    exact ⟨hfresh, hsynced⟩
  · exact h p n f hget

theorem Firm.erase (h : Firm files fresh entries) (path : Place × Name) :
    Firm files fresh (entries.erase path) := by
  intro p n f hget
  rw [Table.get?_erase] at hget
  split at hget
  · cases hget
  · exact h p n f hget

/-- Files that no entry refers to do not matter. -/
theorem Firm.holdings_eq {files' : ℕ → File} (h : Firm files fresh entries)
    (hfiles : ∀ file < fresh, files' file = files file) :
    holdings files' entries = holdings files entries := by
  funext place id
  unfold holdings
  cases hget : entries.get? (place, .item id) with
  | none => rfl
  | some file =>
    rw [Option.map_some, Option.map_some, hfiles file (h place (.item id) file hget).1]

theorem Stored.agree {files' : ℕ → File} {fresh' : ℕ} (h : Stored allowed files fresh entries)
    (hfiles : ∀ file < fresh, files' file = files file) (hfresh : fresh ≤ fresh') :
    Stored allowed files' fresh' entries := by
  obtain ⟨hfirm, hallowed⟩ := h
  refine ⟨fun place name file hget => ?_, hfirm.holdings_eq hfiles ▸ hallowed⟩
  obtain ⟨hlt, hsynced⟩ := hfirm place name file hget
  exact ⟨Nat.lt_of_lt_of_le hlt hfresh, fun id hname => hfiles file hlt ▸ hsynced id hname⟩

/-- A new temporary file. -/
theorem Stored.link_temporary (h : Stored allowed files fresh entries) (id : String) {file : ℕ}
    (hfresh : file < fresh) :
    Stored allowed files fresh ((Change.link (.root, .temporary id) file).apply entries) := by
  refine ⟨h.1.insert hfresh nofun, ?_⟩
  change allowed (holdings files (entries.insert _ _))
  rw [holdings_insert_temporary]
  exact h.2

/-- A temporary file that is removed. -/
theorem Stored.unlink_temporary (h : Stored allowed files fresh entries) (id : String) :
    Stored allowed files fresh ((Change.unlink (.root, .temporary id)).apply entries) := by
  refine ⟨h.1.erase _, ?_⟩
  change allowed (holdings files (entries.erase _))
  rw [holdings_erase_temporary]
  exact h.2

/-- A temporary file that becomes an item. -/
theorem Stored.move_temporary (h : Stored allowed files fresh entries) {id : String} {file : ℕ}
    (hfresh : file < fresh) (hsynced : (files file).synced = true)
    (hallowed : ∀ held, allowed held → allowed (held.set .root id (some (files file).data))) :
    Stored allowed files fresh
      ((Change.move (.root, .temporary id) (.root, .item id) file).apply entries) := by
  refine ⟨(h.1.erase _).insert hfresh fun _ _ => hsynced, ?_⟩
  change allowed (holdings files ((entries.erase _).insert _ _))
  rw [holdings_insert_item, holdings_erase_temporary]
  exact hallowed _ h.2

/-- An item that is removed. -/
theorem Stored.unlink_item (h : Stored allowed files fresh entries) {id : String}
    (hallowed : ∀ held, allowed held → allowed (held.set .root id none)) :
    Stored allowed files fresh ((Change.unlink (.root, .item id)).apply entries) := by
  refine ⟨h.1.erase _, ?_⟩
  change allowed (holdings files (entries.erase _))
  rw [holdings_erase_item]
  exact hallowed _ h.2

/-- An item that goes to the quarantine. -/
theorem Stored.move_item (h : Stored allowed files fresh entries) {id : String} {file : ℕ}
    (hfresh : file < fresh) (hsynced : (files file).synced = true)
    (hallowed : ∀ held, allowed held →
      allowed ((held.set .root id none).set .quarantine id (some (files file).data))) :
    Stored allowed files fresh
      ((Change.move (.root, .item id) (.quarantine, .item id) file).apply entries) := by
  refine ⟨(h.1.erase _).insert hfresh fun _ _ => hsynced, ?_⟩
  change allowed (holdings files ((entries.erase _).insert _ _))
  rw [holdings_insert_item, holdings_erase_item]
  exact hallowed _ h.2

end Entries

/-! ### States between calls -/

/-- The file system of a spool. -/
abbrev Disk := FileSystem (Place × Name)

/-- What a disk holds. -/
def held (fs : Disk) : Holdings := holdings fs.files fs.entries

/-- Synced files hold bodies that are in use. -/
def Clean (used : Bytes → Prop) (fs : Disk) : Prop :=
  ∀ file, (fs.files file).synced = true → used (fs.files file).data

/-- Everything is durable. -/
structure Settled (used : Bytes → Prop) (fs : Disk) : Prop where
  unsynced : fs.unsynced = []
  durable : fs.durable = fs.entries
  files : ∀ path file, fs.entries.get? path = some file →
    file < fs.fresh ∧ (fs.files file).synced = true
  clean : Clean used fs

/-- What the disk holds is allowed, now and after a crash. -/
structure Safe (used : Bytes → Prop) (allowed : Holdings → Prop) (fs : Disk) : Prop where
  invariant : fs.CrashInvariant (Stored allowed fs.files fs.fresh)
  clean : Clean used fs

variable {used : Bytes → Prop} {fs fs' : Disk} {allowed : Holdings → Prop}

theorem Clean.setFile (h : Clean used fs) {file : ℕ} {state : File}
    (hstate : state.synced = true → used state.data) : Clean used (fs.setFile file state) := by
  intro other hother
  by_cases heq : other = file
  · subst heq
    rw [FileSystem.setFile_files] at hother ⊢
    exact hstate hother
  · rw [FileSystem.setFile_files_ne _ _ heq] at hother ⊢
    exact h other hother

theorem Settled.firm (h : Settled used fs) : Firm fs.files fs.fresh fs.entries := by
  intro place name file hget
  obtain ⟨hfresh, hsynced⟩ := h.files _ _ hget
  exact ⟨hfresh, fun _ _ => hsynced⟩

theorem Settled.stored (h : Settled used fs) (hallowed : allowed (held fs)) :
    Stored allowed fs.files fs.fresh fs.entries :=
  ⟨h.firm, hallowed⟩

/-- Syncing the root when every change concerns it makes everything durable. -/
theorem settled_syncDir (hconsistent : fs.Consistent)
    (htouches : ∀ change ∈ fs.unsynced, change.touches Place.root)
    (hfiles : ∀ path file, fs.entries.get? path = some file →
      file < fs.fresh ∧ (fs.files file).synced = true) (hclean : Clean used fs) :
    Settled used (fs.syncDir .root) := by
  obtain ⟨hunsynced, hdurable⟩ := hconsistent.syncDir htouches
  exact ⟨hunsynced, hdurable, hfiles, hclean⟩

/-- Syncing a directory again changes nothing. -/
theorem Settled.syncDir (h : Settled used fs) (place : Place) :
    Settled used (fs.syncDir place) := by
  refine ⟨?_, ?_, h.files, h.clean⟩
  · unfold FileSystem.syncDir
    rw [h.unsynced]
    rfl
  · unfold FileSystem.syncDir
    rw [h.unsynced]
    exact h.durable

theorem Settled.safe (h : Settled used fs) (hallowed : allowed (held fs)) :
    Safe used allowed fs := by
  have hstored := h.stored hallowed
  refine ⟨⟨hstored, h.durable ▸ hstored, fun change hchange => ?_⟩, h.clean⟩
  rw [h.unsynced] at hchange
  cases hchange

theorem Safe.held (h : Safe used allowed fs) : allowed (held fs) := h.invariant.now.2

theorem Safe.change {change : Change (Place × Name)} (h : Safe used allowed fs)
    (hkeeps : ∀ entries, Stored allowed fs.files fs.fresh entries →
      Stored allowed fs.files fs.fresh (change.apply entries)) :
    Safe used allowed (fs.change change) :=
  ⟨h.invariant.change hkeeps, h.clean⟩

/-- After a crash everything is durable, and what is held is allowed. -/
theorem Safe.crash (h : Safe used allowed fs) (hcrash : FileSystem.Crash used fs fs') :
    Settled used fs' ∧ allowed (Spool.held fs') := by
  obtain ⟨hfirm, hallowed⟩ := h.invariant.crash hcrash
  obtain ⟨-, hdurable, hunsynced, hfresh, hfiles⟩ := hcrash
  have hdata : ∀ file, (fs.files file).synced = true →
      (fs'.files file).data = (fs.files file).data := by
    intro file hsynced
    have hfile := (hfiles file).2
    rwa [if_pos hsynced] at hfile
  refine ⟨⟨hunsynced, hdurable, fun path file hget => ?_, fun file _ => ?_⟩, ?_⟩
  · exact ⟨hfresh ▸ (hfirm path.1 path.2 file hget).1, (hfiles file).1⟩
  · by_cases hsynced : (fs.files file).synced = true
    · rw [hdata file hsynced]
      exact h.clean file hsynced
    · have hfile := (hfiles file).2
      rwa [if_neg hsynced] at hfile
  · have hheld : Spool.held fs' = holdings fs.files fs'.entries := by
      funext place id
      unfold Spool.held holdings
      cases hget : fs'.entries.get? (place, .item id) with
      | none => rfl
      | some file =>
        rw [Option.map_some, Option.map_some,
          hdata file ((hfirm place (.item id) file hget).2 id rfl)]
    rw [hheld]
    exact hallowed

end MongoDam.Spool
