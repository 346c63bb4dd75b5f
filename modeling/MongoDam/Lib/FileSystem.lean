import MongoDam.Lib.Bytes
import MongoDam.Lib.Program
import MongoDam.Lib.Table

/-!
# A file system that can crash

Directory entries refer to numbered files. A change of the entries is durable once
its directory has been synced; until then a crash may drop it, independently of the
others. A file keeps its data over a crash once it has been synced; until then it
may hold anything afterwards. A crash invariant is a property of the entries that
holds of the durable ones and is kept by every change that is not yet durable: it
holds after every crash.
-/

namespace MongoDam.Lib

/-- Why an operation failed. -/
inductive IoError where
  | notFound
  | alreadyExists
  | other
  deriving DecidableEq, Repr

/-- A change of directory entries. A move is atomic. -/
inductive Change (κ : Type) where
  | link (path : κ) (file : ℕ)
  | unlink (path : κ)
  | move (source target : κ) (file : ℕ)

structure File where
  data : Bytes
  synced : Bool

/-- The entries as they are seen now, the durable ones, the changes in between with the
oldest first, the files, and the number of the next file. -/
structure FileSystem (κ : Type) where
  entries : Table κ ℕ
  durable : Table κ ℕ
  unsynced : List (Change κ)
  files : ℕ → File
  fresh : ℕ

namespace Change

variable {κ δ ν : Type} [DecidableEq κ] [DecidableEq δ]

/-- The effect of a change on the entries. -/
def apply : Change κ → Table κ ℕ → Table κ ℕ
  | link path file, entries => entries.insert path file
  | unlink path, entries => entries.erase path
  | move source target file, entries => (entries.erase source).insert target file

/-- The change concerns the directory. -/
def touches (directory : δ) : Change (δ × ν) → Bool
  | link path _ => path.1 = directory
  | unlink path => path.1 = directory
  | move source target _ => source.1 = directory ∨ target.1 = directory

/-- The effect of changes, the first one first. -/
def applyAll (changes : List (Change κ)) (entries : Table κ ℕ) : Table κ ℕ :=
  changes.foldl (fun entries change => change.apply entries) entries

end Change

/-! ### Operations -/

/-- The operations of a program on directories `δ` with names `ν`. -/
inductive FileOp (δ ν : Type) where
  | metadata (path : δ × ν)
  | readDir (directory : δ)
  | createNew (path : δ × ν)
  | writeAll (file : ℕ) (data : Bytes)
  | syncFile (file : ℕ)
  | rename (source target : δ × ν)
  | removeFile (path : δ × ν)
  | readFile (path : δ × ν)
  | syncDir (directory : δ)

/-- What an operation returns when it succeeds. -/
@[reducible] def FileOp.Value {δ ν : Type} : FileOp δ ν → Type
  | metadata _ => ℕ
  | readDir _ => List (ν × ℕ)
  | createNew _ => ℕ
  | readFile _ => Bytes
  | writeAll _ _ => Unit
  | syncFile _ => Unit
  | rename _ _ => Unit
  | removeFile _ => Unit
  | syncDir _ => Unit

namespace FileSystem

variable {κ δ ν : Type} [DecidableEq κ] [DecidableEq δ] [DecidableEq ν]

def empty : FileSystem κ where
  entries := .empty
  durable := .empty
  unsynced := []
  files _ := { data := [], synced := false }
  fresh := 0

/-- The data a path refers to. -/
def dataAt (fs : FileSystem κ) (path : κ) : Option Bytes :=
  (fs.entries.get? path).map fun file => (fs.files file).data

/-- Change the entries, for now not durably. -/
def change (fs : FileSystem κ) (change : Change κ) : FileSystem κ :=
  { fs with entries := change.apply fs.entries, unsynced := fs.unsynced ++ [change] }

/-- Replace the state of a file. -/
def setFile (fs : FileSystem κ) (file : ℕ) (state : File) : FileSystem κ :=
  { fs with files := fun other => if other = file then state else fs.files other }

/-- The names in a directory with the lengths of their files. -/
def listing (fs : FileSystem (δ × ν)) (directory : δ) : List (ν × ℕ) :=
  fs.entries.entries.filterMap fun entry =>
    if entry.1.1 = directory then some (entry.1.2, (fs.files entry.2).data.length) else none

/-- Create a file under a path that is free. -/
def createNew (fs : FileSystem κ) (path : κ) : Except IoError ℕ × FileSystem κ :=
  match fs.entries.get? path with
  | some _ => (.error .alreadyExists, fs)
  | none =>
    (.ok fs.fresh,
      { (fs.setFile fs.fresh { data := [], synced := false }).change (.link path fs.fresh) with
        fresh := fs.fresh + 1 })

/-- Move a file, replacing what the target refers to. -/
def rename (fs : FileSystem κ) (source target : κ) : Except IoError Unit × FileSystem κ :=
  match fs.entries.get? source with
  | none => (.error .notFound, fs)
  | some file => (.ok (), fs.change (.move source target file))

def removeFile (fs : FileSystem κ) (path : κ) : Except IoError Unit × FileSystem κ :=
  match fs.entries.get? path with
  | none => (.error .notFound, fs)
  | some _ => (.ok (), fs.change (.unlink path))

/-- Make the changes that concern a directory durable. -/
def syncDir (fs : FileSystem (δ × ν)) (directory : δ) : FileSystem (δ × ν) :=
  { fs with
    durable := Change.applyAll (fs.unsynced.filter (·.touches directory)) fs.durable
    unsynced := fs.unsynced.filter fun change => !change.touches directory }

/-- What an operation does when it does not fail. A directory is listed in any order. -/
def Exec : Program.Meaning (FileOp δ ν) (fun op => Except IoError op.Value) (FileSystem (δ × ν))
  | .metadata path, fs, result, fs' =>
    fs' = fs ∧ result = (fs.dataAt path).elim (.error .notFound) fun data => .ok data.length
  | .readDir directory, fs, result, fs' =>
    fs' = fs ∧ ∃ names : List (ν × ℕ), names.Perm (fs.listing directory) ∧ result = .ok names
  | .createNew path, fs, result, fs' => (result, fs') = fs.createNew path
  | .writeAll file data, fs, result, fs' =>
    fs' = fs.setFile file { data, synced := false } ∧ result = .ok ()
  | .syncFile file, fs, result, fs' =>
    fs' = fs.setFile file { (fs.files file) with synced := true } ∧ result = .ok ()
  | .rename source target, fs, result, fs' => (result, fs') = fs.rename source target
  | .removeFile path, fs, result, fs' => (result, fs') = fs.removeFile path
  | .readFile path, fs, result, fs' =>
    fs' = fs ∧ result = (fs.dataAt path).elim (.error .notFound) .ok
  | .syncDir directory, fs, result, fs' => fs' = fs.syncDir directory ∧ result = .ok ()

/-- What an operation does when it fails: nothing, except that a write may have written
a part of its data. -/
def Fails : Program.Meaning (FileOp δ ν) (fun op => Except IoError op.Value) (FileSystem (δ × ν))
  | .writeAll file data, fs, result, fs' =>
    ∃ error written, result = .error error ∧
      fs' = fs.setFile file { data := data.take written, synced := false }
  | _, fs, result, fs' => ∃ error, result = .error error ∧ fs' = fs

/-- What an operation can do when some operations may fail. -/
def ExecWith (faults : FileOp δ ν → Prop) :
    Program.Meaning (FileOp δ ν) (fun op => Except IoError op.Value) (FileSystem (δ × ν)) :=
  fun op fs result fs' => Exec op fs result fs' ∨ (faults op ∧ Fails op fs result fs')

/-- Perform an operation that does not fail. A directory is listed in the order of its
entries. -/
def perform : (op : FileOp δ ν) → FileSystem (δ × ν) →
    Except IoError op.Value × FileSystem (δ × ν)
  | .metadata path, fs =>
    ((fs.dataAt path).elim (.error .notFound) fun data => .ok data.length, fs)
  | .readDir directory, fs => (.ok (fs.listing directory), fs)
  | .createNew path, fs => fs.createNew path
  | .writeAll file data, fs => (.ok (), fs.setFile file { data, synced := false })
  | .syncFile file, fs => (.ok (), fs.setFile file { (fs.files file) with synced := true })
  | .rename source target, fs => fs.rename source target
  | .removeFile path, fs => fs.removeFile path
  | .readFile path, fs => ((fs.dataAt path).elim (.error .notFound) .ok, fs)
  | .syncDir directory, fs => (.ok (), fs.syncDir directory)

theorem exec_perform (op : FileOp δ ν) (fs : FileSystem (δ × ν)) :
    Exec op fs (perform op fs).1 (perform op fs).2 := by
  cases op with
  | readDir directory => exact ⟨rfl, _, .refl _, rfl⟩
  | createNew path => rfl
  | rename source target => rfl
  | removeFile path => rfl
  | _ => exact ⟨rfl, rfl⟩

/-- What a crash leaves: some of the changes that were not durable, the data of synced
files, and some of the `used` contents for the others. What is left is durable. -/
def Crash (used : Bytes → Prop) (fs fs' : FileSystem κ) : Prop :=
  (∃ kept : List (Change κ), kept.Sublist fs.unsynced ∧
      fs'.entries = Change.applyAll kept fs.durable) ∧
    fs'.durable = fs'.entries ∧ fs'.unsynced = [] ∧ fs'.fresh = fs.fresh ∧
    ∀ file, (fs'.files file).synced = true ∧
      if (fs.files file).synced then (fs'.files file).data = (fs.files file).data
      else used (fs'.files file).data

/-! ### Crash invariants -/

/-- The property holds of the entries, now and after a crash. -/
structure CrashInvariant (fs : FileSystem κ) (P : Table κ ℕ → Prop) : Prop where
  now : P fs.entries
  durable : P fs.durable
  kept : ∀ change ∈ fs.unsynced, ∀ entries, P entries → P (change.apply entries)

variable {fs fs' : FileSystem κ} {P Q : Table κ ℕ → Prop}

private theorem applyAll_keeps {changes : List (Change κ)} {entries : Table κ ℕ}
    (hentries : P entries)
    (hkept : ∀ change ∈ changes, ∀ entries, P entries → P (change.apply entries)) :
    P (Change.applyAll changes entries) := by
  induction changes generalizing entries with
  | nil => exact hentries
  | cons change rest ih =>
    have hfirst := hkept change (List.mem_cons_self ..) entries hentries
    exact ih hfirst fun later hlater => hkept later (List.mem_cons_of_mem _ hlater)

/-- A crash invariant holds after a crash. -/
theorem CrashInvariant.crash {used : Bytes → Prop} (h : fs.CrashInvariant P)
    (hcrash : Crash used fs fs') : P fs'.entries := by
  obtain ⟨⟨kept, hsublist, hentries⟩, -⟩ := hcrash
  rw [hentries]
  exact applyAll_keeps h.durable fun change hchange => h.kept change (hsublist.subset hchange)

/-- A change that keeps the property keeps the crash invariant. -/
theorem CrashInvariant.change {change : Change κ} (h : fs.CrashInvariant P)
    (hkeeps : ∀ entries, P entries → P (change.apply entries)) :
    (fs.change change).CrashInvariant P := by
  refine ⟨hkeeps _ h.now, h.durable, fun other hother => ?_⟩
  rcases List.mem_append.mp hother with hmem | hmem
  · exact h.kept other hmem
  · rw [List.mem_singleton] at hmem
    rw [hmem]
    exact hkeeps

/-- Syncing a directory keeps a crash invariant. -/
theorem CrashInvariant.syncDir {fs : FileSystem (δ × ν)} {P : Table (δ × ν) ℕ → Prop}
    (h : fs.CrashInvariant P) (directory : δ) : (fs.syncDir directory).CrashInvariant P := by
  refine ⟨h.now, ?_, fun change hchange => h.kept change (List.mem_filter.mp hchange).1⟩
  exact applyAll_keeps h.durable fun change hchange => h.kept change (List.mem_filter.mp hchange).1

/-- What is seen is what becomes durable. -/
def Consistent (fs : FileSystem κ) : Prop := fs.entries = Change.applyAll fs.unsynced fs.durable

theorem Consistent.change (h : fs.Consistent) (change : Change κ) :
    (fs.change change).Consistent := by
  unfold Consistent FileSystem.change Change.applyAll at *
  rw [List.foldl_append, ← h]
  rfl

/-- When every change concerns a directory, syncing it makes everything durable. -/
theorem Consistent.syncDir {fs : FileSystem (δ × ν)} {directory : δ} (h : fs.Consistent)
    (hall : ∀ change ∈ fs.unsynced, change.touches directory) :
    (fs.syncDir directory).unsynced = [] ∧
      (fs.syncDir directory).durable = (fs.syncDir directory).entries := by
  constructor
  · refine List.filter_eq_nil_iff.mpr fun change hchange => ?_
    simp [hall change hchange]
  · unfold FileSystem.syncDir
    rw [List.filter_eq_self.mpr hall]
    exact h.symm

/-! ### What a crash can leave -/

/-- The property holds of the entries that are left by any crash. -/
def Outcomes (fs : FileSystem κ) (P : Table κ ℕ → Prop) : Prop :=
  ∀ kept : List (Change κ), kept.Sublist fs.unsynced → P (Change.applyAll kept fs.durable)

theorem Outcomes.mono (h : fs.Outcomes P) (hPQ : ∀ entries, P entries → Q entries) :
    fs.Outcomes Q := fun kept hkept => hPQ _ (h kept hkept)

/-- A crash may leave what is seen now. -/
theorem Outcomes.now (h : fs.Outcomes P) (hconsistent : fs.Consistent) : P fs.entries := by
  rw [hconsistent]
  exact h fs.unsynced (List.Sublist.refl _)

theorem Outcomes.crash {used : Bytes → Prop} (h : fs.Outcomes P) (hcrash : Crash used fs fs') :
    P fs'.entries := by
  obtain ⟨⟨kept, hkept, hentries⟩, -⟩ := hcrash
  rw [hentries]
  exact h kept hkept

/-- When everything is durable, a crash changes no entry. -/
theorem outcomes_of_durable (hunsynced : fs.unsynced = []) (hdurable : fs.durable = fs.entries)
    (h : P fs.entries) : fs.Outcomes P := by
  intro kept hkept
  rw [hunsynced, List.sublist_nil] at hkept
  rw [hkept, hdurable]
  exact h

/-- A new change takes effect in a crash or it does not. -/
theorem Outcomes.change {change : Change κ} (h : fs.Outcomes P)
    (hdropped : ∀ entries, P entries → Q entries)
    (happlied : ∀ entries, P entries → Q (change.apply entries)) :
    (fs.change change).Outcomes Q := by
  intro kept hkept
  obtain ⟨before, last, rfl, hbefore, hlast⟩ := List.sublist_append_iff.mp hkept
  rcases List.sublist_singleton.mp hlast with rfl | rfl
  · rw [List.append_nil]
    exact hdropped _ (h before hbefore)
  · unfold Change.applyAll
    rw [List.foldl_append]
    exact happlied _ (h before hbefore)

/-- When every change concerns a directory, nothing is dropped once it is synced. -/
theorem Outcomes.syncDir {fs : FileSystem (δ × ν)} {P : Table (δ × ν) ℕ → Prop} {directory : δ}
    (hconsistent : fs.Consistent) (hall : ∀ change ∈ fs.unsynced, change.touches directory)
    (h : P fs.entries) : (fs.syncDir directory).Outcomes P := by
  obtain ⟨hunsynced, hdurable⟩ := hconsistent.syncDir hall
  exact outcomes_of_durable hunsynced hdurable h

/-! ### Listings -/

omit [DecidableEq ν] in
private theorem listing_map_fst (fs : FileSystem (δ × ν)) (directory : δ) :
    (fs.listing directory).map Prod.fst =
      (fs.entries.keys.filter fun path => path.1 = directory).map Prod.snd := by
  unfold listing Table.keys
  induction fs.entries.entries with
  | nil => rfl
  | cons entry rest ih =>
    by_cases h : entry.1.1 = directory
    · simp [h, ih]
    · simp [h, ih]

/-- A directory lists the names of its entries. -/
theorem mem_listing (fs : FileSystem (δ × ν)) {directory : δ} {name : ν} :
    name ∈ (fs.listing directory).map Prod.fst ↔
      (fs.entries.get? (directory, name)).isSome := by
  have hkey : (fs.entries.get? (directory, name)).isSome ↔ (directory, name) ∈ fs.entries.keys := by
    rw [← Option.ne_none_iff_isSome, ne_eq, Table.get?_eq_none_iff, Decidable.not_not]
  rw [hkey, listing_map_fst]
  constructor
  · intro h
    obtain ⟨path, hpath, rfl⟩ := List.mem_map.mp h
    obtain ⟨hmem, hdirectory⟩ := List.mem_filter.mp hpath
    have hdirectory : path.1 = directory := by simpa using hdirectory
    rw [← hdirectory]
    exact hmem
  · intro h
    exact List.mem_map.mpr ⟨_, List.mem_filter.mpr ⟨h, by simp⟩, rfl⟩

omit [DecidableEq ν] in
/-- A directory lists every name once. -/
theorem nodup_listing (fs : FileSystem (δ × ν)) (directory : δ) :
    ((fs.listing directory).map Prod.fst).Nodup := by
  rw [listing_map_fst]
  refine (fs.entries.nodup.filter _).map_on fun path hpath other hother heq => ?_
  have hpath : path.1 = directory := by simpa using (List.mem_filter.mp hpath).2
  have hother : other.1 = directory := by simpa using (List.mem_filter.mp hother).2
  exact Prod.ext (hpath.trans hother.symm) heq

/-! ### Fields of a changed system -/

@[simp] theorem change_entries (fs : FileSystem κ) (change : Change κ) :
    (fs.change change).entries = change.apply fs.entries := rfl

@[simp] theorem change_durable (fs : FileSystem κ) (change : Change κ) :
    (fs.change change).durable = fs.durable := rfl

@[simp] theorem change_unsynced (fs : FileSystem κ) (change : Change κ) :
    (fs.change change).unsynced = fs.unsynced ++ [change] := rfl

@[simp] theorem change_files (fs : FileSystem κ) (change : Change κ) :
    (fs.change change).files = fs.files := rfl

@[simp] theorem change_fresh (fs : FileSystem κ) (change : Change κ) :
    (fs.change change).fresh = fs.fresh := rfl

@[simp] theorem syncDir_entries (fs : FileSystem (δ × ν)) (directory : δ) :
    (fs.syncDir directory).entries = fs.entries := rfl

@[simp] theorem syncDir_files (fs : FileSystem (δ × ν)) (directory : δ) :
    (fs.syncDir directory).files = fs.files := rfl

@[simp] theorem syncDir_fresh (fs : FileSystem (δ × ν)) (directory : δ) :
    (fs.syncDir directory).fresh = fs.fresh := rfl

section Files

variable {κ : Type} (fs : FileSystem κ) (file : ℕ) (state : File)

@[simp] theorem setFile_entries :
    (fs.setFile file state).entries = fs.entries := rfl

@[simp] theorem setFile_durable :
    (fs.setFile file state).durable = fs.durable := rfl

@[simp] theorem setFile_unsynced :
    (fs.setFile file state).unsynced = fs.unsynced := rfl

@[simp] theorem setFile_fresh :
    (fs.setFile file state).fresh = fs.fresh := rfl

@[simp] theorem setFile_files :
    (fs.setFile file state).files file = state := if_pos rfl

theorem setFile_files_ne {file other : ℕ} (h : other ≠ file) :
    (fs.setFile file state).files other = fs.files other := if_neg h

end Files

end FileSystem

end MongoDam.Lib
